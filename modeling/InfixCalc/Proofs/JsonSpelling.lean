/-
# JSON texts and their lexemes

A mark or a word is written in one way, a number as its parts are, and a string in many ways: a
character may stand for itself, it may have a short escape, and sixteen bits are four hexadecimal
digits in either case (`Json.Lexeme.SpelledAs`).  However a lexeme is spelled, it is read as what it
is (`Json.Lexeme.SpelledAs.readsAs`), if it can be told from what follows it.  Only a number needs
that something else follows: more digits, a point or an exponent would belong to it.

A text spells a list of lexemes if it is the lexemes as they are written, with blanks before,
between and after them (`Json.Spells`).  Reading such a text gives the lexemes back
(`Json.Spells.readAll?_eq`), if each of them is read back (`Json.Lexeme.ReadsBack`).  Marks, words,
strings without escapes and integers are.
-/

import InfixCalc.Json.Writer
import InfixCalc.Proofs.Numerals
import Mathlib.Data.List.Forall2

namespace InfixCalc
namespace Json

/-- What follows is not taken for more of a number. -/
def EndsNumber (rest : List Char) : Prop :=
  ∀ c ∈ rest.head?, c.isDigit = false ∧ c ≠ '.' ∧ c ≠ 'e' ∧ c ≠ 'E'

/-- What follows can be told from the lexeme. -/
def Lexeme.Apart (rest : List Char) : Lexeme → Prop
  | .scalar (.number _) => EndsNumber rest
  | _ => True

/-- A number ends before a character that is part of no number. -/
theorem endsNumber_cons {c : Char}
    (h : (!c.isDigit && c != '.' && c != 'e' && c != 'E') = true) (rest : List Char) :
    EndsNumber (c :: rest) := by
  rintro _ ⟨⟩
  simpa [and_assoc] using h

/-- A mark stands apart from whatever follows. -/
theorem Lexeme.apart_of_mark {lexeme : Lexeme} (hmark : ∀ leaf, lexeme ≠ .scalar leaf)
    (rest : List Char) : lexeme.Apart rest := by
  unfold Apart
  split
  · exact absurd rfl (hmark _)
  · trivial

/-- Every lexeme stands apart from what a number can end before. -/
theorem Lexeme.apart_of_endsNumber {rest : List Char} (h : EndsNumber rest) (lexeme : Lexeme) :
    lexeme.Apart rest := by
  unfold Apart
  split
  · exact h
  · trivial

/-- The characters are read as the lexeme. -/
def Lexeme.ReadsAs (lexeme : Lexeme) (chars : List Char) : Prop :=
  ∀ rest, lexeme.Apart rest → readFirst? (chars ++ rest) = some (lexeme, rest)

/-- The lexeme is read as it is written. -/
def Lexeme.ReadsBack (lexeme : Lexeme) : Prop :=
  ∀ rest, lexeme.Apart rest → readFirst? (lexeme.chars ++ rest) = some (lexeme, rest)

section Strings

/-- The character stands for itself in a string. -/
def isPlain (c : Char) : Bool := c != '"' && c != '\\' && 0x20 ≤ c.toNat

/-- A plain character is written as itself. -/
theorem StringUnit.chars_of_isPlain {c : Char} (h : isPlain c) : (char c).chars = [c] := by
  simp only [isPlain, Bool.and_eq_true, bne_iff_ne, decide_eq_true_eq] at h
  obtain ⟨⟨hquote, hbackslash⟩, hcontrol⟩ := h
  unfold chars
  split <;> rename_i heq <;> cases heq
  · exact absurd rfl hquote
  · exact absurd rfl hbackslash
  iterate 5 exact absurd hcontrol (by decide)
  exact if_neg (Nat.not_lt.2 hcontrol)

/-- A plain character in a string is read as itself. -/
theorem readString?_of_isPlain {c : Char} (h : isPlain c) (before : List StringUnit)
    (rest : List Char) : readString? before (c :: rest) = readString? (.char c :: before) rest := by
  simp only [isPlain, Bool.and_eq_true, bne_iff_ne, decide_eq_true_eq] at h
  obtain ⟨⟨hquote, hbackslash⟩, hcontrol⟩ := h
  conv => lhs; unfold readString?
  split <;> rename_i heq <;> cases heq
  · exact absurd rfl hquote
  · exact absurd rfl hbackslash
  · exact absurd rfl hbackslash
  · exact if_neg (Nat.not_lt.2 hcontrol)

/-- What stands behind the backslash of a short escape, and the character that is meant. -/
def shortEscapes : List (Char × Char) :=
  [('"', '"'), ('\\', '\\'), ('/', '/'), ('b', '\x08'), ('f', '\x0c'), ('n', '\n'), ('r', '\r'),
    ('t', '\t')]

/-- The character is a hexadecimal digit of this value, in either case. -/
def IsHexDigit (value : Nat) (c : Char) : Prop :=
  "0123456789abcdef".toList[value]? = some c ∨ "0123456789ABCDEF".toList[value]? = some c

/-- The ways to spell a unit of a string. -/
inductive StringUnit.SpelledAs : StringUnit → List Char → Prop
  | plain {c : Char} (h : isPlain c) : SpelledAs (.char c) [c]
  | short {mark c : Char} (h : (mark, c) ∈ shortEscapes) : SpelledAs (.char c) ['\\', mark]
  | hex {bits : UInt16} {i j k l : Nat} {a b c d : Char} (ha : IsHexDigit i a)
      (hb : IsHexDigit j b) (hc : IsHexDigit k c) (hd : IsHexDigit l d)
      (hbits : bits.toNat = ((i * 16 + j) * 16 + k) * 16 + l) :
      SpelledAs (.code bits) ['\\', 'u', a, b, c, d]

/-- A hexadecimal digit is read as its value. -/
theorem hexValue?_of_isHexDigit {value : Nat} {c : Char} (h : IsHexDigit value c) :
    hexValue? c = some value := by
  have hlower : ∀ i : Fin "0123456789abcdef".toList.length,
      hexValue? ("0123456789abcdef".toList.get i) = some i.val := by decide
  have hupper : ∀ i : Fin "0123456789ABCDEF".toList.length,
      hexValue? ("0123456789ABCDEF".toList.get i) = some i.val := by decide
  obtain h | h := h
  · obtain ⟨hlt, rfl⟩ := List.getElem?_eq_some_iff.1 h
    exact hlower ⟨value, hlt⟩
  · obtain ⟨hlt, rfl⟩ := List.getElem?_eq_some_iff.1 h
    exact hupper ⟨value, hlt⟩

/-- A short escape is read as the character it stands for. -/
theorem readString?_short {mark c : Char} (h : (mark, c) ∈ shortEscapes)
    (before : List StringUnit) (rest : List Char) :
    readString? before ('\\' :: mark :: rest) = readString? (.char c :: before) rest := by
  have hescape : ∀ escape ∈ shortEscapes,
      escape.1 ≠ 'u' ∧ shortEscape? escape.1 = some escape.2 := by decide
  obtain ⟨hmark, hread⟩ := hescape _ h
  conv => lhs; unfold readString?
  split <;> rename_i heq <;> cases heq
  · exact absurd rfl hmark
  · simp only [hread]
  · rename_i hne
    exact (hne _ _ rfl rfl).elim

/-- An escape with four digits is read as its code unit. -/
theorem readString?_hex {a b c d : Char} {bits : UInt16} (h : hexBits? a b c d = some bits)
    (before : List StringUnit) (rest : List Char) :
    readString? before ('\\' :: 'u' :: a :: b :: c :: d :: rest) =
      readString? (.code bits :: before) rest := by
  rw [readString?, h]

/-- However a unit is spelled, it is read as what it is. -/
theorem StringUnit.SpelledAs.readString?_append {unit : StringUnit} {chars : List Char}
    (h : unit.SpelledAs chars) (before : List StringUnit) (rest : List Char) :
    readString? before (chars ++ rest) = readString? (unit :: before) rest := by
  cases h with
  | plain h => exact readString?_of_isPlain h before rest
  | short h => exact readString?_short h before rest
  | @hex bits i j k l a b c d ha hb hc hd hbits =>
    have hread : hexBits? a b c d = some bits := by
      simp only [hexBits?, hexValue?_of_isHexDigit ha, hexValue?_of_isHexDigit hb,
        hexValue?_of_isHexDigit hc, hexValue?_of_isHexDigit hd, ← hbits, UInt16.ofNat_toNat]
    exact readString?_hex hread before rest

/-- A string is read up to its closing quote. -/
theorem readString?_spelled {units : List StringUnit} {pieces : List (List Char)}
    (h : List.Forall₂ StringUnit.SpelledAs units pieces) (before : List StringUnit)
    (rest : List Char) :
    readString? before (pieces.flatten ++ '"' :: rest) = some (before.reverse ++ units, rest) := by
  induction h generalizing before with
  | nil => simp [readString?]
  | cons hunit _ ih =>
    rw [List.flatten_cons, List.append_assoc, hunit.readString?_append, ih, List.reverse_cons,
      List.append_assoc]
    rfl

/-- Plain characters may stand for themselves. -/
theorem forall₂_spelledAs_plain {text : List Char} (h : ∀ c ∈ text, isPlain c) :
    List.Forall₂ StringUnit.SpelledAs (text.map .char) (text.map fun c => [c]) := by
  rw [List.forall₂_map_left_iff, List.forall₂_map_right_iff, List.forall₂_same]
  exact fun c hc => .plain (h c hc)

/-- Plain characters are written as they are. -/
theorem flatMap_chars_plain {text : List Char} (h : ∀ c ∈ text, isPlain c) :
    (text.map StringUnit.char).flatMap StringUnit.chars = text := by
  induction text with
  | nil => rfl
  | cons c text ih =>
    obtain ⟨hc, htext⟩ := List.forall_mem_cons.1 h
    rw [List.map_cons, List.flatMap_cons, StringUnit.chars_of_isPlain hc, ih htext]
    rfl

end Strings

section Numbers

/-- One digit or more. -/
def IsDigits (digits : List Char) : Prop := digits ≠ [] ∧ ∀ c ∈ digits, c.isDigit

instance (digits : List Char) : Decidable (IsDigits digits) :=
  decidable_of_iff (digits ≠ [] ∧ digits.all Char.isDigit) (by rw [IsDigits, List.all_eq_true])

/-- The parts of the exponent are what JSON allows. -/
structure Exponent.WellFormed (exponent : Exponent) : Prop where
  mark : exponent.mark = 'e' ∨ exponent.mark = 'E'
  sign : ∀ c ∈ exponent.sign, c = '+' ∨ c = '-'
  digits : IsDigits exponent.digits

/-- The parts of the number are what JSON allows: no zero before other digits, and digits on
either side of a point. -/
structure Number.WellFormed (number : Number) : Prop where
  whole : number.whole = ['0'] ∨ IsDigits number.whole ∧ number.whole.head? ≠ some '0'
  fraction : ∀ digits ∈ number.fraction, IsDigits digits
  exponent : ∀ exponent ∈ number.exponent, exponent.WellFormed

/-- What follows does not begin with a digit. -/
def EndsDigits (rest : List Char) : Prop := ∀ c ∈ rest.head?, c.isDigit = false

/-- Where a number can end, its digits end. -/
theorem EndsNumber.endsDigits {rest : List Char} (h : EndsNumber rest) : EndsDigits rest :=
  fun c hc => (h c hc).1

/-- All digits that come next are read, and nothing else. -/
theorem readDigits?_append {digits rest : List Char} (hdigits : IsDigits digits)
    (hrest : EndsDigits rest) : readDigits? (digits ++ rest) = some (digits, rest) := by
  have hstop : rest.takeWhile Char.isDigit = [] ∧ rest.dropWhile Char.isDigit = rest := by
    cases rest with
    | nil => exact ⟨rfl, rfl⟩
    | cons c rest =>
      have hc := hrest c rfl
      exact ⟨List.takeWhile_cons_of_neg (by simp [hc]), List.dropWhile_cons_of_neg (by simp [hc])⟩
  obtain ⟨hne, hdigits⟩ := hdigits
  rw [readDigits?, List.takeWhile_append_of_pos hdigits, List.dropWhile_append_of_pos hdigits,
    hstop.1, hstop.2, List.append_nil]
  cases digits with
  | nil => exact absurd rfl hne
  | cons c digits => rfl

/-- A whole part without a leading zero is read to its end. -/
theorem readWhole?_append {whole rest : List Char}
    (h : whole = ['0'] ∨ IsDigits whole ∧ whole.head? ≠ some '0') (hrest : EndsDigits rest) :
    readWhole? (whole ++ rest) = some (whole, rest) := by
  obtain rfl | ⟨hdigits, hzero⟩ := h
  · rfl
  · have hread := readDigits?_append hdigits hrest
    obtain ⟨c, digits, rfl⟩ := List.exists_cons_of_ne_nil hdigits.1
    rw [List.cons_append] at hread ⊢
    unfold readWhole?
    split
    · rename_i heq
      cases heq
      exact absurd rfl hzero
    · exact hread

/-- The sign of an exponent is read, if there is one. -/
theorem readExponentSign_append {sign : Option Char} (h : ∀ c ∈ sign, c = '+' ∨ c = '-')
    {digits : List Char} (hdigits : IsDigits digits) (rest : List Char) :
    readExponentSign (sign.toList ++ (digits ++ rest)) = (sign, digits ++ rest) := by
  cases sign with
  | some c =>
    obtain rfl | rfl := h c rfl
    · rfl
    · rfl
  | none =>
    obtain ⟨c, digits, rfl⟩ := List.exists_cons_of_ne_nil hdigits.1
    have hc : c.isDigit := hdigits.2 c List.mem_cons_self
    show readExponentSign (c :: (digits ++ rest)) = (none, c :: (digits ++ rest))
    unfold readExponentSign
    split
    · rename_i heq
      cases heq
      exact absurd hc (by decide)
    · rename_i heq
      cases heq
      exact absurd hc (by decide)
    · rfl

/-- An exponent is read to its end. -/
theorem Exponent.WellFormed.readExponent?_append {exponent : Exponent} (h : exponent.WellFormed)
    {rest : List Char} (hrest : EndsDigits rest) :
    readExponent? (exponent.chars ++ rest) = some (some exponent, rest) := by
  obtain ⟨mark, sign, digits⟩ := exponent
  have hmark : (mark == 'e' || mark == 'E') = true := by simpa using h.mark
  simp only [Exponent.chars, List.cons_append, List.append_assoc, readExponent?, hmark, if_true,
    readExponentSign_append h.sign h.digits, readDigits?_append h.digits hrest, Option.map_some]

/-- How a fraction is written, if there is one. -/
def fractionChars : Option (List Char) → List Char
  | some digits => '.' :: digits
  | none => []

/-- How an exponent is written, if there is one. -/
def exponentChars : Option Exponent → List Char
  | some exponent => exponent.chars
  | none => []

/-- A number is written as its sign, whole part, fraction and exponent. -/
theorem Number.chars_eq (number : Number) :
    number.chars = (if number.negative then ['-'] else []) ++
      (number.whole ++ (fractionChars number.fraction ++ exponentChars number.exponent)) := by
  obtain ⟨negative, whole, fraction, exponent⟩ := number
  cases fraction <;> cases exponent <;> simp [Number.chars, fractionChars, exponentChars]

/-- No exponent is read where a number ends. -/
theorem readExponent?_of_endsNumber {rest : List Char} (h : EndsNumber rest) :
    readExponent? rest = some (none, rest) := by
  unfold readExponent?
  split
  · rfl
  · obtain ⟨-, -, he, hE⟩ := h _ rfl
    rw [if_neg (by simp [he, hE])]

/-- An exponent is read from what is written for it, also if there is none. -/
theorem readExponent?_exponentChars {exponent : Option Exponent}
    (h : ∀ e ∈ exponent, Exponent.WellFormed e) {rest : List Char} (hrest : EndsNumber rest) :
    readExponent? (exponentChars exponent ++ rest) = some (exponent, rest) := by
  cases exponent with
  | none => exact readExponent?_of_endsNumber hrest
  | some exponent => exact (h exponent rfl).readExponent?_append hrest.endsDigits

/-- A fraction is read from what is written for it, also if there is none. -/
theorem readFraction?_fractionChars {fraction : Option (List Char)}
    (h : ∀ digits ∈ fraction, IsDigits digits) {rest : List Char}
    (hrest : ∀ c ∈ rest.head?, c.isDigit = false ∧ c ≠ '.') :
    readFraction? (fractionChars fraction ++ rest) = some (fraction, rest) := by
  have hends : EndsDigits rest := fun c hc => (hrest c hc).1
  cases fraction with
  | none =>
    show readFraction? rest = some (none, rest)
    unfold readFraction?
    split
    · exact absurd rfl (hrest '.' rfl).2
    · rfl
  | some digits =>
    show readFraction? ('.' :: (digits ++ rest)) = some (some digits, rest)
    rw [readFraction?, readDigits?_append (h digits rfl) hends]
    rfl

/-- An exponent cannot be taken for more of the digits before it. -/
theorem head?_exponentChars {exponent : Option Exponent} (h : ∀ e ∈ exponent, Exponent.WellFormed e)
    {rest : List Char} (hrest : EndsNumber rest) :
    ∀ c ∈ (exponentChars exponent ++ rest).head?, c.isDigit = false ∧ c ≠ '.' := by
  intro c hc
  cases exponent with
  | none => exact ⟨(hrest c hc).1, (hrest c hc).2.1⟩
  | some exponent =>
    obtain rfl : exponent.mark = c := Option.some.inj hc
    obtain hmark | hmark := (h exponent rfl).mark <;> rw [hmark] <;> decide

/-- The parts of a number are read behind its sign. -/
theorem Number.WellFormed.readUnsigned?_append {number : Number} (h : number.WellFormed)
    {rest : List Char} (hrest : EndsNumber rest) :
    readUnsigned? number.negative (number.whole ++
      (fractionChars number.fraction ++ (exponentChars number.exponent ++ rest))) =
      some (number, rest) := by
  have hexponent := head?_exponentChars h.exponent hrest
  have hfraction : EndsDigits
      (fractionChars number.fraction ++ (exponentChars number.exponent ++ rest)) := by
    intro c hc
    cases hf : number.fraction with
    | none =>
      rw [hf] at hc
      exact (hexponent c hc).1
    | some digits =>
      rw [hf] at hc
      obtain rfl : '.' = c := Option.some.inj hc
      rfl
  simp only [readUnsigned?, readWhole?_append h.whole hfraction,
    readFraction?_fractionChars h.fraction hexponent,
    readExponent?_exponentChars h.exponent hrest]

/-- What begins with a digit or a minus sign is read as a number. -/
theorem Lexeme.readFirst?_eq_readNumber? {c : Char} (h : (c.isDigit || c == '-') = true)
    (rest : List Char) :
    readFirst? (c :: rest) =
      (readNumber? (c :: rest)).map fun (number, rest) => (.scalar (.number number), rest) := by
  have hword : readWordOrNumber? (c :: rest) =
      (readNumber? (c :: rest)).map fun (number, rest) => (.number number, rest) := by
    unfold readWordOrNumber?
    split
    iterate 3
      · rename_i heq
        cases heq
        exact absurd h (by decide)
    · rfl
  unfold readFirst?
  split
  iterate 7
    · rename_i heq
      cases heq
      exact absurd h (by decide)
  · rw [hword, Option.map_map]
    rfl

/-- A number that starts with a digit has no sign. -/
theorem readNumber?_of_isDigit {c : Char} (h : c.isDigit) (rest : List Char) :
    readNumber? (c :: rest) = readUnsigned? false (c :: rest) := by
  unfold readNumber?
  split
  · rename_i heq
    cases heq
    exact absurd h (by decide)
  · rfl

/-- A well-formed number is read as one lexeme. -/
theorem Number.WellFormed.readFirst?_append {number : Number} (h : number.WellFormed)
    {rest : List Char} (hrest : EndsNumber rest) :
    Lexeme.readFirst? (number.chars ++ rest) = some (.scalar (.number number), rest) := by
  have hread := h.readUnsigned?_append hrest
  have hwhole : IsDigits number.whole := by
    obtain hzero | ⟨hdigits, -⟩ := h.whole
    · rw [hzero]
      decide
    · exact hdigits
  rw [number.chars_eq]
  simp only [List.append_assoc]
  cases hnegative : number.negative with
  | true =>
    rw [hnegative] at hread
    simp only [if_true, List.cons_append, List.nil_append]
    rw [Lexeme.readFirst?_eq_readNumber? rfl, readNumber?, hread]
    rfl
  | false =>
    obtain ⟨c, digits, hcons⟩ := List.exists_cons_of_ne_nil hwhole.1
    have hc : c.isDigit := hwhole.2 c (hcons ▸ List.mem_cons_self)
    rw [hnegative, hcons] at hread
    simp only [hcons, Bool.false_eq_true, if_false, List.nil_append, List.cons_append] at hread ⊢
    rw [Lexeme.readFirst?_eq_readNumber? (by rw [hc]; rfl), readNumber?_of_isDigit hc, hread]
    rfl

/-- The digits of a number begin with no zero, unless the number is zero. -/
theorem toDigits_ne_zero_cons {n : Nat} (h : 0 < n) (more : List Char) :
    Nat.toDigits 10 n ≠ '0' :: more := by
  induction n using Nat.strongRecOn generalizing more with
  | ind n ih =>
    rcases Nat.lt_or_ge n 10 with hlt | hge
    · have hdigit : ∀ n < 10, 0 < n → n.digitChar ≠ '0' := by decide
      rw [Nat.toDigits_of_lt_base hlt]
      exact fun heq => hdigit n hlt h (List.cons.inj heq).1
    · obtain ⟨c, digits, hcons⟩ :=
        List.exists_cons_of_ne_nil (Nat.toDigits_ne_nil : Nat.toDigits 10 (n / 10) ≠ [])
      rw [Nat.toDigits_of_base_le (by decide) hge, hcons]
      intro heq
      exact ih (n / 10) (by omega) (by omega) digits (hcons.trans (by rw [(List.cons.inj heq).1]))

/-- An integer is written with the digits of its absolute value. -/
theorem Number.whole_ofInt (n : Int) : (ofInt n).whole = Nat.toDigits 10 n.natAbs := by
  rw [ofInt, Nat.toString_eq_ofList_toDigits, String.toList_ofList]

/-- The number of an integer is well formed. -/
theorem Number.wellFormed_ofInt (n : Int) : (ofInt n).WellFormed := by
  refine ⟨?_, nofun, nofun⟩
  rw [whole_ofInt]
  rcases Nat.eq_zero_or_pos n.natAbs with hzero | hpos
  · rw [hzero]
    exact .inl rfl
  · refine .inr ⟨⟨Nat.toDigits_ne_nil, fun c => Decimal.isDigit_of_mem_toDigits⟩, ?_⟩
    intro hhead
    obtain ⟨digits, hcons⟩ := List.head?_eq_some_iff.1 hhead
    exact toDigits_ne_zero_cons hpos digits hcons

/-- The number of an integer has the sign of the integer and the digits of its magnitude. -/
theorem Number.integer?_ofInt (n : Int) :
    (ofInt n).integer? = some (decide (n < 0), Nat.toDigits 10 n.natAbs) := by
  have hzero : ¬ (n < 0 ∧ Nat.toDigits 10 n.natAbs = ['0']) := by
    rintro ⟨hneg, heq⟩
    exact toDigits_ne_zero_cons (Int.natAbs_pos.2 (Int.ne_of_lt hneg)) [] heq
  rw [integer?, whole_ofInt, if_neg]
  · rfl
  · simpa [ofInt] using hzero

end Numbers

section Lexemes

/-- The ways to spell a lexeme. -/
inductive Lexeme.SpelledAs : Lexeme → List Char → Prop
  | mark {lexeme : Lexeme} (hmark : ∀ leaf, lexeme ≠ .scalar leaf) : SpelledAs lexeme lexeme.chars
  | null : SpelledAs (.scalar .null) Scalar.null.chars
  | bool (value : Bool) : SpelledAs (.scalar (.bool value)) (Scalar.bool value).chars
  | number {value : Number} (h : value.WellFormed) : SpelledAs (.scalar (.number value)) value.chars
  | string {units : List StringUnit} {pieces : List (List Char)}
      (h : List.Forall₂ StringUnit.SpelledAs units pieces) :
      SpelledAs (.scalar (.string units)) ('"' :: (pieces.flatten ++ ['"']))

/-- **However a lexeme is spelled, it is read as what it is.** -/
theorem Lexeme.SpelledAs.readsAs {lexeme : Lexeme} {chars : List Char}
    (h : lexeme.SpelledAs chars) : lexeme.ReadsAs chars := by
  intro rest hrest
  cases h with
  | mark hmark =>
    cases lexeme with
    | scalar leaf => exact absurd rfl (hmark leaf)
    | openBrace | closeBrace | openBracket | closeBracket | comma | colon => rfl
  | null => rfl
  | bool value => cases value <;> rfl
  | number h => exact h.readFirst?_append hrest
  | string h =>
    have hread := readString?_spelled h [] rest
    simp only [List.cons_append, List.append_assoc, List.nil_append, readFirst?, hread,
      Option.map_some, List.reverse_nil]

/-- A mark is read back. -/
theorem Lexeme.readsBack_of_mark {lexeme : Lexeme} (hmark : ∀ leaf, lexeme ≠ .scalar leaf) :
    lexeme.ReadsBack := (SpelledAs.mark hmark).readsAs

/-- The word for nothing is read back. -/
theorem Lexeme.readsBack_null : ReadsBack (.scalar .null) := SpelledAs.null.readsAs

/-- The words for truth values are read back. -/
theorem Lexeme.readsBack_bool (value : Bool) : ReadsBack (.scalar (.bool value)) :=
  (SpelledAs.bool value).readsAs

/-- **An integer is read back.** -/
theorem Lexeme.readsBack_ofInt (n : Int) : ReadsBack (.scalar (.number (Number.ofInt n))) :=
  (SpelledAs.number (Number.wellFormed_ofInt n)).readsAs

/-- **A string of plain characters is read back.** -/
theorem Lexeme.readsBack_unitsOf {text : String} (h : ∀ c ∈ text.toList, isPlain c) :
    ReadsBack (.scalar (.string (unitsOf text))) := by
  have hspelled := SpelledAs.string (forall₂_spelledAs_plain h)
  have hwritten : (text.toList.map fun c => [c]).flatten =
      (unitsOf text).flatMap StringUnit.chars := by
    rw [unitsOf, flatMap_chars_plain h, ← List.flatMap_def, List.flatMap_singleton']
  rw [hwritten] at hspelled
  exact hspelled.readsAs

end Lexemes

section Texts

/-- The text is the lexemes, with blanks before, between and after them. -/
inductive Spells : List Char → List Lexeme → Prop
  | nil {spaces : List Char} (hspaces : ∀ c ∈ spaces, isSpace c) : Spells spaces []
  | cons {spaces rest : List Char} {lexeme : Lexeme} {lexemes : List Lexeme}
      (hspaces : ∀ c ∈ spaces, isSpace c) (hlexeme : lexeme.ReadsBack) (hapart : lexeme.Apart rest)
      (h : Spells rest lexemes) : Spells (spaces ++ (lexeme.chars ++ rest)) (lexeme :: lexemes)

/-- A mark may be put in front of anything. -/
theorem Spells.mark (lexeme : Lexeme) {rest : List Char} {lexemes : List Lexeme}
    (hmark : ∀ leaf, lexeme ≠ .scalar leaf) (h : Spells rest lexemes) :
    Spells (lexeme.chars ++ rest) (lexeme :: lexemes) :=
  .cons (List.forall_mem_nil _) (Lexeme.readsBack_of_mark hmark) (lexeme.apart_of_mark hmark rest) h

/-- Blanks may be put in front. -/
theorem Spells.spaces_append {spaces text : List Char} {lexemes : List Lexeme}
    (hspaces : ∀ c ∈ spaces, isSpace c) (h : Spells text lexemes) :
    Spells (spaces ++ text) lexemes := by
  cases h with
  | nil hmore => exact .nil (List.forall_mem_append.2 ⟨hspaces, hmore⟩)
  | cons hmore hlexeme hapart h =>
    rw [← List.append_assoc]
    exact .cons (List.forall_mem_append.2 ⟨hspaces, hmore⟩) hlexeme hapart h

/-- A lexeme does not begin with a blank. -/
theorem Lexeme.readFirst?_of_isSpace {c : Char} (h : isSpace c) (rest : List Char) :
    readFirst? (c :: rest) = none := by
  simp only [isSpace, Bool.or_eq_true, beq_iff_eq] at h
  rcases h with ((rfl | rfl) | rfl) | rfl <;> rfl

/-- No lexeme starts with a space. -/
theorem Lexeme.dropWhile_isSpace {text rest : List Char} {lexeme : Lexeme}
    (h : readFirst? text = some (lexeme, rest)) : text.dropWhile isSpace = text := by
  cases text with
  | nil => rfl
  | cons c text =>
    refine List.dropWhile_cons_of_neg fun hspace => ?_
    cases h.symm.trans (readFirst?_of_isSpace hspace text)

/-- Nothing is read of blanks. -/
theorem Lexeme.readAllAfter?_spaces {spaces : List Char} (h : ∀ c ∈ spaces, isSpace c)
    (before : List Lexeme) : readAllAfter? before spaces = some before.reverse := by
  have hdrop : spaces.dropWhile isSpace = [] := by
    rw [← List.append_nil spaces, List.dropWhile_append_of_pos h]
    rfl
  rw [readAllAfter?, if_pos hdrop]

/-- A lexeme is read with the blanks before it. -/
theorem Lexeme.readAllAfter?_spaces_append {spaces text rest : List Char} {lexeme : Lexeme}
    (hspaces : ∀ c ∈ spaces, isSpace c) (hread : readFirst? text = some (lexeme, rest))
    (before : List Lexeme) :
    readAllAfter? before (spaces ++ text) = readAllAfter? (lexeme :: before) rest := by
  have hdrop : (spaces ++ text).dropWhile isSpace = text := by
    rw [List.dropWhile_append_of_pos hspaces, dropWhile_isSpace hread]
  have hne : text ≠ [] := by
    rintro rfl
    cases hread
  rw [readAllAfter?, hdrop, if_neg hne]
  split
  · rename_i hnone
    cases hread.symm.trans hnone
  · rename_i hsome
    cases hread.symm.trans hsome
    rfl

/-- The lexemes of a text are read, after those that have been read before. -/
theorem Spells.readAllAfter?_eq {text : List Char} {lexemes : List Lexeme} (h : Spells text lexemes)
    (before : List Lexeme) :
    Lexeme.readAllAfter? before text = some (before.reverse ++ lexemes) := by
  induction h generalizing before with
  | nil hspaces => rw [Lexeme.readAllAfter?_spaces hspaces, List.append_nil]
  | cons hspaces hlexeme hapart _ ih =>
    rw [Lexeme.readAllAfter?_spaces_append hspaces (hlexeme _ hapart), ih, List.reverse_cons,
      List.append_assoc]
    rfl

/-- **A text that spells lexemes is read as these lexemes.** -/
theorem Spells.readAll?_eq {text : List Char} {lexemes : List Lexeme} (h : Spells text lexemes) :
    Lexeme.readAll? text = some lexemes := h.readAllAfter?_eq []

end Texts

end Json
end InfixCalc
