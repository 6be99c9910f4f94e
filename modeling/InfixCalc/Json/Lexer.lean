/-
# Lexemes of a JSON text

JSON has six punctuation marks, three words, numbers and strings; between them there may be
spaces, tabs, line feeds and carriage returns, and nothing else.  A number has no sign but `-`,
no leading zero, and a digit on either side of a point.  A string has no raw control character
below `U+0020`, and a backslash in it starts one of eight short escapes or `\u` with four
hexadecimal digits.

`Json.Lexeme.readAll?` splits a text into its lexemes.
-/

import InfixCalc.Json.Value

namespace InfixCalc
namespace Json

/-- The four blanks of JSON. -/
def isSpace (c : Char) : Bool := c == ' ' || c == '\t' || c == '\n' || c == '\r'

/-- The value of a hexadecimal digit. -/
def hexValue? (c : Char) : Option Nat :=
  if c.isDigit then some (c.toNat - '0'.toNat)
  else if 'a' ≤ c && c ≤ 'f' then some (c.toNat - 'a'.toNat + 10)
  else if 'A' ≤ c && c ≤ 'F' then some (c.toNat - 'A'.toNat + 10)
  else none

/-- The bits that four hexadecimal digits stand for. -/
def hexBits? (a b c d : Char) : Option UInt16 :=
  match hexValue? a, hexValue? b, hexValue? c, hexValue? d with
  | some a, some b, some c, some d => some (UInt16.ofNat (((a * 16 + b) * 16 + c) * 16 + d))
  | _, _, _, _ => none

/-- The character of a short escape, named by the character after the backslash. -/
def shortEscape? : Char → Option Char
  | '"' => some '"'
  | '\\' => some '\\'
  | '/' => some '/'
  | 'b' => some '\x08'
  | 'f' => some '\x0c'
  | 'n' => some '\n'
  | 'r' => some '\r'
  | 't' => some '\t'
  | _ => none

/-- Reads a string after its opening quote, up to and with its closing quote.  The units
before are latest first. -/
def readString? (before : List StringUnit) : List Char → Option (List StringUnit × List Char)
  | [] => none
  | '"' :: rest => some (before.reverse, rest)
  | '\\' :: 'u' :: a :: b :: c :: d :: rest =>
    match hexBits? a b c d with
    | some bits => readString? (.code bits :: before) rest
    | none => none
  | '\\' :: c :: rest =>
    match shortEscape? c with
    | some escaped => readString? (.char escaped :: before) rest
    | none => none
  | c :: rest => if c.toNat < 0x20 then none else readString? (.char c :: before) rest

/-- Reads one digit or more. -/
def readDigits? (text : List Char) : Option (List Char × List Char) :=
  match text.takeWhile Char.isDigit with
  | [] => none
  | digits => some (digits, text.dropWhile Char.isDigit)

/-- Reads the digits before the point: a zero by itself, or digits that start with no zero. -/
def readWhole? : List Char → Option (List Char × List Char)
  | '0' :: rest => some (['0'], rest)
  | text => readDigits? text

/-- Reads a point and digits, if there is a point. -/
def readFraction? : List Char → Option (Option (List Char) × List Char)
  | '.' :: rest => (readDigits? rest).map fun (digits, rest) => (some digits, rest)
  | text => some (none, text)

/-- Reads the sign of an exponent, if there is one. -/
def readExponentSign : List Char → Option Char × List Char
  | '+' :: rest => (some '+', rest)
  | '-' :: rest => (some '-', rest)
  | text => (none, text)

/-- Reads an exponent, if there is one. -/
def readExponent? : List Char → Option (Option Exponent × List Char)
  | [] => some (none, [])
  | c :: rest =>
    if c == 'e' || c == 'E' then
      (readDigits? (readExponentSign rest).2).map fun (digits, after) =>
        (some ⟨c, (readExponentSign rest).1, digits⟩, after)
    else some (none, c :: rest)

/-- Reads a number without its sign. -/
def readUnsigned? (negative : Bool) (text : List Char) : Option (Number × List Char) :=
  match readWhole? text with
  | none => none
  | some (whole, text) =>
    match readFraction? text with
    | none => none
    | some (fraction, text) =>
      match readExponent? text with
      | none => none
      | some (exponent, text) => some (⟨negative, whole, fraction, exponent⟩, text)

/-- Reads a number. -/
def readNumber? : List Char → Option (Number × List Char)
  | '-' :: rest => readUnsigned? true rest
  | text => readUnsigned? false text

/-- Reads one of the three words or a number. -/
def readWordOrNumber? : List Char → Option (Scalar × List Char)
  | 'n' :: 'u' :: 'l' :: 'l' :: rest => some (.null, rest)
  | 't' :: 'r' :: 'u' :: 'e' :: rest => some (.bool true, rest)
  | 'f' :: 'a' :: 'l' :: 's' :: 'e' :: rest => some (.bool false, rest)
  | text => (readNumber? text).map fun (number, rest) => (.number number, rest)

namespace Lexeme

/-- Reads the lexeme at the start of a text. -/
def readFirst? : List Char → Option (Lexeme × List Char)
  | '{' :: rest => some (.openBrace, rest)
  | '}' :: rest => some (.closeBrace, rest)
  | '[' :: rest => some (.openBracket, rest)
  | ']' :: rest => some (.closeBracket, rest)
  | ',' :: rest => some (.comma, rest)
  | ':' :: rest => some (.colon, rest)
  | '"' :: rest =>
    (readString? [] rest).map fun (units, rest) => (.scalar (.string units), rest)
  | text => (readWordOrNumber? text).map fun (value, rest) => (.scalar value, rest)

end Lexeme

/-- To skip characters makes no text longer. -/
theorem length_dropWhile_le (p : Char → Bool) (text : List Char) :
    (text.dropWhile p).length ≤ text.length :=
  (List.dropWhile_sublist p).length_le

/-- A string takes up part of the text: at least its closing quote. -/
theorem readString?_length {before units : List StringUnit} {text rest : List Char}
    (h : readString? before text = some (units, rest)) : rest.length < text.length := by
  fun_induction readString? before text with
  | case1 => simp at h
  | case2 => simp_all
  | case3 _ _ _ _ _ _ _ _ ih => have := ih h; simp only [List.length_cons]; omega
  | case4 => simp at h
  | case5 _ _ _ _ _ _ ih => have := ih h; simp only [List.length_cons]; omega
  | case6 => simp at h
  | case7 => simp at h
  | case8 _ _ _ _ _ _ _ ih => have := ih h; simp only [List.length_cons]; omega

/-- Digits take up part of the text: at least one digit. -/
theorem readDigits?_length {text digits rest : List Char}
    (h : readDigits? text = some (digits, rest)) : rest.length < text.length := by
  unfold readDigits? at h
  cases text with
  | nil => simp at h
  | cons c text =>
    by_cases hc : c.isDigit
    · simp only [List.takeWhile_cons, hc, ↓reduceIte, List.dropWhile_cons, Option.some.injEq,
        Prod.mk.injEq] at h
      have := length_dropWhile_le Char.isDigit text
      rw [← h.2, List.length_cons]
      omega
    · simp [hc] at h

/-- The whole part of a number takes up part of the text. -/
theorem readWhole?_length {text whole rest : List Char}
    (h : readWhole? text = some (whole, rest)) : rest.length < text.length := by
  unfold readWhole? at h
  split at h
  · simp_all
  · exact readDigits?_length h

/-- A fraction, which may be absent, makes no text longer. -/
theorem readFraction?_length {text rest : List Char} {fraction : Option (List Char)}
    (h : readFraction? text = some (fraction, rest)) : rest.length ≤ text.length := by
  unfold readFraction? at h
  split at h
  · obtain ⟨⟨digits, after⟩, hd, he⟩ := Option.map_eq_some_iff.1 h
    have := readDigits?_length hd
    simp only [Prod.mk.injEq] at he
    rw [← he.2, List.length_cons]
    omega
  · simp_all

/-- The sign of an exponent, which may be absent, makes no text longer. -/
theorem length_readExponentSign_le (text : List Char) :
    (readExponentSign text).2.length ≤ text.length := by
  unfold readExponentSign
  split <;> simp

/-- An exponent, which may be absent, makes no text longer. -/
theorem readExponent?_length {text rest : List Char} {exponent : Option Exponent}
    (h : readExponent? text = some (exponent, rest)) : rest.length ≤ text.length := by
  unfold readExponent? at h
  split at h
  · simp_all
  · split at h
    · obtain ⟨⟨digits, after⟩, hd, he⟩ := Option.map_eq_some_iff.1 h
      rename_i c text _
      have hd := readDigits?_length hd
      have hs := length_readExponentSign_le text
      simp only [Prod.mk.injEq] at he
      rw [← he.2, List.length_cons]
      omega
    · simp_all

/-- A number takes up part of the text, as its whole part does. -/
theorem readUnsigned?_length {negative : Bool} {text rest : List Char} {number : Number}
    (h : readUnsigned? negative text = some (number, rest)) : rest.length < text.length := by
  unfold readUnsigned? at h
  split at h
  · simp at h
  · rename_i hw
    split at h
    · simp at h
    · rename_i hf
      split at h
      · simp at h
      · rename_i he
        have hw := readWhole?_length hw
        have hf := readFraction?_length hf
        have he := readExponent?_length he
        simp only [Option.some.injEq, Prod.mk.injEq] at h
        rw [← h.2]
        omega

/-- A number takes up part of the text, whether it has a sign or not. -/
theorem readNumber?_length {text rest : List Char} {number : Number}
    (h : readNumber? text = some (number, rest)) : rest.length < text.length := by
  unfold readNumber? at h
  split at h
  · have := readUnsigned?_length h
    rw [List.length_cons]
    omega
  · exact readUnsigned?_length h

/-- A word or a number takes up part of the text. -/
theorem readWordOrNumber?_length {text rest : List Char} {value : Scalar}
    (h : readWordOrNumber? text = some (value, rest)) : rest.length < text.length := by
  unfold readWordOrNumber? at h
  split at h
  iterate 3
    · simp only [Option.some.injEq, Prod.mk.injEq] at h
      rw [← h.2]
      simp only [List.length_cons]
      omega
  · obtain ⟨⟨number, after⟩, hn, he⟩ := Option.map_eq_some_iff.1 h
    simp only [Prod.mk.injEq] at he
    exact he.2 ▸ readNumber?_length hn

namespace Lexeme

/-- A lexeme has at least one character. -/
theorem readFirst?_length {text rest : List Char} {lexeme : Lexeme}
    (h : readFirst? text = some (lexeme, rest)) : rest.length < text.length := by
  unfold readFirst? at h
  split at h
  iterate 6
    · simp only [Option.some.injEq, Prod.mk.injEq] at h
      simp [← h.2]
  · obtain ⟨⟨units, after⟩, hs, he⟩ := Option.map_eq_some_iff.1 h
    have := readString?_length hs
    simp only [Prod.mk.injEq] at he
    rw [← he.2, List.length_cons]
    omega
  · obtain ⟨⟨value, after⟩, hv, he⟩ := Option.map_eq_some_iff.1 h
    simp only [Prod.mk.injEq] at he
    exact he.2 ▸ readWordOrNumber?_length hv

/-- Reads all lexemes of a text after those before, which are latest first. -/
def readAllAfter? (before : List Lexeme) (text : List Char) : Option (List Lexeme) :=
  if text.dropWhile isSpace = [] then some before.reverse
  else
    match _h : readFirst? (text.dropWhile isSpace) with
    | none => none
    | some (lexeme, rest) => readAllAfter? (lexeme :: before) rest
termination_by text.length
decreasing_by
  have h₁ := readFirst?_length _h
  have h₂ := length_dropWhile_le isSpace text
  omega

/-- The lexemes of a JSON text, if it has nothing but lexemes and blanks. -/
def readAll? (text : List Char) : Option (List Lexeme) := readAllAfter? [] text

end Lexeme
end Json
end InfixCalc
