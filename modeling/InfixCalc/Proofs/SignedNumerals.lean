/-
# Numbers as expressions

The least expressions are numbers: a literal with a sign or without one, with blanks around both.
Such a text has the number as its value (`SignedNumeral.calculate_of_le`), however many zeros its
literal starts with.  A literal whose value passes the limit is an error as a whole, whatever its
sign and whatever comes behind it (`SignedNumeral.calculate_of_lt`).

The limit is that of literals without a sign.  So every 32-bit integer can be written but the least
one, whose magnitude is one too large.
-/

import InfixCalc.Proofs.Exact
import InfixCalc.Proofs.Numerals
import InfixCalc.Proofs.Refusal

namespace InfixCalc

namespace Decimal

/-- The digits of the decimal text of an integer. -/
def magnitude (n : Int32) : List Char := (splitSign (ofInt32 n).toList).2

/-- The magnitude of an integer is written with the digits of its absolute value. -/
theorem magnitude_eq (n : Int32) : magnitude n = Nat.toDigits 10 n.toInt.natAbs := by
  rcases Int.lt_or_le n.toInt 0 with hneg | hnonneg
  · rw [magnitude, toList_ofInt32_of_neg hneg, show (-n.toInt).toNat = n.toInt.natAbs by omega]
    rfl
  · have hdigits : ∀ c ∈ Nat.toDigits 10 n.toInt.toNat, c.isDigit :=
      fun c => isDigit_of_mem_toDigits
    rw [magnitude, toList_ofInt32_of_nonneg hnonneg, splitSign_of_isDigit hdigits,
      show n.toInt.toNat = n.toInt.natAbs by omega]

/-- Zeros in front do not matter. -/
theorem value_zeros_append (zeros : Nat) (digits : List Char) :
    value (List.replicate zeros '0' ++ digits) = value digits := by
  have hzeros : value (List.replicate zeros '0') = 0 := by
    induction zeros with
    | zero => rfl
    | succ zeros ih =>
      rw [List.replicate_succ, value, List.foldl_cons]
      exact ih
  rw [value, List.foldl_append]
  exact congrArg (digits.foldl withDigit) hzeros

end Decimal

/-- A literal as an expression: with a sign or without one, and with blanks before both. -/
structure SignedNumeral where
  /-- The blanks in front. -/
  front : List Char
  sign? : Option AddOp
  /-- The blanks before the literal. -/
  gap : List Char
  first : Char
  more : List Char
  isBlank_front : ∀ c ∈ front, Text.isBlank c
  isBlank_gap : ∀ c ∈ gap, Text.isBlank c
  isDigit : ∀ c ∈ first :: more, c.isDigit

namespace SignedNumeral

/-- The digits of the literal. -/
def digits (numeral : SignedNumeral) : List Char := numeral.first :: numeral.more

/-- What stands before the literal. -/
def start (numeral : SignedNumeral) : List Char :=
  numeral.front ++ numeral.sign?.toList.map (·.operator.symbol) ++ numeral.gap

/-- The expression, with more characters behind it. -/
def text (numeral : SignedNumeral) (behind : List Char) : String :=
  String.ofList (numeral.start ++ (numeral.digits ++ behind))

/-- The error of a literal that is too large. -/
def overflow (numeral : SignedNumeral) : CalcError :=
  .parse (.overflow (String.ofList numeral.digits) numeral.start.length)

/-- The value over the integers. -/
def exact (numeral : SignedNumeral) : Int :=
  match numeral.sign? with
  | some .minus => -Decimal.value numeral.digits
  | _ => Decimal.value numeral.digits

/-- The numeral is a way to write the integer: its sign fits, and its digits are those of the
decimal text, perhaps with zeros in front. -/
def Writes (numeral : SignedNumeral) (n : Int32) : Prop :=
  (match numeral.sign? with
    | some .minus => n.toInt ≤ 0
    | _ => 0 ≤ n.toInt) ∧
  ∃ zeros, numeral.digits = List.replicate zeros '0' ++ Decimal.magnitude n

variable {numeral : SignedNumeral} {behind : List Char}

/-- The digits of a numeral are read as the absolute value. -/
theorem Writes.value_eq {n : Int32} (h : numeral.Writes n) :
    Decimal.value numeral.digits = n.toInt.natAbs := by
  obtain ⟨-, zeros, hdigits⟩ := h
  rw [hdigits, Decimal.value_zeros_append, Decimal.magnitude_eq, Decimal.value_toDigits]

/-- With its sign, a numeral is read as the integer. -/
theorem Writes.exact_eq {n : Int32} (h : numeral.Writes n) : numeral.exact = n.toInt := by
  have hvalue := h.value_eq
  have hsign := h.1
  unfold exact
  split at hsign
  · rw [hvalue]
    omega
  · rw [hvalue]
    omega

/-- What stands before the literal is a sign at most. -/
theorem spells_start (numeral : SignedNumeral) {text : List Char} {lexemes : List Lexeme}
    (h : Lexeme.Spells text lexemes) :
    Lexeme.Spells (numeral.start ++ text)
      (numeral.sign?.toList.map (.operator ·.operator) ++ lexemes) := by
  have hgap := h.blanks_append numeral.isBlank_gap
  have hsigned : Lexeme.Spells
      (numeral.sign?.toList.map (·.operator.symbol) ++ (numeral.gap ++ text))
      (numeral.sign?.toList.map (.operator ·.operator) ++ lexemes) := by
    cases numeral.sign? with
    | none => exact hgap
    | some sign => exact @Lexeme.Spells.lexeme (.operator sign.operator) _ _ trivial trivial hgap
  rw [start, List.append_assoc, List.append_assoc]
  exact hsigned.blanks_append numeral.isBlank_front

/-- No digit stands before the literal. -/
theorem not_isDigit_of_mem_start (numeral : SignedNumeral) : ∀ c ∈ numeral.start, ¬ c.isDigit := by
  have hblank {c : Char} (hc : Text.isBlank c) : ¬ c.isDigit := by
    intro hdigit
    rw [CharClass.isBlank_of_isDigit hdigit] at hc
    cases hc
  intro c hc
  simp only [start, List.mem_append, List.mem_map] at hc
  obtain (hfront | ⟨sign, -, rfl⟩) | hgap := hc
  · exact hblank (numeral.isBlank_front c hfront)
  · cases sign <;> decide
  · exact hblank (numeral.isBlank_gap c hgap)

/-- The expression that a numeral is, if its literal is not too large. -/
def toExpr (numeral : SignedNumeral) (h : Decimal.value numeral.digits ≤ Decimal.int32Max) : Expr :=
  let term := .factor (.literal ⟨numeral.first, numeral.more, h⟩)
  match numeral.sign? with
  | none => .term term
  | some sign => .signed sign term

/-- A numeral that fits is an expression. -/
theorem derives_toExpr (h : Decimal.value numeral.digits ≤ Decimal.int32Max)
    (hbehind : ∀ c ∈ behind, Text.isBlank c) :
    (numeral.toExpr h).Derives (numeral.text behind).toList := by
  have hend : Lexeme.MayEndBefore behind (.literal numeral.first numeral.more) := by
    intro c hc hdigit
    have hblank := hbehind c (List.mem_of_mem_head? hc)
    rw [CharClass.isBlank_of_isDigit hdigit] at hblank
    cases hblank
  have hnil : Lexeme.Spells behind [] := by
    simpa using Lexeme.Spells.nil.blanks_append hbehind
  have hliteral : Lexeme.Spells (numeral.digits ++ behind)
      [.literal numeral.first numeral.more] :=
    @Lexeme.Spells.lexeme (.literal numeral.first numeral.more) _ _ numeral.isDigit hend hnil
  have htext := numeral.spells_start hliteral
  rw [text, String.toList_ofList, Expr.Derives, toExpr]
  cases hsign : numeral.sign? <;> rwa [hsign] at htext

/-- The exact value of that expression is the integer of the numeral. -/
theorem exact_toExpr (h : Decimal.value numeral.digits ≤ Decimal.int32Max) :
    (numeral.toExpr h).exact = numeral.exact := by
  unfold toExpr exact
  rcases numeral.sign? with _ | _ | _
  · rfl
  · exact Int.zero_add _
  · exact Int.zero_sub _

/-- **A numeral has its value** if its literal is not too large. -/
theorem calculate_of_le (h : Decimal.value numeral.digits ≤ Decimal.int32Max)
    (hbehind : ∀ c ∈ behind, Text.isBlank c) :
    calculate (some (numeral.text behind)) = .ok (Int32.ofInt numeral.exact) := by
  have hexact : (numeral.toExpr h).DividesExactly := by
    unfold toExpr
    cases numeral.sign? <;> trivial
  rw [(derives_toExpr h hbehind).calculate_eq_exact hexact, exact_toExpr]

/-- Behind what stands before the literal an operand may come next. -/
theorem exists_draft_of_start (numeral : SignedNumeral) :
    ∃ draft, Draft.start.run (Lexeme.read numeral.start) = .ok draft ∧ draft.factor? = none := by
  have hread : (Lexeme.read (numeral.start ++ [])).map Placed.lexeme = _ :=
    Lexeme.spells_iff.1 (numeral.spells_start Lexeme.Spells.nil)
  rw [List.append_nil, List.append_nil] at hread
  cases hsign : numeral.sign? with
  | none =>
    rw [hsign] at hread
    rw [List.map_eq_nil_iff.1 hread]
    exact ⟨Draft.start, rfl, rfl⟩
  | some sign =>
    rw [hsign] at hread
    obtain ⟨⟨lexeme, position⟩, hread, hlexeme⟩ := List.map_eq_singleton_iff.1 hread
    obtain rfl : lexeme = .operator sign.operator := hlexeme
    rw [hread]
    exact ⟨⟨[], ⟨.sign sign, .empty⟩, none⟩, by cases sign <;> rfl, rfl⟩

/-- **A numeral that is too large** is an error at its literal, whatever comes behind it. -/
theorem calculate_of_lt (h : Decimal.int32Max < Decimal.value numeral.digits)
    (hbehind : ∀ c ∈ behind.head?, ¬ c.isDigit) :
    calculate (some (numeral.text behind)) = .error numeral.overflow := by
  have hstart : ∀ c ∈ numeral.start.getLast?, ¬ c.isDigit :=
    fun c hc => numeral.not_isDigit_of_mem_start c (List.mem_of_getLast? hc)
  have hblank : ¬ (numeral.text behind).toList.all Text.isBlank := by
    intro hall
    rw [text, String.toList_ofList] at hall
    have hfirst := List.all_eq_true.1 hall numeral.first (by simp [digits])
    rw [CharClass.isBlank_of_isDigit (numeral.isDigit _ List.mem_cons_self)] at hfirst
    cases hfirst
  obtain ⟨draft, hrun, hnone⟩ := numeral.exists_draft_of_start
  have hparse : parse (numeral.text behind) =
      .error (.overflow (String.ofList numeral.digits) numeral.start.length) := by
    rw [parse_eq, if_neg hblank, postfixOf_eq, text, String.toList_ofList, digits,
      Lexeme.read_digits numeral.isDigit hstart hbehind, Draft.run_append_of_ok hrun, Draft.run,
      Draft.step_literal_of_lt hnone h]
  rw [calculate_eq, hparse]
  rfl

/-- **The decimal text of an integer** is one of the numerals that write it. -/
theorem exists_writes (n : Int32) :
    ∃ numeral : SignedNumeral, numeral.Writes n ∧ numeral.text [] = Decimal.ofInt32 n := by
  have hne : Decimal.magnitude n ≠ [] := Decimal.magnitude_eq n ▸ Nat.toDigits_ne_nil
  obtain ⟨first, more, hmagnitude⟩ := List.exists_cons_of_ne_nil hne
  have hdigit : ∀ c ∈ first :: more, c.isDigit := by
    rw [← hmagnitude, Decimal.magnitude_eq]
    exact fun c => Decimal.isDigit_of_mem_toDigits
  have hnil : ∀ c ∈ ([] : List Char), Text.isBlank c := fun c hc => by cases hc
  rw [Decimal.magnitude_eq] at hmagnitude
  rcases Int.lt_or_le n.toInt 0 with hneg | hnonneg
  · refine ⟨⟨[], some .minus, [], first, more, hnil, hnil, hdigit⟩, ⟨Int.le_of_lt hneg, 0, ?_⟩, ?_⟩
    · rw [digits, Decimal.magnitude_eq, hmagnitude]
      rfl
    · rw [← String.toList_inj, Decimal.toList_ofInt32_of_neg hneg,
        show (-n.toInt).toNat = n.toInt.natAbs by omega, hmagnitude]
      simp [text, start, digits, AddOp.operator, Operator.symbol]
  · refine ⟨⟨[], none, [], first, more, hnil, hnil, hdigit⟩, ⟨hnonneg, 0, ?_⟩, ?_⟩
    · rw [digits, Decimal.magnitude_eq, hmagnitude]
      rfl
    · rw [← String.toList_inj, Decimal.toList_ofInt32_of_nonneg hnonneg,
        show n.toInt.toNat = n.toInt.natAbs by omega, hmagnitude]
      simp [text, start, digits]

/-- **Numbers as expressions.**  Every 32-bit integer but the least one is the value of its decimal
text, whatever zeros stand before its digits and whatever blanks around the literal and its sign.  A
literal whose value passes the limit is an error, which names the whole literal and where it starts;
so the least integer cannot be written. -/
theorem calculate_signed :
    (∀ n : Int32, ∃ numeral : SignedNumeral,
      numeral.Writes n ∧ numeral.text [] = Decimal.ofInt32 n) ∧
    ∀ (numeral : SignedNumeral) (behind : List Char),
      (∀ n : Int32, n ≠ Int32.minValue → numeral.Writes n → (∀ c ∈ behind, Text.isBlank c) →
        calculate (some (numeral.text behind)) = .ok n) ∧
      (Decimal.int32Max < Decimal.value numeral.digits → (∀ c ∈ behind.head?, ¬ c.isDigit) →
        calculate (some (numeral.text behind)) = .error numeral.overflow) ∧
      (numeral.Writes Int32.minValue → (∀ c ∈ behind.head?, ¬ c.isDigit) →
        calculate (some (numeral.text behind)) = .error numeral.overflow) := by
  refine ⟨exists_writes, fun numeral behind => ⟨fun n hn hwrites hbehind => ?_, calculate_of_lt,
    fun hwrites hbehind => ?_⟩⟩
  · have hle : Decimal.value numeral.digits ≤ Decimal.int32Max := by
      -- only the least integer has a magnitude above the largest literal
      have hmin : n.toInt ≠ Int32.minValue.toInt := fun h => hn (Int32.toInt_inj.1 h)
      have hlower : -2 ^ 31 ≤ n.toInt := Int32.le_toInt n
      have hupper : n.toInt < 2 ^ 31 := Int32.toInt_lt n
      rw [Int32.toInt_minValue] at hmin
      rw [hwrites.value_eq]
      unfold Decimal.int32Max
      omega
    rw [calculate_of_le hle hbehind, hwrites.exact_eq, Int32.ofInt_toInt]
  · refine calculate_of_lt ?_ hbehind
    rw [hwrites.value_eq]
    decide

/-- The blanks and zeros of the first text do not matter.  The second is the least integer, and what
comes behind its literal is not looked at. -/
theorem calculate_signed_bounds :
    calculate (some "\u3000-\t002147483647 ") = .ok (-2147483647) ∧
      calculate (some "-02147483648)") = .error (.parse (.overflow "02147483648" 1)) := by
  let greatest : SignedNumeral := ⟨['\u3000'], some .minus, ['\t'], '0', "02147483647".toList,
    List.forall_mem_singleton.2 (by decide), List.forall_mem_singleton.2 (by decide),
    List.all_eq_true.1 (by decide)⟩
  let least : SignedNumeral := ⟨[], some .minus, [], '0', "2147483648".toList,
    List.forall_mem_nil _, List.forall_mem_nil _, List.all_eq_true.1 (by decide)⟩
  have hgreatest : greatest.Writes (-2147483647) := ⟨by decide, 2, by decide⟩
  have hleast : least.Writes Int32.minValue := ⟨by decide, 1, by decide⟩
  have hparen : ∀ c ∈ [')'].head?, ¬ c.isDigit := by
    rintro c hc
    cases hc
    decide
  have hvalue := (calculate_signed.2 greatest [' ']).1 (-2147483647) (by decide) hgreatest
    (List.forall_mem_singleton.2 (by decide))
  have hoverflow := (calculate_signed.2 least [')']).2.2 hleast hparen
  exact ⟨hvalue, hoverflow⟩

end SignedNumeral
end InfixCalc
