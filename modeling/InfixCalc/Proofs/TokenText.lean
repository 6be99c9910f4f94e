/-
# Tokens that are written and read in JSON

A token is read back from its JSON value (`Token.ofJson?_toJson`), for every 32-bit integer, the
least one included, and for every operator.  The lexemes of that value are written in a way in which
they are read back, so a list of tokens is read from its compact text and from any other text that
has blanks between the same lexemes (`Token.listOfJson?_listJson`).
-/

import InfixCalc.Proofs.JsonTexts
import InfixCalc.Token.Json

namespace InfixCalc

namespace Json

/-- **A 32-bit integer is read back from its number.** -/
theorem int32?_ofInt (n : Int32) :
    int32? (scalar (.number (Number.ofInt n.toInt))) = some n := by
  have hlt : n.toInt < 2 ^ 31 := Int32.toInt_lt n
  have hle : -2 ^ 31 ≤ n.toInt := Int32.le_toInt n
  simp only [int32?, Number.integer?_ofInt]
  rcases Int.lt_or_le n.toInt 0 with hneg | hnonneg
  · have hmagnitude : n.toInt.natAbs ≤ Decimal.int32Max + 1 := by unfold Decimal.int32Max; omega
    rw [decide_eq_true hneg, Decimal.int32OfDigits?_toDigits_negative hmagnitude,
      Int.ofNat_natAbs_of_nonpos (Int.le_of_lt hneg), Int.neg_neg, Int32.ofInt_toInt]
  · have hmagnitude : n.toInt.natAbs ≤ Decimal.int32Max := by unfold Decimal.int32Max; omega
    rw [decide_eq_false (Int.not_lt.2 hnonneg), Decimal.int32OfDigits?_toDigits hmagnitude,
      Int.natAbs_of_nonneg hnonneg, Int32.ofInt_toInt]

/-- An operator is read back from its name. -/
theorem operator?_unitsOf (op : Operator) :
    operator? (scalar (.string (unitsOf op.name))) = some op := by
  simp only [operator?, decode?_unitsOf, Operator.ofName?_name]

end Json

namespace Token

/-- **A token is read back from its JSON value.** -/
theorem ofJson?_toJson (token : Token) : ofJson? token.toJson = some token := by
  cases token with
  | number n =>
    simp only [toJson, ofJson?, Json.decode?_unitsOf, Json.int32?_ofInt, Option.map_some]
  | operator op =>
    simp only [toJson, ofJson?, Json.decode?_unitsOf, Json.operator?_unitsOf, Option.map_some]

/-- Tokens are read back from their JSON values, after those that have been read before. -/
theorem listOfJsonAfter?_map_toJson (before tokens : List Token) :
    listOfJsonAfter? before (tokens.map toJson) = some (before.reverse ++ tokens) := by
  induction tokens generalizing before with
  | nil => rw [List.map_nil, listOfJsonAfter?, List.append_nil]
  | cons token tokens ih =>
    rw [List.map_cons, listOfJsonAfter?, ofJson?_toJson]
    simp only [ih, List.reverse_cons, List.append_assoc]
    rfl

/-- The tokens are read if their JSON value is. -/
theorem listOfJson?_of_ofText? {text : String} {tokens : List Token}
    (h : Json.ofText? text = some (.array (tokens.map toJson))) :
    listOfJson? text = some tokens := by
  simp only [listOfJson?, h, listOfJsonAfter?_map_toJson]
  rfl

/-- The JSON value of a token can be written. -/
theorem written_toJson (token : Token) : token.toJson.Written := by
  have hnumber : ∀ c ∈ "Number".toList, Json.isPlain c := List.all_eq_true.1 (by decide)
  have hoperator : ∀ c ∈ "Operator".toList, Json.isPlain c := List.all_eq_true.1 (by decide)
  cases token with
  | number n =>
    refine Json.written_object.2 (List.forall_mem_singleton.2 ⟨?_, Json.written_scalar.2 ?_⟩)
    · exact Json.Lexeme.readsBack_unitsOf hnumber
    · exact Json.Lexeme.readsBack_ofInt n.toInt
  | operator op =>
    have hname : ∀ c ∈ op.name.toList, Json.isPlain c :=
      List.all_eq_true.1 (by cases op <;> decide)
    refine Json.written_object.2 (List.forall_mem_singleton.2 ⟨?_, Json.written_scalar.2 ?_⟩)
    · exact Json.Lexeme.readsBack_unitsOf hoperator
    · exact Json.Lexeme.readsBack_unitsOf hname

/-- The JSON value of tokens can be written. -/
theorem written_tokens (tokens : List Token) : (Json.array (tokens.map toJson)).Written := by
  refine Json.written_array.2 fun json hjson => ?_
  obtain ⟨token, -, rfl⟩ := List.mem_map.1 hjson
  exact token.written_toJson

/-- **A postfix sequence is read back from its JSON text.**  The text is the lexemes of the list one
after another, and any blanks before, between and after them make no difference. -/
theorem listOfJson?_listJson (tokens : List Token) :
    let pieces := (Json.array (tokens.map toJson)).lexemes.map Json.Lexeme.chars
    (listJson tokens).toList = pieces.flatten ∧
      listOfJson? (listJson tokens) = some tokens ∧
      ∀ text : String, Json.Spaced pieces text.toList → listOfJson? text = some tokens := by
  intro pieces
  refine ⟨?_, ?_, fun text hspaced => ?_⟩
  · rw [listJson, Json.compact, String.toList_ofList, List.flatMap_def]
  · exact listOfJson?_of_ofText? (written_tokens tokens).ofText?_compact
  · exact listOfJson?_of_ofText? ((written_tokens tokens).ofText?_spaced hspaced)

/-- The least integer and an operator, with blanks of every kind. -/
theorem listOfJson?_least_spaced :
    listOfJson?
        "[ \x7b\"Number\" :\t-2147483648\x7d ,\r\n\x7b \"Operator\":\"Sub\"\x7d ] " =
      some [.number (-2147483648), .operator .sub] := by
  refine (listOfJson?_listJson [.number (-2147483648), .operator .sub]).2.2 _
    (Json.spaced_of_isSpaced ?_)
  simp only [toJson, Json.lexemes_array, Json.lexemes_object, Json.memberLexemes,
    Json.lexemes_scalar, List.map_cons, List.map_nil, List.intercalate_cons_cons,
    List.intercalate_singleton, List.cons_append, List.nil_append]
  decide

end Token
end InfixCalc
