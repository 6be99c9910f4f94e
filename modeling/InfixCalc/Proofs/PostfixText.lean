/-
# The text of a postfix sequence is unambiguous

A minus sign may be an operator or the first character of a number, and a sequence has any number of
tokens.  Still its text says what the tokens are.  There is no space in the text of a token, so the
text of a sequence falls apart at its spaces (`Token.splitOn_postfixText`); and what stands between
two of them is the text of one token only (`Token.text_injective`), since a symbol by itself is no
number.
-/

import InfixCalc.Proofs.Numerals
import InfixCalc.Token
import Mathlib.Data.List.Basic

namespace InfixCalc

/-- Different integers are written differently. -/
theorem Decimal.ofInt32_injective : Function.Injective ofInt32 := by
  intro m n h
  have hread := congrArg (fun text : String => readInt32? text.toList) h
  simp only [readInt32?_ofInt32] at hread
  exact Option.some.inj hread

/-- Different operators have different symbols. -/
theorem Operator.symbol_injective : Function.Injective symbol := by
  intro op op' h
  have hread := congrArg ofChar? h
  rw [ofChar?_symbol, ofChar?_symbol] at hread
  exact Option.some.inj hread

/-- A symbol by itself is no number. -/
theorem Decimal.ofInt32_ne_text (n : Int32) (op : Operator) : ofInt32 n ≠ op.text := by
  intro h
  have hread := readInt32?_ofInt32 n
  have hsymbol : readInt32? op.text.toList = none := by cases op <;> rfl
  rw [h, hsymbol] at hread
  cases hread

namespace Token

/-- **A token is known by its text.** -/
theorem text_injective : Function.Injective text := by
  intro first second h
  cases first with
  | number m =>
    cases second with
    | number n => exact congrArg number (Decimal.ofInt32_injective h)
    | operator op => exact absurd h (Decimal.ofInt32_ne_text m op)
  | operator op =>
    cases second with
    | number n => exact absurd h.symm (Decimal.ofInt32_ne_text n op)
    | operator op' =>
      exact congrArg operator (Operator.symbol_injective (String.singleton_inj.1 h))

/-- No token is written with a space. -/
theorem space_notMem_text (token : Token) : ' ' ∉ token.text.toList := by
  intro h
  cases token with
  | number n => exact absurd (Decimal.of_mem_ofInt32 h) (by decide)
  | operator op => cases op <;> exact absurd h (by decide)

/-- Every token is written with some character. -/
theorem text_ne_empty (token : Token) : token.text ≠ "" := by
  cases token with
  | number n =>
    intro h
    have hread := Decimal.readInt32?_ofInt32 n
    rw [text] at h
    rw [h] at hread
    cases hread
  | operator op => cases op <;> decide

/-- **The text of a sequence falls apart at its spaces** into the texts of its tokens. -/
theorem splitOn_postfixText (token : Token) (tokens : List Token) :
    (postfixText (token :: tokens)).toList.splitOn ' ' =
      (token :: tokens).map fun token => token.text.toList := by
  have hspace : ∀ piece ∈ (token :: tokens).map fun token => token.text.toList, ' ' ∉ piece := by
    intro piece hpiece
    obtain ⟨token, -, rfl⟩ := List.mem_map.1 hpiece
    exact token.space_notMem_text
  rw [postfixText, String.toList_intercalate, List.map_map]
  exact List.splitOn_intercalate ' ' hspace (List.cons_ne_nil _ _)

/-- A sequence with a token is written with some character. -/
theorem postfixText_cons_ne_empty (token : Token) (tokens : List Token) :
    postfixText (token :: tokens) ≠ "" := by
  intro h
  have hsplit := splitOn_postfixText token tokens
  rw [h, List.map_cons] at hsplit
  have hempty : token.text.toList = [] := (List.cons.inj hsplit).1.symm
  exact token.text_ne_empty (String.toList_eq_nil_iff.1 hempty)

/-- **Different sequences are written differently.** -/
theorem postfixText_injective : Function.Injective postfixText := by
  intro first second h
  cases first with
  | nil =>
    cases second with
    | nil => rfl
    | cons token tokens => exact absurd h.symm (postfixText_cons_ne_empty token tokens)
  | cons token tokens =>
    cases second with
    | nil => exact absurd h (postfixText_cons_ne_empty token tokens)
    | cons token' tokens' =>
      have hpieces := splitOn_postfixText token tokens
      rw [h, splitOn_postfixText] at hpieces
      have htext : Function.Injective fun token : Token => token.text.toList :=
        fun _ _ heq => text_injective (String.toList_inj.1 heq)
      exact (List.map_injective_iff.2 htext hpieces).symm

/-- **The text of a postfix sequence is unambiguous.**  Different sequences have different texts,
only the empty sequence has the empty text, and any other text falls apart at its spaces into the
texts of the tokens in order. -/
theorem postfixText_unambiguous :
    (∀ first second : List Token, postfixText first = postfixText second ↔ first = second) ∧
    (∀ tokens : List Token, postfixText tokens = "" ↔ tokens = []) ∧
    ∀ (token : Token) (tokens : List Token),
      (postfixText (token :: tokens)).toList.splitOn ' ' =
        (token :: tokens).map fun token => token.text.toList := by
  have hempty : postfixText [] = "" := rfl
  refine ⟨fun first second => postfixText_injective.eq_iff, fun tokens => ?_, splitOn_postfixText⟩
  rw [← hempty, postfixText_injective.eq_iff]

end Token
end InfixCalc
