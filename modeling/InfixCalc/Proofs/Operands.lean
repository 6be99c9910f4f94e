/-
# Every operator finds its operands

`Evaluation.Supplied depth tokens` says, without any values, that every operator of a postfix
sequence finds two operands when the stack is `depth` high at the start.  Then it finds them in
every run (`Evaluation.Supplied.two_le`).

The postfix sequence of a tree is supplied on every stack, and leaves one value more
(`Factor.supplied_tokens` and its companions), with one exception: a sign at the start of the whole
expression.  Its operand is alone on the stack (`Expr.leading?_of_alone`).
-/

import InfixCalc.Expr.Value
import Mathlib.Data.Nat.Basic

namespace InfixCalc

namespace Evaluation

/-- On a stack of this height every operator finds two operands. -/
def Supplied (depth : Nat) : List Token → Prop
  | [] => True
  | .number _ :: tokens => Supplied (depth + 1) tokens
  | .operator _ :: tokens => 2 ≤ depth ∧ Supplied (depth - 1) tokens

/-- What is supplied stays so after a step. -/
theorem Supplied.of_step {index : Nat} {stack next : List Int32} {token : Token}
    {tokens : List Token} (h : Supplied stack.length (token :: tokens))
    (hstep : step index stack token = .ok next) : Supplied next.length tokens := by
  cases token with
  | number value =>
    cases hstep
    exact h
  | operator op =>
    obtain ⟨hle, hrest⟩ := h
    match stack with
    | [] => exact absurd hle (by decide)
    | [_] => exact absurd hle (Nat.not_succ_le_self 1)
    | b :: a :: stack =>
      simp only [step] at hstep
      split at hstep
      · cases hstep
        exact hrest
      · cases hstep

/-- **In a run of a supplied sequence** every operator finds two operands. -/
theorem Supplied.two_le {index : Nat} {stack next : List Int32} {tokens : List Token}
    (h : Supplied stack.length tokens) {i : Nat} {op : Operator}
    (hat : tokens[i]? = some (.operator op)) (hrun : run index stack (tokens.take i) = .ok next) :
    2 ≤ next.length := by
  induction tokens generalizing index stack i with
  | nil => cases hat
  | cons token tokens ih =>
    cases i with
    | zero =>
      cases hrun
      obtain rfl : token = .operator op := Option.some.inj hat
      exact h.1
    | succ i =>
      rw [List.take_succ_cons, run] at hrun
      cases hstep : step index stack token with
      | error e => rw [hstep] at hrun; cases hrun
      | ok middle =>
        rw [hstep] at hrun
        exact ih (h.of_step hstep) hat hrun

/-- Where operands are supplied, no operator finds a single value. -/
theorem Supplied.ne_singleton {index : Nat} {stack : List Int32} {tokens : List Token}
    (h : Supplied stack.length tokens) {i : Nat} {op : Operator}
    (hat : tokens[i]? = some (.operator op)) (b : Int32) :
    run index stack (tokens.take i) ≠ .ok [b] :=
  fun hrun => Nat.not_succ_le_self 1 (h.two_le hat hrun)

/-- An operator takes two values and leaves one. -/
theorem supplied_operator {depth : Nat} {op : Operator} {tokens : List Token} :
    Supplied (depth + 2) (.operator op :: tokens) ↔ Supplied (depth + 1) tokens := by
  simp [Supplied]

end Evaluation

open Evaluation

mutual

/-- **The tokens of a factor are supplied** and leave one value more. -/
theorem Factor.supplied_tokens (f : Factor) (depth : Nat) (rest : List Token) :
    Supplied depth (f.tokens ++ rest) ↔ Supplied (depth + 1) rest := by
  match f with
  | .literal l => exact Iff.rfl
  | .group inner => exact inner.supplied_groupTokens depth rest

/-- **The tokens of a term are supplied** and leave one value more. -/
theorem Term.supplied_tokens (t : Term) (depth : Nat) (rest : List Token) :
    Supplied depth (t.tokens ++ rest) ↔ Supplied (depth + 1) rest := by
  match t with
  | .factor f => exact f.supplied_tokens depth rest
  | .more left op right =>
    rw [Term.tokens, List.append_assoc, List.append_assoc, left.supplied_tokens,
      right.supplied_tokens]
    exact supplied_operator

/-- **The tokens of an expression in parentheses are supplied** and leave one value more. -/
theorem Expr.supplied_groupTokens (e : Expr) (depth : Nat) (rest : List Token) :
    Supplied depth (e.tokens true ++ rest) ↔ Supplied (depth + 1) rest := by
  match e with
  | .term t => exact t.supplied_tokens depth rest
  | .signed sign t =>
    rw [Expr.tokens, List.append_assoc, List.append_assoc]
    change Supplied (depth + 1) (t.tokens ++ ([.operator sign.operator] ++ rest)) ↔ _
    rw [t.supplied_tokens]
    exact supplied_operator
  | .more left op right =>
    rw [Expr.tokens, List.append_assoc, List.append_assoc, left.supplied_groupTokens,
      right.supplied_tokens]
    exact supplied_operator

end

/-- The sign at the start of an expression, and its term. -/
def Expr.leading? : Expr → Option (AddOp × Term)
  | .term _ => none
  | .signed sign t => some (sign, t)
  | .more left _ _ => left.leading?

/-- A sign at the start is the first lexeme. -/
theorem Expr.lexemes_of_leading? {e : Expr} {sign : AddOp} {t : Term}
    (h : e.leading? = some (sign, t)) :
    ∃ rest, e.lexemes = .operator sign.operator :: (t.lexemes ++ rest) := by
  match e with
  | .signed sign' t' =>
    cases h
    exact ⟨[], by rw [Expr.lexemes, List.append_nil]⟩
  | .more left op right =>
    obtain ⟨rest, hleft⟩ := left.lexemes_of_leading? h
    refine ⟨rest ++ .operator op.operator :: right.lexemes, ?_⟩
    rw [Expr.lexemes, hleft, List.cons_append, List.append_assoc]

/-- Without a sign at the start, parentheses make no difference. -/
theorem Expr.tokens_of_leading?_eq_none {e : Expr} (h : e.leading? = none) :
    e.tokens false = e.tokens true := by
  match e with
  | .term t => rfl
  | .more left op right => rw [Expr.tokens, Expr.tokens, left.tokens_of_leading?_eq_none h]

/-- A sign at the start comes right after its term, and the rest is supplied behind it. -/
theorem Expr.tokens_of_leading? {e : Expr} {sign : AddOp} {t : Term}
    (h : e.leading? = some (sign, t)) :
    ∃ rest, e.tokens false = t.tokens ++ .operator sign.operator :: rest ∧
      ∀ depth more, Supplied (depth + 1) (rest ++ more) ↔ Supplied (depth + 1) more := by
  match e with
  | .signed sign' t' =>
    cases h
    exact ⟨[], by simp [Expr.tokens, signOperand], fun depth more => Iff.rfl⟩
  | .more left op right =>
    obtain ⟨rest, hleft, hrest⟩ := left.tokens_of_leading? h
    refine ⟨rest ++ right.tokens ++ [.operator op.operator], ?_, fun depth more => ?_⟩
    · rw [Expr.tokens, hleft]
      simp only [List.append_assoc, List.cons_append]
    · rw [List.append_assoc, List.append_assoc, hrest, right.supplied_tokens]
      exact supplied_operator

/-- The run of a postfix sequence meets an operator at this index with one value on the stack. -/
def Evaluation.Alone (tokens : List Token) (index : Nat) : Prop :=
  ∃ op b, tokens[index]? = some (.operator op) ∧ run 0 [] (tokens.take index) = .ok [b]

/-- **Only a sign at the start has its operand alone.** -/
theorem Expr.leading?_of_alone {e : Expr} {index : Nat} (h : Alone (e.tokens false) index) :
    ∃ sign t, e.leading? = some (sign, t) ∧ index = t.tokens.length := by
  obtain ⟨op, b, hat, hrun⟩ := h
  cases hleading : e.leading? with
  | none =>
    have hs : Supplied ([] : List Int32).length (e.tokens true) := by
      rw [← List.append_nil (e.tokens true), e.supplied_groupTokens]
      trivial
    rw [e.tokens_of_leading?_eq_none hleading] at hat hrun
    exact absurd hrun (hs.ne_singleton hat b)
  | some leading =>
    obtain ⟨sign, t⟩ := leading
    refine ⟨sign, t, rfl, ?_⟩
    obtain ⟨rest, htokens, hrest⟩ := e.tokens_of_leading? hleading
    rw [htokens] at hat hrun
    rcases Nat.lt_trichotomy index t.tokens.length with hlt | heq | hgt
    · -- within the term, every operator is supplied
      have hs : Supplied ([] : List Int32).length t.tokens := by
        rw [← List.append_nil t.tokens, t.supplied_tokens]
        trivial
      rw [List.getElem?_append_left hlt] at hat
      rw [List.take_append_of_le_length (Nat.le_of_lt hlt)] at hrun
      exact absurd hrun (hs.ne_singleton hat b)
    · exact heq
    · -- behind the sign, there is a value below the operands
      obtain ⟨i, rfl⟩ : ∃ i, index = t.tokens.length + (i + 1) := ⟨index - t.tokens.length - 1,
        by omega⟩
      rw [List.getElem?_append_right (by omega), Nat.add_sub_cancel_left,
        List.getElem?_cons_succ] at hat
      rw [List.take_length_add_append, List.take_succ_cons, t.run_tokens] at hrun
      cases hvalue : t.value 0 with
      | error e => rw [hvalue] at hrun; cases hrun
      | ok v =>
        rw [hvalue, resume, run_sign] at hrun
        have hs : Supplied [sign.value 0 v].length rest := by
          have h' := (hrest 0 []).2 trivial
          rwa [List.append_nil] at h'
        exact absurd hrun (hs.ne_singleton hat b)

end InfixCalc
