/-
# Faults of a postfix sequence

Any list of tokens can be evaluated, not only one that was parsed.  What becomes of it is said here
with two runs that know of no errors: `Evaluation.depth` counts the values on the stack, and
`Evaluation.operands` says which values they are.  Where an operand is missing or a division is by
zero, they go on with some value or other; that is of no account, since only the first fault
matters.

A sequence that begins with a number has its faults at two kinds of places
(`Evaluation.FaultAt`): at a `*` or `/` with one value on the stack, and at a division by zero.  The
stack is not empty again after its first value (`Evaluation.operands_ne_nil`), so an operator finds
no value at all only at the very start.
-/

import InfixCalc.Evaluation
import Mathlib.Data.Nat.Find

namespace InfixCalc

/-- The value of an operator, some number for a division by zero. -/
def Operator.combine (op : Operator) (a b : Int32) : Int32 :=
  match op with
  | add => a + b
  | sub => a - b
  | mul => a * b
  | div => a / b

/-- Every operator combines two values, unless it divides by zero. -/
theorem Operator.combine?_eq_some {op : Operator} {a b : Int32} (h : ¬ (op = div ∧ b = 0)) :
    op.combine? a b = some (op.combine a b) := by
  cases op with
  | add | sub | mul => rfl
  | div => exact if_neg fun hb => h ⟨rfl, hb⟩

/-- A sign acts on one operand as on zero and that operand. -/
theorem Operator.applySign?_eq (op : Operator) (b : Int32) :
    op.applySign? b = if op.isSign then some (op.combine 0 b) else none := by
  cases op <;> simp [applySign?, isSign, combine]

/-- The index of the token that an error is about. -/
def EvalError.index? : EvalError → Option Nat
  | noOperand _ index | noLeftOperand _ index | divideByZero _ index => some index
  | leftover _ | empty => none

namespace Evaluation

/-- The number of values after a token: a number is one more, and an operator leaves one value for
two.  A single value stays. -/
def depthAfter (depth : Nat) : Token → Nat
  | .number _ => depth + 1
  | .operator _ => if 2 ≤ depth then depth - 1 else depth

/-- The number of values that a sequence leaves. -/
def depth (tokens : List Token) : Nat := tokens.foldl depthAfter 0

/-- The stack after a token, whether or not the token is at fault. -/
def operandsAfter (stack : List Int32) : Token → List Int32
  | .number value => value :: stack
  | .operator op =>
    match stack with
    | b :: a :: below => op.combine a b :: below
    | [b] => [op.combine 0 b]
    | [] => []

/-- The values that a sequence leaves, the latest first. -/
def operands (tokens : List Token) : List Int32 := tokens.foldl operandsAfter []

/-- The token at an index is at fault, and this is the error of it. -/
inductive FaultAt (tokens : List Token) (index : Nat) : EvalError → Prop
  | noLeftOperand {op : Operator} (hat : tokens[index]? = some (.operator op))
      (hsign : op.isSign = false) (hdepth : depth (tokens.take index) = 1) :
      FaultAt tokens index (.noLeftOperand op index)
  | divideByZero {dividend : Int32} {below : List Int32}
      (hat : tokens[index]? = some (.operator .div)) (hdepth : 2 ≤ depth (tokens.take index))
      (hzero : operands (tokens.take index) = 0 :: dividend :: below) :
      FaultAt tokens index (.divideByZero dividend index)

/-- The error of the first token that is at fault. -/
def FirstFault (tokens : List Token) (index : Nat) (e : EvalError) : Prop :=
  FaultAt tokens index e ∧ ∀ i < index, ∀ e', ¬ FaultAt tokens i e'

/-- No token is at fault. -/
def Faultless (tokens : List Token) : Prop := ∀ index e, ¬ FaultAt tokens index e

/-- The number of operands after a token depends on the number before it alone. -/
theorem length_operandsAfter (stack : List Int32) (token : Token) :
    (operandsAfter stack token).length = depthAfter stack.length token := by
  match token, stack with
  | .number _, _ | .operator _, [] | .operator _, [_] | .operator _, _ :: _ :: _ => rfl

/-- **As many values are on the stack** as the depth says. -/
theorem length_operands (tokens : List Token) : (operands tokens).length = depth tokens := by
  have hfrom : ∀ stack : List Int32,
      (tokens.foldl operandsAfter stack).length = tokens.foldl depthAfter stack.length := by
    induction tokens with
    | nil => exact fun stack => rfl
    | cons token tokens ih =>
      intro stack
      rw [List.foldl_cons, List.foldl_cons, ih, length_operandsAfter]
  exact hfrom []

/-- The operands after one token more are what this token makes of those before. -/
theorem operands_append_singleton (tokens : List Token) (token : Token) :
    operands (tokens ++ [token]) = operandsAfter (operands tokens) token := by
  rw [operands, List.foldl_append]
  rfl

/-- Where there is an operand, there is one after any token. -/
theorem operandsAfter_ne_nil {stack : List Int32} (h : stack ≠ []) (token : Token) :
    operandsAfter stack token ≠ [] := by
  match token, stack with
  | .number _, _ | .operator _, [_] | .operator _, _ :: _ :: _ => exact List.cons_ne_nil _ _
  | .operator _, [] => exact h

/-- **A stack that has held a value** is never empty again. -/
theorem operands_ne_nil (first : Int32) (rest : List Token) :
    operands (.number first :: rest) ≠ [] := by
  have hfrom : ∀ stack : List Int32, stack ≠ [] → rest.foldl operandsAfter stack ≠ [] := by
    induction rest with
    | nil => exact fun stack h => h
    | cons token rest ih => exact fun stack h => ih _ (operandsAfter_ne_nil h token)
  exact hfrom [first] (List.cons_ne_nil _ _)

section Run

variable {tokens : List Token} {index : Nat} {token : Token}

/-- A token that is not at fault is applied. -/
theorem step_of_not_faultAt (hat : tokens[index]? = some token)
    (hstack : operands (tokens.take index) ≠ []) (h : ∀ e, ¬ FaultAt tokens index e) :
    step index (operands (tokens.take index)) token =
      .ok (operandsAfter (operands (tokens.take index)) token) := by
  have hlength := length_operands (tokens.take index)
  cases token with
  | number value => rfl
  | operator op =>
    -- how an operator is applied depends on how many values there are
    match hvalues : operands (tokens.take index) with
    | [] => exact absurd hvalues hstack
    | [b] =>
      have hsign : op.isSign = true := by
        refine Bool.not_eq_false _ ▸ fun hsign => h _ (.noLeftOperand hat hsign ?_)
        rw [← hlength, hvalues, List.length_singleton]
      simp only [step, Operator.applySign?_eq, hsign, if_true, operandsAfter]
    | b :: a :: below =>
      have hcombine : op.combine? a b = some (op.combine a b) := by
        refine Operator.combine?_eq_some ?_
        rintro ⟨rfl, rfl⟩
        refine h _ (.divideByZero hat ?_ hvalues)
        rw [← hlength, hvalues]
        exact Nat.le_add_left 2 _
      simp only [step, hcombine, operandsAfter]

/-- A token that is at fault gives its error. -/
theorem step_of_faultAt {e : EvalError} (hat : tokens[index]? = some token)
    (h : FaultAt tokens index e) : step index (operands (tokens.take index)) token = .error e := by
  cases h with
  | noLeftOperand hop hsign hdepth =>
    obtain rfl := Option.some.inj (hat.symm.trans hop)
    rw [← length_operands] at hdepth
    obtain ⟨b, hvalues⟩ := List.length_eq_one_iff.1 hdepth
    simp only [hvalues, step, Operator.applySign?_eq, hsign, Bool.false_eq_true, if_false]
  | divideByZero hop _ hzero =>
    obtain rfl := Option.some.inj (hat.symm.trans hop)
    simp only [hzero, step, Operator.combine?, if_true]

variable {first : Int32} {rest : List Token}

/-- **Up to the first fault** the run leaves the values of `operands`. -/
theorem run_take_of_not_faultAt (htokens : tokens = .number first :: rest) {n : Nat}
    (hn : n ≤ tokens.length) (h : ∀ i < n, ∀ e, ¬ FaultAt tokens i e) :
    run 0 [] (tokens.take n) = .ok (operands (tokens.take n)) := by
  induction n with
  | zero => rfl
  | succ n ih =>
    obtain ⟨token, hat⟩ : ∃ token, tokens[n]? = some token :=
      ⟨tokens[n], List.getElem?_eq_getElem hn⟩
    have htake : tokens.take (n + 1) = tokens.take n ++ [token] := by
      rw [List.take_add_one, hat, Option.toList_some]
    have hlength : (tokens.take n).length = n := List.length_take_of_le (Nat.le_of_lt hn)
    have hbefore := ih (Nat.le_of_lt hn) fun i hi => h i (Nat.lt_succ_of_lt hi)
    -- the first token is a number, and after that the stack is not empty
    have hstep : step n (operands (tokens.take n)) token =
        .ok (operandsAfter (operands (tokens.take n)) token) := by
      cases n with
      | zero =>
        rw [htokens] at hat
        cases hat
        rfl
      | succ n =>
        refine step_of_not_faultAt hat ?_ (h (n + 1) (Nat.lt_succ_self _))
        rw [htokens, List.take_succ_cons]
        exact operands_ne_nil first _
    rw [htake, run_append, hbefore, hlength, Nat.zero_add, operands_append_singleton]
    simp only [run, hstep]

/-- Without a fault the run goes through. -/
theorem run_of_faultless (htokens : tokens = .number first :: rest) (h : Faultless tokens) :
    run 0 [] tokens = .ok (operands tokens) := by
  have hrun := run_take_of_not_faultAt htokens (Nat.le_refl _) fun i _ => h i
  rwa [List.take_length] at hrun

/-- **The run ends at the first fault** with the error of it. -/
theorem run_of_firstFault (htokens : tokens = .number first :: rest) {e : EvalError}
    (h : FirstFault tokens index e) : run 0 [] tokens = .error e := by
  obtain ⟨hfault, hfirst⟩ := h
  obtain ⟨token, hat⟩ : ∃ token, tokens[index]? = some token := by
    cases hfault with
    | noLeftOperand hop => exact ⟨_, hop⟩
    | divideByZero hop => exact ⟨_, hop⟩
  obtain ⟨hlt, hget⟩ := List.getElem?_eq_some_iff.1 hat
  have hlength : (tokens.take index).length = index := List.length_take_of_le (Nat.le_of_lt hlt)
  have hsplit : tokens = tokens.take index ++ token :: tokens.drop (index + 1) := by
    rw [← hget, ← List.drop_eq_getElem_cons, List.take_append_drop]
  have hbefore := run_take_of_not_faultAt htokens (Nat.le_of_lt hlt) hfirst
  rw [hsplit, run_append, hbefore, hlength, Nat.zero_add]
  simp only [run, step_of_faultAt hat hfault]

/-- A sequence that is not faultless has a first fault. -/
theorem exists_firstFault (h : ¬ Faultless tokens) : ∃ index e, FirstFault tokens index e := by
  classical
  have hexists : ∃ index, ∃ e, FaultAt tokens index e := by
    simpa only [Faultless, not_forall, not_not] using h
  obtain ⟨e, hfault⟩ := Nat.find_spec hexists
  refine ⟨Nat.find hexists, e, hfault, fun i hi e' hfault' => ?_⟩
  exact Nat.find_min hexists hi ⟨e', hfault'⟩

/-- A sequence without a fault has the one value that is left, or too many are left. -/
theorem evaluate_of_faultless (htokens : tokens = .number first :: rest) (h : Faultless tokens) :
    (∃ value, operands tokens = [value] ∧ evaluate tokens = .ok value) ∨
      (2 ≤ depth tokens ∧ evaluate tokens = .error (.leftover (depth tokens))) := by
  rw [evaluate, run_of_faultless htokens h, ← length_operands]
  match hvalues : operands tokens with
  | [] => exact absurd hvalues (htokens ▸ operands_ne_nil first rest)
  | [value] => exact .inl ⟨value, rfl, rfl⟩
  | _ :: _ :: below => exact .inr ⟨Nat.le_add_left 2 below.length, rfl⟩

/-- A sequence with a fault fails with the first of its faults. -/
theorem evaluate_of_firstFault (htokens : tokens = .number first :: rest) {e : EvalError}
    (h : FirstFault tokens index e) : evaluate tokens = .error e := by
  rw [evaluate, run_of_firstFault htokens h]

/-- **A sequence ends in one of three ways,** if it begins with a number. -/
theorem evaluate_cases (htokens : tokens = .number first :: rest) :
    (∃ index e, FirstFault tokens index e ∧ evaluate tokens = .error e) ∨
      (Faultless tokens ∧ ∃ value, operands tokens = [value] ∧ evaluate tokens = .ok value) ∨
      (Faultless tokens ∧ 2 ≤ depth tokens ∧
        evaluate tokens = .error (.leftover (depth tokens))) := by
  by_cases h : Faultless tokens
  · exact .inr ((evaluate_of_faultless htokens h).imp (⟨h, ·⟩) (⟨h, ·⟩))
  · obtain ⟨index, e, hfirst⟩ := exists_firstFault h
    exact .inl ⟨index, e, hfirst, evaluate_of_firstFault htokens hfirst⟩

/-- A fault names the index of the token that it is at. -/
theorem FaultAt.index?_eq {e : EvalError} (h : FaultAt tokens index e) : e.index? = some index := by
  cases h <;> rfl

/-- The error of a token is that of the first fault. -/
theorem evaluate_eq_error_iff_firstFault (htokens : tokens = .number first :: rest) {e : EvalError}
    (he : e.index? = some index) : evaluate tokens = .error e ↔ FirstFault tokens index e := by
  constructor
  · intro herror
    obtain ⟨i, e', hfirst, heval⟩ | ⟨-, value, -, heval⟩ | ⟨-, -, heval⟩ := evaluate_cases htokens
    · obtain rfl := Except.error.inj (herror.symm.trans heval)
      obtain rfl := Option.some.inj (he.symm.trans hfirst.1.index?_eq)
      exact hfirst
    · cases herror.symm.trans heval
    · obtain rfl := Except.error.inj (herror.symm.trans heval)
      cases he
  · exact evaluate_of_firstFault htokens

/-- Too many values are left exactly if there is no fault and more than one is counted. -/
theorem evaluate_eq_leftover_iff (htokens : tokens = .number first :: rest) {count : Nat} :
    evaluate tokens = .error (.leftover count) ↔
      Faultless tokens ∧ count = depth tokens ∧ 2 ≤ count := by
  constructor
  · intro herror
    obtain ⟨i, e, hfirst, heval⟩ | ⟨-, value, -, heval⟩ | ⟨hnone, hdepth, heval⟩ :=
      evaluate_cases htokens
    · obtain rfl := Except.error.inj (herror.symm.trans heval)
      cases hfirst.1
    · cases herror.symm.trans heval
    · cases herror.symm.trans heval
      exact ⟨hnone, rfl, hdepth⟩
  · rintro ⟨hnone, rfl, hdepth⟩
    obtain ⟨value, hvalues, -⟩ | ⟨-, heval⟩ := evaluate_of_faultless htokens hnone
    · rw [← length_operands, hvalues] at hdepth
      exact absurd hdepth (Nat.not_succ_le_self 1)
    · exact heval

/-- There is a value exactly if there is no fault and one value is left. -/
theorem evaluate_eq_ok_iff (htokens : tokens = .number first :: rest) {value : Int32} :
    evaluate tokens = .ok value ↔ Faultless tokens ∧ operands tokens = [value] := by
  constructor
  · intro hvalue
    obtain ⟨i, e, -, heval⟩ | ⟨hnone, found, hvalues, heval⟩ | ⟨-, -, heval⟩ :=
      evaluate_cases htokens
    · cases hvalue.symm.trans heval
    · cases hvalue.symm.trans heval
      exact ⟨hnone, hvalues⟩
    · cases hvalue.symm.trans heval
  · rintro ⟨hnone, hvalues⟩
    rw [evaluate, run_of_faultless htokens hnone, hvalues]
    rfl

end Run

/-- **What becomes of any list of tokens.**  The empty list is the empty sequence; an operator at
the start has no operand; otherwise the first fault is the error.  Without a fault, the values that
are left are counted, and if there is but one it is the value. -/
theorem evaluate_eq_iff (tokens : List Token) :
    (evaluate tokens = .error .empty ↔ tokens = []) ∧
    (∀ op index, evaluate tokens = .error (.noOperand op index) ↔
      tokens.head? = some (.operator op) ∧ index = 0) ∧
    (∀ first rest, tokens = .number first :: rest →
      (∀ op index, evaluate tokens = .error (.noLeftOperand op index) ↔
        FirstFault tokens index (.noLeftOperand op index)) ∧
      (∀ dividend index, evaluate tokens = .error (.divideByZero dividend index) ↔
        FirstFault tokens index (.divideByZero dividend index)) ∧
      (∀ count, evaluate tokens = .error (.leftover count) ↔
        Faultless tokens ∧ count = depth tokens ∧ 2 ≤ count) ∧
      ∀ value, evaluate tokens = .ok value ↔ Faultless tokens ∧ operands tokens = [value]) ∧
    (operands tokens).length = depth tokens := by
  refine ⟨?_, ?_, fun first rest htokens => ⟨?_, ?_, ?_, ?_⟩, length_operands tokens⟩
  · constructor
    · intro hempty
      match tokens with
      | [] => rfl
      | .operator op :: rest => cases hempty
      | .number first :: rest =>
        obtain ⟨i, e, hfirst, heval⟩ | ⟨-, value, -, heval⟩ | ⟨-, -, heval⟩ :=
          evaluate_cases (rfl : _ = Token.number first :: rest)
        · obtain rfl := Except.error.inj (hempty.symm.trans heval)
          cases hfirst.1
        · cases hempty.symm.trans heval
        · cases hempty.symm.trans heval
    · rintro rfl
      rfl
  · intro op index
    constructor
    · intro herror
      match tokens with
      | [] => cases herror
      | .operator op :: rest =>
        cases herror
        exact ⟨rfl, rfl⟩
      | .number first :: rest =>
        have hfirst := (evaluate_eq_error_iff_firstFault rfl rfl).1 herror
        cases hfirst.1
    · rintro ⟨hhead, rfl⟩
      obtain ⟨rest, rfl⟩ := List.head?_eq_some_iff.1 hhead
      rfl
  · exact fun op index => evaluate_eq_error_iff_firstFault htokens rfl
  · exact fun dividend index => evaluate_eq_error_iff_firstFault htokens rfl
  · exact fun count => evaluate_eq_leftover_iff htokens
  · exact fun value => evaluate_eq_ok_iff htokens

/-- The division is the first fault, though the product after it has no left operand either. -/
theorem firstFault_division :
    evaluate [.number 7, .operator .sub, .number 2, .number 2, .operator .sub, .operator .div,
      .operator .mul] = .error (.divideByZero (-7) 5) ∧
    FirstFault [.number 7, .operator .sub, .number 2, .number 2, .operator .sub, .operator .div,
      .operator .mul] 5 (.divideByZero (-7) 5) := by
  have herror : evaluate [.number 7, .operator .sub, .number 2, .number 2, .operator .sub,
      .operator .div, .operator .mul] = .error (.divideByZero (-7) 5) := rfl
  obtain ⟨-, -, hfaults, -⟩ := evaluate_eq_iff [.number 7, .operator .sub, .number 2, .number 2,
    .operator .sub, .operator .div, .operator .mul]
  obtain ⟨-, hdivision, -, -⟩ := hfaults 7 _ rfl
  exact ⟨herror, (hdivision (-7) 5).1 herror⟩

end Evaluation

end InfixCalc
