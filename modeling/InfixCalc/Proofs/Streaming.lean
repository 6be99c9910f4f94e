/-
# Evaluation as a stream

What a sequence still has to do depends only on the values that are on the stack.  So two
sequences that leave the same values may stand for each other in front of whatever follows
(`Evaluation.evaluate_append_of_run`): only the index of a later error tells them apart.  A
sequence with a value may stand for that value, and a sequence that has failed at a token has
failed for good.

In the middle of a stream it is not enough that a sequence has a value.  A sign that has its
operand alone finds a second one there, and takes it.  If there is no such sign, the sequence
leaves what is below it untouched (`Evaluation.run_above`), and it too may stand for its value.
-/

import InfixCalc.Proofs.Faults
import InfixCalc.Proofs.Operands
import InfixCalc.Proofs.Shift

namespace InfixCalc

/-- The index of an error that is counted from later on is greater by as much. -/
theorem EvalError.index?_shift (later : Nat) (e : EvalError) :
    (e.shift later).index? = e.index?.map (· + later) := by
  cases e <;> rfl

namespace Evaluation

/-- The value of a sequence that goes on from a stack, its first token at `index`. -/
def evaluateFrom (index : Nat) (stack : List Int32) (tokens : List Token) :
    Except EvalError Int32 :=
  match run index stack tokens with
  | .ok stack => result stack
  | .error e => .error e

/-- In the run from this stack no operator meets a single value. -/
def NeverAlone (index : Nat) (stack : List Int32) (tokens : List Token) : Prop :=
  ∀ i op b, tokens[i]? = some (.operator op) → run index stack (tokens.take i) ≠ .ok [b]

variable {first second rest : List Token} {stack next : List Int32} {index : Nat}

section Continuing

/-- The error of what is left at the end is not about a token. -/
theorem mapError_shift_result (later : Nat) (stack : List Int32) :
    (result stack).mapError (.shift later) = result stack := by
  match stack with
  | [] | [_] | _ :: _ :: _ => rfl

/-- **A later start** changes a value only by the index of an error. -/
theorem evaluateFrom_add (index later : Nat) (stack : List Int32) (tokens : List Token) :
    evaluateFrom (index + later) stack tokens =
      (evaluateFrom index stack tokens).mapError (.shift later) := by
  rw [evaluateFrom, evaluateFrom, run_add]
  cases run index stack tokens with
  | ok left => exact (mapError_shift_result later left).symm
  | error e => rfl

/-- A sequence is evaluated from the stack that its first part leaves. -/
theorem evaluate_append (hrun : run 0 [] first = .ok stack) (rest : List Token) :
    evaluate (first ++ rest) = evaluateFrom first.length stack rest := by
  have hsplit : run 0 [] (first ++ rest) = run first.length stack rest := by
    rw [run_append, hrun]
    exact congrArg (run · stack rest) (Nat.zero_add first.length)
  rw [evaluate, hsplit]
  rfl

/-- **Two sequences that leave the same values** may stand for each other before any others. -/
theorem evaluate_append_of_run (hfirst : run 0 [] first = .ok stack)
    (hsecond : run 0 [] second = .ok stack) (hle : second.length ≤ first.length)
    (rest : List Token) :
    evaluate (first ++ rest) =
      (evaluate (second ++ rest)).mapError (.shift (first.length - second.length)) := by
  have hlength : first.length = second.length + (first.length - second.length) := by omega
  rw [evaluate_append hfirst, evaluate_append hsecond, ← evaluateFrom_add, ← hlength]

/-- The index of an error is beyond the tokens that have been run. -/
theorem length_le_of_evaluate_append (hrun : run 0 [] first = .ok stack) {e : EvalError}
    (herror : evaluate (first ++ rest) = .error e) (hindex : e.index? = some index) :
    first.length ≤ index := by
  have hshift := evaluateFrom_add 0 first.length stack rest
  rw [Nat.zero_add, ← evaluate_append hrun, herror] at hshift
  cases hstart : evaluateFrom 0 stack rest with
  | ok value =>
    rw [hstart] at hshift
    cases hshift
  | error cause =>
    rw [hstart] at hshift
    obtain rfl := Except.error.inj hshift
    rw [EvalError.index?_shift] at hindex
    obtain ⟨i, -, rfl⟩ := Option.map_eq_some_iff.1 hindex
    exact Nat.le_add_left first.length i

/-- A sequence has a value if its run leaves just that. -/
theorem evaluate_eq_ok_iff_run {tokens : List Token} {value : Int32} :
    evaluate tokens = .ok value ↔ run 0 [] tokens = .ok [value] := by
  rw [evaluate]
  cases run 0 [] tokens with
  | error e => exact iff_of_false (fun h => by cases h) fun h => by cases h
  | ok left =>
    rcases left with _ | ⟨found, _ | ⟨second, more⟩⟩
    · exact iff_of_false (fun h => by cases h) fun h => by cases h
    · have hresult : result [found] = .ok found := rfl
      constructor
      · intro h
        rw [Except.ok.inj (hresult.symm.trans h)]
      · intro h
        obtain rfl : found = value := List.singleton_inj.1 (Except.ok.inj h)
        exact hresult
    · exact iff_of_false (fun h => by cases h) fun h => by cases h

/-- The error of a token is an error of the run. -/
theorem run_eq_error {tokens : List Token} {e : EvalError} (herror : evaluate tokens = .error e)
    (hindex : e.index? = some index) : run 0 [] tokens = .error e := by
  rw [evaluate] at herror
  cases hrun : run 0 [] tokens with
  | error cause =>
    rw [hrun] at herror
    exact congrArg Except.error (Except.error.inj herror)
  | ok left =>
    rw [hrun] at herror
    rcases left with _ | ⟨found, _ | ⟨second, more⟩⟩
    · cases herror
      cases hindex
    · cases herror
    · cases herror
      cases hindex

/-- **A run that fails** fails in the same way whatever follows. -/
theorem evaluate_append_of_error {e : EvalError} (herror : run 0 [] first = .error e)
    (rest : List Token) : evaluate (first ++ rest) = .error e := by
  rw [evaluate, run_append, herror]

end Continuing

section Above

/-- Where no operator of a sequence meets a single value, none of the rest does after the first
step. -/
theorem NeverAlone.of_step {token : Token} {tokens : List Token}
    (h : NeverAlone index stack (token :: tokens)) (hstep : step index stack token = .ok next) :
    NeverAlone (index + 1) next tokens := by
  intro i op b hat hrun
  refine h (i + 1) op b hat ?_
  rw [List.take_succ_cons, run, hstep]
  exact hrun

/-- **One token** leaves what lies below its operands untouched. -/
theorem step_above {token : Token} (halone : ∀ op b, token = .operator op → stack ≠ [b])
    (hstep : step index stack token = .ok next) (below : List Int32) :
    step index (stack ++ below) token = .ok (next ++ below) := by
  match token, stack with
  | .number value, stack =>
    cases hstep
    rfl
  | .operator op, [] => cases hstep
  | .operator op, [b] => exact absurd rfl (halone op b rfl)
  | .operator op, b :: a :: stack =>
    simp only [step] at hstep
    simp only [List.cons_append, step]
    cases hvalue : op.combine? a b with
    | none =>
      rw [hvalue] at hstep
      cases hstep
    | some value =>
      rw [hvalue] at hstep
      cases hstep
      rfl

/-- **A run in which no operator meets a single value** leaves what is below untouched. -/
theorem run_above {tokens : List Token} (halone : NeverAlone index stack tokens)
    (hrun : run index stack tokens = .ok next) (below : List Int32) :
    run index (stack ++ below) tokens = .ok (next ++ below) := by
  induction tokens generalizing index stack with
  | nil =>
    cases hrun
    rfl
  | cons token tokens ih =>
    rw [run] at hrun ⊢
    cases hstep : step index stack token with
    | error e =>
      rw [hstep] at hrun
      cases hrun
    | ok middle =>
      rw [hstep] at hrun
      have hsingle : ∀ op b, token = .operator op → stack ≠ [b] := by
        rintro op b rfl rfl
        exact halone 0 op b rfl rfl
      rw [step_above hsingle hstep below]
      exact ih (halone.of_step hstep) hrun

/-- **What a sequence leaves in the middle of a stream:** its values, above those of the stream. -/
theorem run_append_above {inner : List Token} (hrun : run 0 [] first = .ok stack)
    (halone : ∀ i, ¬ Alone inner i) (hinner : run 0 [] inner = .ok next) :
    run 0 [] (first ++ inner) = .ok (next ++ stack) := by
  have hnever : NeverAlone 0 [] inner := fun i op b hat htake => halone i ⟨op, b, hat, htake⟩
  have habove : run 0 stack inner = .ok (next ++ stack) := run_above hnever hinner stack
  rw [run_append, hrun]
  simp only [run_add, habove]
  rfl

end Above

/-- **Evaluation is a stream.**  A sequence with a value may be replaced by that value at the start
of a stream.  A sequence that has failed at a token fails so whatever follows.  In the middle of a
stream, after tokens that have not failed, a sequence may be replaced by its value if no operator
of it has its operand alone.  A replacement changes nothing but the index of a later error, by the
tokens that are missing. -/
theorem evaluate_stream (xs ys : List Token) :
    (∀ value, evaluate xs = .ok value →
      evaluate (xs ++ ys) =
        (evaluate ([.number value] ++ ys)).mapError (.shift (xs.length - 1))) ∧
    (∀ e index, evaluate xs = .error e → e.index? = some index →
      evaluate (xs ++ ys) = .error e) ∧
    ∀ ws stack value, run 0 [] ws = .ok stack → evaluate xs = .ok value →
      (∀ index, ¬ Alone xs index) →
      evaluate (ws ++ xs ++ ys) =
          (evaluate (ws ++ [.number value] ++ ys)).mapError (.shift (xs.length - 1)) ∧
        ∀ e index, evaluate (ws ++ xs ++ ys) = .error e → e.index? = some index →
          (ws ++ xs).length ≤ index := by
  have hpos : ∀ value, evaluate xs = .ok value → 1 ≤ xs.length := by
    rintro value hvalue
    match xs with
    | [] => cases hvalue
    | _ :: _ => exact Nat.le_add_left 1 _
  refine ⟨fun value hvalue => ?_, fun e index herror hindex => ?_,
    fun ws stack value hws hvalue halone => ?_⟩
  · have hnumber : run 0 [] [.number value] = .ok [value] := rfl
    exact evaluate_append_of_run (evaluate_eq_ok_iff_run.1 hvalue) hnumber (hpos value hvalue) ys
  · exact evaluate_append_of_error (run_eq_error herror hindex) ys
  · have hxs := hpos value hvalue
    have hrun : run 0 [] (ws ++ xs) = .ok ([value] ++ stack) :=
      run_append_above hws halone (evaluate_eq_ok_iff_run.1 hvalue)
    have hnumber : run 0 [] (ws ++ [.number value]) = .ok ([value] ++ stack) := by
      rw [run_append, hws]
      rfl
    -- both runs lead to one stack, so they go on alike, with indices apart by what is missing
    have hle : (ws ++ [Token.number value]).length ≤ (ws ++ xs).length := by
      simp only [List.length_append, List.length_singleton]
      omega
    have hshift : (ws ++ xs).length - (ws ++ [Token.number value]).length = xs.length - 1 := by
      simp only [List.length_append, List.length_singleton]
      omega
    refine ⟨?_, fun e index => length_le_of_evaluate_append hrun⟩
    rw [evaluate_append_of_run hrun hnumber hle, hshift]

/-- The difference `2 3 -` stands for `-1`, at the start and in the middle of a stream that goes on
to a division by zero; and a division by zero is final. -/
theorem evaluate_stream_difference :
    evaluate [.number 2, .number 3, .operator .sub, .number 0, .operator .div] =
        .error (.divideByZero (-1) 4) ∧
      evaluate [.number 7, .number 2, .number 3, .operator .sub, .operator .mul, .number 0,
        .operator .div] = .error (.divideByZero (-7) 6) ∧
      evaluate [.number 1, .number 0, .operator .div, .operator .mul] =
        .error (.divideByZero 1 2) := by
  have hdifference : evaluate [.number 2, .number 3, .operator .sub] = .ok (-1) := rfl
  have halone : ∀ index, ¬ Alone [.number 2, .number 3, .operator .sub] index := by
    rintro index ⟨op, b, hat, hrun⟩
    have hsupplied : Supplied ([] : List Int32).length [.number 2, .number 3, .operator .sub] :=
      ⟨Nat.le_refl 2, trivial⟩
    exact hsupplied.ne_singleton hat b hrun
  obtain ⟨hstart, -, -⟩ := evaluate_stream [.number 2, .number 3, .operator .sub]
    [.number 0, .operator .div]
  obtain ⟨-, -, hmiddle⟩ := evaluate_stream [.number 2, .number 3, .operator .sub]
    [.operator .mul, .number 0, .operator .div]
  obtain ⟨-, hfailed, -⟩ := evaluate_stream [.number 1, .number 0, .operator .div] [.operator .mul]
  exact ⟨hstart (-1) hdifference, (hmiddle [.number 7] [7] (-1) rfl hdifference halone).1,
    hfailed (.divideByZero 1 2) 2 rfl rfl⟩

/-- A sign that has its operand alone takes another one in the middle of a stream: `3 -` is `-3`,
but after a `5` it is the end of `5 3 -`. -/
example : evaluate [.number 3, .operator .sub] = .ok (-3) ∧
    evaluate [.number 5, .number 3, .operator .sub, .operator .sub] = .ok (-2) ∧
    evaluate [.number 5, .number (-3), .operator .sub] = .ok 8 := ⟨rfl, rfl, rfl⟩

end Evaluation
end InfixCalc
