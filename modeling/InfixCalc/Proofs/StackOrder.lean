/-
# The order of the stack

An operator lets those go that bind at least as tightly before it is put on the stack.  So between
two open parentheses that wait, every operator binds more tightly than the one it lies on
(`Yard.Ordered.chain`), and there are at most two (`Yard.Ordered.operators`).

What may come next tells what is on top (`Yard.Ordered`): where a sign may come, a group has just
been opened or nothing has been read; where only an operand may come, there is an operator.
-/

import InfixCalc.Proofs.YardStep
import Mathlib.Data.List.Chain

namespace InfixCalc

namespace Operator

/-- The one operator has the higher precedence. -/
def BindsTighter (upper lower : Operator) : Prop := lower.precedence < upper.precedence

instance : Trans BindsTighter BindsTighter BindsTighter :=
  ⟨fun habove hbelow => Nat.lt_trans hbelow habove⟩

/-- There are two precedences. -/
theorem length_le_two {ops : List Operator} (h : ops.Pairwise BindsTighter) : ops.length ≤ 2 := by
  have hbounds (op : Operator) : 1 ≤ op.precedence ∧ op.precedence ≤ 2 := by
    cases op <;> decide
  match ops with
  | [] => simp
  | [_] => simp
  | [_, _] => simp
  | first :: second :: third :: more =>
    have hfirst := (hbounds first).2
    have hthird := (hbounds third).1
    obtain ⟨habove, hbelow⟩ := List.pairwise_cons.1 h
    have hsecond : second.precedence < first.precedence := habove second List.mem_cons_self
    have hlt : third.precedence < second.precedence :=
      (List.pairwise_cons.1 hbelow).1 third List.mem_cons_self
    omega

end Operator

/-- What may lie directly on what: an operator lies on another one only if it binds more tightly. -/
def Waiting.MayLieOn : Waiting → Waiting → Prop
  | .operator upper, .operator lower => upper.BindsTighter lower
  | _, _ => True

namespace Yard

/-- The stack is in order, and what may come next tells what is on top of it. -/
structure Ordered (yard : Yard) : Prop where
  chain : yard.stack.IsChain Waiting.MayLieOn
  fresh : yard.Fresh
  operator_top : yard.expected = .operand → ∃ op below, yard.stack = .operator op :: below

/-- **Operators that lie on each other,** with no parenthesis between them, bind the more tightly
the higher they lie, and there are at most two. -/
theorem Ordered.operators {yard : Yard} (h : yard.Ordered) {ops : List Operator}
    (hops : ops.map Waiting.operator <:+: yard.stack) :
    ops.Pairwise Operator.BindsTighter ∧ ops.length ≤ 2 := by
  have hstacked : (ops.map Waiting.operator).IsChain Waiting.MayLieOn :=
    List.IsChain.infix h.chain hops
  have hchain : ops.IsChain Operator.BindsTighter :=
    (List.isChain_map Waiting.operator).1 hstacked
  exact ⟨hchain.pairwise, Operator.length_le_two hchain.pairwise⟩

/-- **Every step keeps the order.** -/
theorem Step.ordered {yard next : Yard} {placed : Placed} (hstep : Step yard placed next)
    (h : yard.Ordered) : next.Ordered := by
  refine ⟨?_, hstep.fresh, fun hexpected => ?_⟩
  · have hchain := h.chain
    cases hstep with
    | literal => exact hchain
    | openParen => exact hchain.cons fun _ _ => trivial
    | closeParen closed => exact hchain.right_of_append.tail
    | leadingSign => exact List.isChain_singleton _
    | groupSign => exact hchain.cons_cons trivial
    | operator released _ hstack =>
      refine hchain.right_of_append.cons fun below hbelow => ?_
      cases below with
      | openParen opened => trivial
      | operator top => exact hstack top hbelow
  · cases hstep with
    | leadingSign => exact ⟨_, _, rfl⟩
    | groupSign => exact ⟨_, _, rfl⟩
    | operator => exact ⟨_, _, rfl⟩
    | _ => cases hexpected

/-- **A run keeps the order.** -/
theorem RunsTo.ordered {placed : List Placed} {yard : Yard} (h : RunsTo placed yard) :
    yard.Ordered := by
  induction h with
  | start => exact ⟨List.isChain_nil, fun _ => .inl rfl, fun hexpected => by cases hexpected⟩
  | step _ hstep ih => exact hstep.ordered ih

end Yard
end InfixCalc
