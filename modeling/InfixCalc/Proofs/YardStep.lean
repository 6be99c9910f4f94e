/-
# What a step of a yard can do

Three loops take operators off the stack of a yard.  An operator lets those go that bind at least as
tightly (`Yard.exists_release_eq`), a `)` lets all of its group go (`Yard.closeGroup_eq_some`), and
the end of the text lets all go (`Yard.finish_eq_ok`).  A step that does not fail is one of six
(`Yard.Step`):

| lexeme | stack | output |
| --- | --- | --- |
| literal | | its value is put out |
| `(` | its position is put on | |
| `)` | the operators of its group and the `(` are taken off | the operators are put out |
| sign of the whole | it is put on | |
| sign of a group | it is put on | a zero is put out |
| operator | some operators are taken off, and it is put on | these operators are put out |

`Yard.RunsTo` are the yards that a run reaches, and by it a property of all of them is shown step by
step (`Yard.runsTo_of_run`).
-/

import InfixCalc.Proofs.Scanning
import Mathlib.Data.List.Induction

namespace InfixCalc
namespace Yard

/-- **What an operator lets go:** some operators on top of the stack, each of which binds at least
as tightly, and no operator that does so is left on top. -/
theorem exists_release_eq (op : Operator) (stack : List Waiting) (output : List Token) :
    ∃ (released : List Operator) (rest : List Waiting),
      stack = released.map .operator ++ rest ∧
      release op stack output = (rest, (released.map .operator).reverse ++ output) ∧
      (∀ top ∈ released, op.precedence ≤ top.precedence) ∧
      ∀ top, rest.head? = some (.operator top) → top.precedence < op.precedence := by
  induction stack generalizing output with
  | nil => exact ⟨[], [], rfl, rfl, by simp, by simp⟩
  | cons waiting stack ih =>
    cases waiting with
    | openParen position => exact ⟨[], .openParen position :: stack, rfl, rfl, by simp, by simp⟩
    | operator top =>
      by_cases hlt : top.precedence < op.precedence
      · refine ⟨[], .operator top :: stack, rfl, if_pos hlt, by simp, fun top' htop => ?_⟩
        cases htop
        exact hlt
      · obtain ⟨released, rest, rfl, hrelease, hreleased, hrest⟩ := ih (.operator top :: output)
        refine ⟨top :: released, rest, rfl, ?_, ?_, hrest⟩
        · rw [release, if_neg hlt, hrelease]
          simp
        · exact List.forall_mem_cons.2 ⟨Nat.le_of_not_lt hlt, hreleased⟩

/-- **What a `)` lets go:** the operators down to the innermost open parenthesis. -/
theorem closeGroup_eq_some {stack rest : List Waiting} {output next : List Token}
    (h : closeGroup stack output = some (rest, next)) :
    ∃ (closed : List Operator) (opened : Nat),
      stack = closed.map .operator ++ .openParen opened :: rest ∧
      next = (closed.map .operator).reverse ++ output := by
  induction stack generalizing output with
  | nil => cases h
  | cons waiting stack ih =>
    cases waiting with
    | openParen opened =>
      cases h
      exact ⟨[], opened, rfl, rfl⟩
    | operator top =>
      obtain ⟨closed, opened, rfl, rfl⟩ := ih h
      exact ⟨top :: closed, opened, rfl, by simp⟩

/-- What the end of the text lets go: all operators, if nothing else is on the stack. -/
theorem drain_eq_ok {stack : List Waiting} {output tokens : List Token}
    (h : drain stack output = .ok tokens) :
    ∃ drained : List Operator, stack = drained.map .operator ∧
      tokens = (drained.map .operator).reverse ++ output := by
  induction stack generalizing output with
  | nil =>
    cases h
    exact ⟨[], rfl, rfl⟩
  | cons waiting stack ih =>
    cases waiting with
    | openParen opened => cases h
    | operator top =>
      obtain ⟨drained, rfl, rfl⟩ := ih h
      exact ⟨top :: drained, rfl, by simp⟩

/-- A yard that can be finished holds operators only, and they are written from the top down. -/
theorem finish_eq_ok {yard : Yard} {text : List Char} {tokens : List Token}
    (h : yard.finish text = .ok tokens) :
    ∃ drained : List Operator, yard.stack = drained.map .operator ∧
      tokens = yard.output.reverse ++ drained.map .operator := by
  unfold finish at h
  split at h
  · cases hdrain : drain yard.stack yard.output with
    | error e =>
      rw [hdrain] at h
      cases h
    | ok output =>
      rw [hdrain] at h
      cases h
      obtain ⟨drained, hstack, rfl⟩ := drain_eq_ok hdrain
      exact ⟨drained, hstack, by rw [List.reverse_append, List.reverse_reverse]⟩
  · cases h

/-- What a step can do. -/
inductive Step : Yard → Placed → Yard → Prop
  | literal {stack output expected first more position} {value : Int32}
      (hexpected : expected ≠ .operator)
      (hread : Decimal.int32OfDigits? false (first :: more) = some value) :
    Step ⟨stack, output, expected⟩ ⟨.literal first more, position⟩
      ⟨stack, .number value :: output, .operator⟩
  | openParen {stack output expected position} (hexpected : expected ≠ .operator) :
    Step ⟨stack, output, expected⟩ ⟨.openParen, position⟩
      ⟨.openParen position :: stack, output, .groupStart⟩
  | closeParen {stack output position opened} (closed : List Operator) :
    Step ⟨closed.map .operator ++ .openParen opened :: stack, output, .operator⟩
      ⟨.closeParen, position⟩
      ⟨stack, (closed.map .operator).reverse ++ output, .operator⟩
  /-- A sign that starts the whole expression. -/
  | leadingSign {op position} (hsign : op.isSign) :
    Step start ⟨.operator op, position⟩ ⟨[.operator op], [], .operand⟩
  /-- A sign that starts a group. -/
  | groupSign {stack output op position opened} (hsign : op.isSign) :
    Step ⟨.openParen opened :: stack, output, .groupStart⟩ ⟨.operator op, position⟩
      ⟨.operator op :: .openParen opened :: stack, .number 0 :: output, .operand⟩
  | operator {stack output op position} (released : List Operator)
      (hreleased : ∀ top ∈ released, op.precedence ≤ top.precedence)
      (hstack : ∀ top, stack.head? = some (.operator top) → top.precedence < op.precedence) :
    Step ⟨released.map .operator ++ stack, output, .operator⟩ ⟨.operator op, position⟩
      ⟨.operator op :: stack, (released.map .operator).reverse ++ output, .operand⟩

/-- Where a sign may come, nothing has been read, or a group has just been opened. -/
def Fresh (yard : Yard) : Prop :=
  yard.expected = .groupStart →
    yard = start ∨ ∃ opened below, yard.stack = .openParen opened :: below

/-- After a step, a sign may come only where a group has just been opened. -/
theorem Step.fresh {yard next : Yard} {placed : Placed} (h : Step yard placed next) :
    next.Fresh := by
  intro hexpected
  cases h with
  | openParen => exact .inr ⟨_, _, rfl⟩
  | _ => cases hexpected

/-- **A step that does not fail is one of six.** -/
theorem step_cases {yard next : Yard} {placed : Placed} (hfresh : yard.Fresh)
    (h : yard.step placed = .ok next) : Step yard placed next := by
  obtain ⟨stack, output, expected⟩ := yard
  obtain ⟨lexeme, position⟩ := placed
  cases lexeme with
  | literal first more =>
    have hexpected : expected ≠ .operator := by
      rintro rfl
      cases h
    cases hread : Decimal.int32OfDigits? false (first :: more) with
    | none => cases expected <;> simp [step, hread] at h
    | some value =>
      obtain rfl : Yard.mk stack (.number value :: output) .operator = next := by
        cases expected <;> simp_all [step]
      exact .literal hexpected hread
  | openParen =>
    have hexpected : expected ≠ .operator := by
      rintro rfl
      cases h
    obtain rfl : Yard.mk (.openParen position :: stack) output .groupStart = next := by
      cases expected <;> simp_all [step]
    exact .openParen hexpected
  | closeParen =>
    cases expected with
    | groupStart => cases h
    | operand => cases h
    | operator =>
      cases hclose : closeGroup stack output with
      | none => simp [step, hclose] at h
      | some closed =>
        obtain ⟨rest, output'⟩ := closed
        simp only [step, hclose] at h
        cases h
        obtain ⟨closed, opened, rfl, rfl⟩ := closeGroup_eq_some hclose
        exact .closeParen closed
  | operator op =>
    cases expected with
    | operand => cases h
    | groupStart =>
      by_cases hsign : op.isSign
      · simp only [step, hsign, if_true] at h
        cases h
        -- by `Fresh` the sign is either the first lexeme or stands behind its parenthesis
        obtain hstart | ⟨opened, below, hstack⟩ := hfresh rfl
        · cases hstart
          exact .leadingSign hsign
        · obtain rfl : stack = .openParen opened :: below := hstack
          exact .groupSign hsign
      · simp [step, hsign] at h
    | operator =>
      simp only [step, putOperator] at h
      obtain ⟨released, rest, rfl, hrelease, hreleased, hrest⟩ := exists_release_eq op stack output
      rw [hrelease] at h
      cases h
      exact .operator released hreleased hrest
  | unknown c => cases expected <;> cases h

/-- The yards that a run reaches, with the lexemes that it was run on. -/
inductive RunsTo : List Placed → Yard → Prop
  | start : RunsTo [] start
  | step {placed : List Placed} {last : Placed} {yard next : Yard} (before : RunsTo placed yard)
      (hstep : Step yard last next) : RunsTo (placed ++ [last]) next

/-- Only before the first lexeme is a yard as it was at the start. -/
theorem RunsTo.eq_start_iff {placed : List Placed} {yard : Yard} (h : RunsTo placed yard) :
    yard = Yard.start ↔ placed = [] := by
  cases h with
  | start => exact ⟨fun _ => rfl, fun _ => rfl⟩
  | step _ hstep =>
    refine ⟨fun hstart => ?_, fun hnil => by simp at hnil⟩
    cases hstep with
    | openParen => cases hstart
    | _ => cases congrArg Yard.expected hstart

/-- A group starts behind its parenthesis, and the whole expression before the first lexeme. -/
theorem RunsTo.expected_eq_groupStart_iff {placed : List Placed} {yard : Yard}
    (h : RunsTo placed yard) :
    yard.expected = .groupStart ↔
      yard = Yard.start ∨ placed.getLast?.map Placed.lexeme = some .openParen := by
  cases h with
  | start => exact ⟨fun _ => .inl rfl, fun _ => rfl⟩
  | step _ hstep =>
    rw [List.getLast?_concat, Option.map_some, Option.some.injEq]
    constructor
    · intro hexpected
      cases hstep with
      | openParen => exact .inr rfl
      | _ => cases hexpected
    · rintro (hstart | hlast)
      · exact congrArg Yard.expected hstart
      · cases hstep with
        | openParen => rfl
        | _ => cases hlast

/-- After any run, a sign may come only at the start of the text or of a group. -/
theorem RunsTo.fresh {placed : List Placed} {yard : Yard} (h : RunsTo placed yard) :
    yard.Fresh := by
  cases h with
  | start => exact fun _ => .inl rfl
  | step _ hstep => exact hstep.fresh

/-- **A run that does not fail is made of such steps.** -/
theorem runsTo_of_run {placed : List Placed} {yard : Yard} (h : start.run placed = .ok yard) :
    RunsTo placed yard := by
  -- from the end of the run, since the last step starts where the others led
  induction placed using List.reverseRecOn generalizing yard with
  | nil =>
    cases h
    exact .start
  | append_singleton placed last ih =>
    rw [run_append] at h
    cases hrun : start.run placed with
    | error e =>
      rw [hrun] at h
      cases h
    | ok middle =>
      simp only [hrun, run] at h
      cases hstep : middle.step last with
      | error e =>
        rw [hstep] at h
        cases h
      | ok next =>
        rw [hstep] at h
        cases h
        exact .step (ih hrun) (step_cases (ih hrun).fresh hstep)

end Yard

/-- A scan reaches the yard that a run reaches on the lexemes of what was read. -/
theorem Scan.Reaches.runsTo {text : List Char} {scan : Scan} (h : Reaches text scan) :
    Yard.RunsTo (Lexeme.read scan.consumed) scan.yard := Yard.runsTo_of_run h.hasRead.run_eq

end InfixCalc
