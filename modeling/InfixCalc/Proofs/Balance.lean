/-
# How many values the output of a yard leaves

The tokens that a yard has put out can be evaluated, though the text may still go on.  Counting the
values as evaluation does (`Evaluation.depth?`), an operator is never without its operands, and in
the end there is a value for every operator that waits, since its left operand is there, and one
more behind an operand.  Only the sign that starts the whole expression has no left operand.

`Yard.held` tells which lexeme put each entry on the stack, and by it whether that sign still waits
(`Yard.signHeld`).  It lies at the bottom (`Yard.AtBottom`), so it is put out when one value is
left, and that stays (`Yard.depthFrom?_released`).
-/

import InfixCalc.Proofs.StackOrder
import InfixCalc.Evaluation

namespace InfixCalc

namespace Evaluation

/-- The number of values after a token, if there are enough before it: a number is one more, an
operator leaves one value for two, and a sign leaves a single value. -/
def depthAfter? (depth : Nat) : Token → Option Nat
  | .number _ => some (depth + 1)
  | .operator op =>
    if 2 ≤ depth then some (depth - 1)
    else if depth = 1 ∧ op.isSign then some 1
    else none

/-- The number of values after further tokens. -/
def depthFrom? (depth : Nat) (tokens : List Token) : Option Nat := tokens.foldlM depthAfter? depth

/-- The number of values that a sequence leaves, if no operator is without its operands. -/
def depth? (tokens : List Token) : Option Nat := depthFrom? 0 tokens

/-- The depth over further tokens is counted from the depth before them. -/
theorem depthFrom?_append {depth middle : Nat} {first : List Token} (second : List Token)
    (h : depthFrom? depth first = some middle) :
    depthFrom? depth (first ++ second) = depthFrom? middle second := by
  rw [depthFrom?, List.foldlM_append]
  exact congrArg (· >>= _) h

/-- A token for which there are enough values fails only as a division by zero. -/
theorem step_of_depthAfter? {stack : List Int32} {token : Token} {depth : Nat} (index : Nat)
    (h : depthAfter? stack.length token = some depth) :
    (∃ values, step index stack token = .ok values ∧ values.length = depth) ∨
      ∃ dividend, step index stack token = .error (.divideByZero dividend index) := by
  cases token with
  | number value => exact .inl ⟨value :: stack, rfl, Option.some.inj h⟩
  | operator op =>
    match stack with
    | [] => cases h
    | [b] => cases op <;> cases h <;> exact .inl ⟨[_], rfl, rfl⟩
    | b :: a :: below =>
      have hdepth : below.length + 1 = depth := by
        simpa [depthAfter?] using h
      cases hvalue : op.combine? a b with
      | some value => exact .inl ⟨value :: below, by simp only [step, hvalue], hdepth⟩
      | none => exact .inr ⟨a, by simp only [step, hvalue]⟩

/-- **A sequence in which no operator is without its operands** fails only at a division by zero,
and otherwise leaves as many values as are counted. -/
theorem run_of_depthFrom? {tokens : List Token} {stack : List Int32} {depth : Nat} (index : Nat)
    (h : depthFrom? stack.length tokens = some depth) :
    (∃ values, run index stack tokens = .ok values ∧ values.length = depth) ∨
      ∃ dividend place, run index stack tokens = .error (.divideByZero dividend place) := by
  induction tokens generalizing index stack with
  | nil => exact .inl ⟨stack, rfl, Option.some.inj h⟩
  | cons token tokens ih =>
    obtain ⟨middle, htoken, htokens⟩ := Option.bind_eq_some_iff.1 h
    obtain ⟨values, hstep, rfl⟩ | ⟨dividend, hstep⟩ := step_of_depthAfter? index htoken
    · simp only [run, hstep]
      exact ih (index + 1) htokens
    · exact .inr ⟨dividend, index, by simp only [run, hstep]⟩

end Evaluation

namespace Waiting

/-- An operator waits, not an opened group. -/
def isOperator : Waiting → Bool
  | .operator _ => true
  | .openParen _ => false

/-- An operator of this kind lets the entry go. -/
def yieldsTo (op : Operator) : Waiting → Bool
  | .operator top => decide (op.precedence ≤ top.precedence)
  | .openParen _ => false

end Waiting

/-- An entry of a stack, with the position of the lexeme that put it there. -/
abbrev Held := Waiting × Nat

/-- What is held on the stack after one lexeme more. -/
def Placed.hold (held : List Held) (next : Placed) : List Held :=
  match next.lexeme with
  | .openParen => (.openParen next.position, next.position) :: held
  | .closeParen => (held.dropWhile fun entry => entry.1.isOperator).tail
  | .operator op =>
    (.operator op, next.position) :: held.dropWhile fun entry => entry.1.yieldsTo op
  | _ => held

namespace Yard

/-- What is held on the stack after these lexemes. -/
def held (placed : List Placed) : List Held := placed.foldl Placed.hold []

/-- The entry of the sign that starts the whole expression, if a sign does. -/
def leadingSign? : List Placed → Option Held
  | ⟨.operator op, position⟩ :: _ => if op.isSign then some (.operator op, position) else none
  | _ => none

/-- The sign that starts the whole expression still waits. -/
def signHeld (placed : List Placed) : Bool :=
  (leadingSign? placed).any fun sign => decide (sign ∈ held placed)

/-- What is held after one lexeme more depends on that lexeme alone. -/
theorem held_append_singleton (placed : List Placed) (last : Placed) :
    held (placed ++ [last]) = Placed.hold (held placed) last := by
  rw [held, List.foldl_append]
  rfl

/-- A leading sign is the operator of the first lexeme. -/
theorem exists_of_mem_leadingSign? {placed : List Placed} {sign : Held}
    (h : sign ∈ leadingSign? placed) :
    ∃ op position rest, op.isSign ∧ sign = (.operator op, position) ∧
      placed = ⟨.operator op, position⟩ :: rest := by
  unfold leadingSign? at h
  split at h
  · rename_i op position rest
    split at h
    · rename_i hsign
      cases h
      exact ⟨op, position, rest, hsign, rfl, rfl⟩
    · cases h
  · cases h

/-- A lexeme more at the end is no other beginning, and only an operator is a sign. -/
theorem leadingSign?_append_singleton {placed : List Placed} {last : Placed}
    (h : placed = [] → ∀ op, last.lexeme ≠ .operator op) :
    leadingSign? (placed ++ [last]) = leadingSign? placed := by
  cases placed with
  | nil =>
    obtain ⟨lexeme, position⟩ := last
    cases lexeme with
    | operator op => exact absurd rfl (h rfl op)
    | _ => rfl
  | cons first rest =>
    obtain ⟨lexeme, position⟩ := first
    cases lexeme <;> rfl

/-- The entry of a lexeme that comes later is another one. -/
theorem ne_of_mem_leadingSign? {placed : List Placed} {last : Placed} {sign : Held}
    (hsorted : (placed ++ [last]).Pairwise fun p q => p.position < q.position)
    (h : sign ∈ leadingSign? placed) (waiting : Waiting) : (waiting, last.position) ≠ sign := by
  obtain ⟨op, position, rest, -, rfl, rfl⟩ := exists_of_mem_leadingSign? h
  have hlt : position < last.position :=
    (List.pairwise_append.1 hsorted).2.2 _ List.mem_cons_self last List.mem_cons_self
  intro heq
  obtain ⟨-, rfl⟩ := Prod.mk.inj heq
  exact Nat.lt_irrefl _ hlt

/-- A sign that starts the whole expression has nothing below it. -/
def AtBottom (sign? : Option Held) (held : List Held) : Prop :=
  ∀ sign ∈ sign?, ∀ above below, held = above ++ sign :: below → below = []

/-- What is at the bottom stays there when entries are taken off the top. -/
theorem AtBottom.of_append {sign? : Option Held} (above : List Held) {held : List Held}
    (h : AtBottom sign? (above ++ held)) : AtBottom sign? held := by
  rintro sign hsign top below rfl
  exact h sign hsign (above ++ top) below (List.append_assoc ..).symm

/-- What is at the bottom stays there when another entry is put on top. -/
theorem AtBottom.cons {sign? : Option Held} {held : List Held} {entry : Held}
    (h : AtBottom sign? held) (hne : ∀ sign ∈ sign?, entry ≠ sign) :
    AtBottom sign? (entry :: held) := by
  intro sign hsign above below heq
  obtain ⟨-, heq⟩ | ⟨top, -, heq⟩ := List.cons_eq_append_iff.1 heq
  · exact absurd (List.cons.inj heq).1.symm (hne sign hsign)
  · exact h sign hsign top below heq

/-- The operators that have their left operand in the output: all but the sign that starts the whole
expression. -/
def isBinary (sign? : Option Held) (entry : Held) : Bool :=
  entry.1.isOperator && !decide (entry ∈ sign?)

/-- **Operators that are let go have their operands.**  Each leaves one value less, and the sign
that starts the whole expression, which is the last of all, leaves the one value there is. -/
theorem depthFrom?_released {placed : List Placed} {released rest : List Held}
    {ops : List Operator} (hops : released.map Prod.fst = ops.map .operator)
    (hbottom : AtBottom (leadingSign? placed) (released ++ rest)) :
    Evaluation.depthFrom? ((released ++ rest).countP (isBinary (leadingSign? placed)) + 1)
        (ops.map .operator) =
      some (rest.countP (isBinary (leadingSign? placed)) + 1) := by
  induction released generalizing ops with
  | nil =>
    obtain rfl : ops = [] := List.map_eq_nil_iff.1 hops.symm
    rfl
  | cons entry released ih =>
    obtain ⟨op, ops, rfl, hentry, hreleased⟩ := List.map_eq_cons_iff.1 hops.symm
    obtain ⟨waiting, position⟩ := entry
    obtain rfl : Waiting.operator op = waiting := hentry
    by_cases hsign : (.operator op, position) ∈ leadingSign? placed
    · -- nothing is below the sign, so it finds one value
      obtain ⟨op', position', -, hisSign, heq, -⟩ := exists_of_mem_leadingSign? hsign
      obtain ⟨rfl, rfl⟩ := List.append_eq_nil_iff.1 (hbottom _ hsign [] _ rfl)
      obtain rfl : ops = [] := List.map_eq_nil_iff.1 hreleased
      obtain rfl : op = op' := by cases heq; rfl
      simp [isBinary, hsign, Evaluation.depthFrom?, Evaluation.depthAfter?, hisSign]
    · have hbinary : isBinary (leadingSign? placed) (.operator op, position) = true := by
        simp [isBinary, Waiting.isOperator, hsign]
      have hrest : AtBottom (leadingSign? placed) (released ++ rest) :=
        AtBottom.of_append [(.operator op, position)] hbottom
      rw [List.cons_append, List.countP_cons_of_pos hbinary, ← ih hreleased.symm hrest]
      simp [Evaluation.depthFrom?, Evaluation.depthAfter?]

/-- Only the operators that are let go are taken off. -/
theorem dropWhile_released {released rest : List Held} {ops : List Operator}
    {p : Waiting → Bool} (hops : released.map Prod.fst = ops.map .operator)
    (hp : ∀ op ∈ ops, p (.operator op))
    (hrest : ∀ waiting ∈ (rest.map Prod.fst).head?, ¬ p waiting) :
    (released ++ rest).dropWhile (fun entry => p entry.1) = rest := by
  have hreleased : ∀ entry ∈ released, p entry.1 := by
    intro entry hentry
    have hmem : entry.1 ∈ ops.map Waiting.operator := hops ▸ List.mem_map_of_mem hentry
    obtain ⟨op, hop, heq⟩ := List.mem_map.1 hmem
    exact heq ▸ hp op hop
  rw [List.dropWhile_append_of_pos hreleased]
  cases rest with
  | nil => rfl
  | cons entry rest => exact List.dropWhile_cons_of_neg (hrest entry.1 rfl)

/-- There is a value for every operator that waits, but the sign that starts the whole expression,
and one more where an operator may come. -/
structure Balanced (placed : List Placed) (yard : Yard) : Prop where
  stack_eq : yard.stack = (held placed).map Prod.fst
  atBottom : AtBottom (leadingSign? placed) (held placed)
  depth?_eq : Evaluation.depth? yard.output.reverse =
    some ((held placed).countP (isBinary (leadingSign? placed)) +
      if yard.expected = .operator then 1 else 0)

section Step

variable {placed : List Placed} {last : Placed} {yard next : Yard}

/-- It is enough to know what is held on the stack after a lexeme that is not the first sign. -/
theorem Balanced.of_hold (held' : List Held) (hhold : Placed.hold (held placed) last = held')
    (hfirst : placed = [] → ∀ op, last.lexeme ≠ .operator op)
    (hstack : next.stack = held'.map Prod.fst)
    (hbottom : AtBottom (leadingSign? placed) held')
    (hdepth : Evaluation.depth? next.output.reverse =
      some (held'.countP (isBinary (leadingSign? placed)) +
        if next.expected = .operator then 1 else 0)) :
    Balanced (placed ++ [last]) next := by
  subst hhold
  rw [← held_append_singleton] at hstack hbottom hdepth
  rw [← leadingSign?_append_singleton hfirst] at hbottom hdepth
  exact ⟨hstack, hbottom, hdepth⟩

/-- Where an operand may come next, every value is the operand of an operator that waits. -/
theorem Balanced.depth?_of_operand (h : Balanced placed yard)
    (hexpected : yard.expected ≠ .operator) :
    Evaluation.depth? yard.output.reverse =
      some ((held placed).countP (isBinary (leadingSign? placed))) := by
  rw [h.depth?_eq, if_neg hexpected, Nat.add_zero]

/-- A value that is put out there is one more. -/
theorem Balanced.depth?_number (h : Balanced placed yard) (hexpected : yard.expected ≠ .operator)
    (value : Int32) :
    Evaluation.depth? (Token.number value :: yard.output).reverse =
      some ((held placed).countP (isBinary (leadingSign? placed)) + 1) := by
  rw [List.reverse_cons, Evaluation.depth?,
    Evaluation.depthFrom?_append _ (h.depth?_of_operand hexpected)]
  rfl

/-- **Operators are let go in balance:** with those on top of the stack that `p` holds for in the
output, one value is left more than there are operators. -/
theorem Balanced.release {ops : List Operator} {stack : List Waiting} {output : List Token}
    (h : Balanced placed ⟨ops.map .operator ++ stack, output, .operator⟩) (p : Waiting → Bool)
    (hops : ∀ op ∈ ops, p (.operator op)) (hstack : ∀ waiting ∈ stack.head?, ¬ p waiting) :
    ∃ rest, (held placed).dropWhile (fun entry => p entry.1) = rest ∧
      rest.map Prod.fst = stack ∧ AtBottom (leadingSign? placed) rest ∧
      Evaluation.depth? ((ops.map Token.operator).reverse ++ output).reverse =
        some (rest.countP (isBinary (leadingSign? placed)) + 1) := by
  obtain ⟨released, rest, hheld, hreleased, rfl⟩ := List.map_eq_append_iff.1 h.stack_eq.symm
  have hbottom := h.atBottom
  have hdepth := h.depth?_eq
  rw [hheld] at hbottom hdepth ⊢
  refine ⟨rest, dropWhile_released hreleased hops hstack, rfl, hbottom.of_append released, ?_⟩
  rw [List.reverse_append, List.reverse_reverse, Evaluation.depth?,
    Evaluation.depthFrom?_append _ hdepth]
  exact depthFrom?_released hreleased hbottom

/-- An operator that is put on the stack behind other lexemes is not the sign that starts the whole
expression. -/
theorem AtBottom.cons_operator {op : Operator} {position : Nat} {held : List Held}
    (hsorted : (placed ++ [(⟨.operator op, position⟩ : Placed)]).Pairwise
      fun p q => p.position < q.position)
    (h : AtBottom (leadingSign? placed) held) :
    AtBottom (leadingSign? placed) ((.operator op, position) :: held) ∧
      ((Waiting.operator op, position) :: held).countP (isBinary (leadingSign? placed)) =
        held.countP (isBinary (leadingSign? placed)) + 1 := by
  have hne : ∀ sign ∈ leadingSign? placed, (Waiting.operator op, position) ≠ sign :=
    fun sign hsign => ne_of_mem_leadingSign? hsorted hsign _
  refine ⟨h.cons hne, List.countP_cons_of_pos ?_⟩
  have hnot : (Waiting.operator op, position) ∉ leadingSign? placed := fun hsign => hne _ hsign rfl
  simp [isBinary, Waiting.isOperator, hnot]

/-- **Every step keeps the balance.** -/
theorem Step.balanced (hstep : Step yard last next) (hrun : RunsTo placed yard)
    (hsorted : (placed ++ [last]).Pairwise fun p q => p.position < q.position)
    (h : Balanced placed yard) : Balanced (placed ++ [last]) next := by
  cases hstep with
  | @literal stack output expected first more position value hexpected hread =>
    exact .of_hold _ rfl (fun _ op hop => by cases hop) h.stack_eq h.atBottom
      (h.depth?_number hexpected value)
  | @openParen stack output expected position hexpected =>
    refine .of_hold ((.openParen position, position) :: held placed) rfl
      (fun _ op hop => by cases hop) ?_ ?_ ?_
    · exact congrArg (Waiting.openParen position :: ·) h.stack_eq
    · exact h.atBottom.cons fun sign hsign => ne_of_mem_leadingSign? hsorted hsign _
    · rw [List.countP_cons_of_neg (by simp [isBinary, Waiting.isOperator])]
      exact h.depth?_of_operand hexpected
  -- the operators above the opened group leave, and the group itself leaves no value
  | @closeParen stack output position opened closed =>
    obtain ⟨rest, hdrop, hrest, hbottom, hdepth⟩ := h.release Waiting.isOperator
      (fun _ _ => rfl) (fun waiting hwaiting => by cases hwaiting; exact Bool.false_ne_true)
    obtain ⟨entry, rest, rfl, hentry, rfl⟩ := List.map_eq_cons_iff.1 hrest
    refine .of_hold rest (congrArg List.tail hdrop) (fun _ op hop => by cases hop) rfl ?_ ?_
    · exact .of_append [entry] hbottom
    · rw [hdepth, List.countP_cons_of_neg (by simp [isBinary, hentry, Waiting.isOperator])]
      rfl
  -- this sign has no operand on its left, so it counts as no operator of two operands
  | @leadingSign op position hsign =>
    obtain rfl := hrun.eq_start_iff.1 rfl
    refine ⟨rfl, fun sign _ above below heq => ?_, ?_⟩
    · obtain ⟨-, heq⟩ | ⟨top, -, heq⟩ := List.cons_eq_append_iff.1 heq
      · exact (List.cons.inj heq).2
      · simp at heq
    · simp [leadingSign?, hsign, held, Placed.hold, isBinary, Evaluation.depth?,
        Evaluation.depthFrom?]
  -- the zero that the step puts on the output is the left operand of the sign
  | @groupSign stack output op position opened hsign =>
    have hne : placed ≠ [] := by
      intro hnil
      cases hrun.eq_start_iff.2 hnil
    obtain ⟨hbottom, hcount⟩ := h.atBottom.cons_operator hsorted
    have hdrop : (held placed).dropWhile (fun entry => entry.1.yieldsTo op) = held placed := by
      obtain ⟨entry, rest, hheld, hentry, -⟩ := List.map_eq_cons_iff.1 h.stack_eq.symm
      rw [hheld]
      exact List.dropWhile_cons_of_neg (by simp [hentry, Waiting.yieldsTo])
    refine .of_hold ((.operator op, position) :: held placed) (congrArg (_ :: ·) hdrop)
      (fun hnil => absurd hnil hne) ?_ hbottom ?_
    · exact congrArg (Waiting.operator op :: ·) h.stack_eq
    · rw [hcount]
      exact h.depth?_number (fun he => by cases he) 0
  | @operator stack output op position released hreleased hstack =>
    have hne : placed ≠ [] := by
      intro hnil
      cases congrArg Yard.expected (hrun.eq_start_iff.2 hnil)
    obtain ⟨rest, hdrop, rfl, hrest, hdepth⟩ := h.release (Waiting.yieldsTo op)
      (fun top htop => decide_eq_true (hreleased top htop)) fun waiting hwaiting => by
        cases waiting with
        | openParen opened => exact Bool.false_ne_true
        | operator top => simpa [Waiting.yieldsTo] using hstack top hwaiting
    obtain ⟨hbottom, hcount⟩ := hrest.cons_operator hsorted
    refine .of_hold ((.operator op, position) :: rest) (congrArg (_ :: ·) hdrop)
      (fun hnil => absurd hnil hne) rfl hbottom ?_
    rw [hcount]
    exact hdepth

end Step

/-- **A run keeps the balance,** if its lexemes are in order. -/
theorem RunsTo.balanced {placed : List Placed} {yard : Yard} (h : RunsTo placed yard)
    (hsorted : placed.Pairwise fun p q => p.position < q.position) : Balanced placed yard := by
  induction h with
  | start => exact ⟨rfl, (fun sign hsign => by cases hsign), rfl⟩
  | step before hstep ih =>
    exact hstep.balanced before hsorted (ih (List.pairwise_append.1 hsorted).1)

/-- The sign that starts the whole expression is one of the operators that wait, or none. -/
theorem countP_isBinary_add {placed : List Placed} {held : List Held}
    (h : AtBottom (leadingSign? placed) held) :
    (held.countP (isBinary (leadingSign? placed)) +
      if (leadingSign? placed).any fun sign => decide (sign ∈ held) then 1 else 0) =
      held.countP fun entry => entry.1.isOperator := by
  induction held with
  | nil => cases leadingSign? placed <;> rfl
  | cons entry held ih =>
    -- below the sign of the whole expression nothing is held, so it is met at most once
    by_cases hsign : entry ∈ leadingSign? placed
    · obtain ⟨op, position, -, -, rfl, -⟩ := exists_of_mem_leadingSign? hsign
      obtain rfl := h _ hsign [] held rfl
      simp [Option.mem_def.1 hsign, isBinary, Waiting.isOperator]
    · have hany : ((leadingSign? placed).any fun sign => decide (sign ∈ entry :: held)) =
          (leadingSign? placed).any fun sign => decide (sign ∈ held) := by
        cases hlead : leadingSign? placed with
        | none => rfl
        | some sign =>
          have hne : sign ≠ entry := by
            rintro rfl
            exact hsign hlead
          simp [hne]
      have hbinary : isBinary (leadingSign? placed) entry = entry.1.isOperator := by
        simp [isBinary, hsign]
      rw [hany, List.countP_cons, List.countP_cons, ← ih (.of_append [entry] h), hbinary]
      omega

/-- The values that the output leaves, and the operators that wait. -/
theorem Balanced.exists_depth {placed : List Placed} {yard : Yard} (h : Balanced placed yard) :
    ∃ depth, Evaluation.depth? yard.output.reverse = some depth ∧
      (depth + if signHeld placed then 1 else 0) =
        yard.stack.countP Waiting.isOperator + if yard.expected = .operator then 1 else 0 := by
  refine ⟨_, h.depth?_eq, ?_⟩
  rw [h.stack_eq, List.countP_map, Function.comp_def, ← countP_isBinary_add h.atBottom, signHeld]
  omega

end Yard

namespace Scan

variable {text : List Char} {scan : Scan}

/-- **The yard of a scan at any time.**  Operators on the stack with no parenthesis between them
bind the more tightly the higher they lie, and there are at most two.  Where a sign may come, a
parenthesis is on top, or the stack and the output are empty; where only an operand may come, an
operator is on top.  Evaluating the output, no operator is ever without its operands, and there is
left a value for each operator that waits, and one more where an operator may come, but none for the
sign that starts the whole expression. -/
theorem Reaches.yard_invariant (h : Reaches text scan) :
    let yard := scan.yard
    (∀ ops : List Operator, ops.map Waiting.operator <:+: yard.stack →
      ops.Pairwise Operator.BindsTighter ∧ ops.length ≤ 2) ∧
    (yard.expected = .groupStart →
      (∃ opened below, yard.stack = .openParen opened :: below) ∨
        yard.stack = [] ∧ yard.output = []) ∧
    (yard.expected = .operand → ∃ op below, yard.stack = .operator op :: below) ∧
    yard.stack = (Yard.held (Lexeme.read scan.consumed)).map Prod.fst ∧
    ∃ depth, Evaluation.depth? yard.output.reverse = some depth ∧
      (depth + if Yard.signHeld (Lexeme.read scan.consumed) then 1 else 0) =
        yard.stack.countP Waiting.isOperator + (if yard.expected = .operator then 1 else 0) ∧
      ((∃ values, Evaluation.run 0 [] yard.output.reverse = .ok values ∧ values.length = depth) ∨
        ∃ dividend index,
          Evaluation.run 0 [] yard.output.reverse = .error (.divideByZero dividend index)) := by
  intro yard
  have hordered := h.runsTo.ordered
  have hbalanced := h.runsTo.balanced (Lexeme.pairwise_readFrom 0 scan.consumed)
  obtain ⟨depth, hdepth, hcount⟩ := hbalanced.exists_depth
  refine ⟨fun ops hops => hordered.operators hops, fun hexpected => ?_, hordered.operator_top,
    hbalanced.stack_eq, depth, hdepth, hcount, Evaluation.run_of_depthFrom? 0 hdepth⟩
  obtain hstart | hopened := hordered.fresh hexpected
  · exact .inr ⟨congrArg Yard.stack hstart, congrArg Yard.output hstart⟩
  · exact .inl hopened

/-- A `*` and two signs wait.  The sign that starts the whole expression has no operand on its left,
and a zero stands there for the other one, so there are two values. -/
theorem yard_invariant_two_signs :
    let scan : Scan := ⟨⟨['-', '(', '*', '2', '-'], ['3']⟩,
      ⟨[.operator .sub, .openParen 3, .operator .mul, .operator .sub], [.number 0, .number 2],
        .operand⟩⟩
    Reaches "-2*(-3".toList scan ∧ Yard.signHeld (Lexeme.read scan.consumed) = true ∧
      Evaluation.depth? [.number 2, .number 0] = some 2 := by
  intro scan
  have hstart : Reaches "-2*(-3".toList (start "-2*(-3".toList) := .start
  have hsign := hstart.turn (c := '-') rfl rfl
  have hliteral := hsign.turn (c := '2') rfl rfl
  have hproduct := hliteral.turn (c := '*') rfl rfl
  have hgroup := hproduct.turn (c := '(') rfl rfl
  have hreaches : Reaches "-2*(-3".toList scan := hgroup.turn (c := '-') rfl rfl
  have hheld : Yard.signHeld (Lexeme.read scan.consumed) = true := by decide
  obtain ⟨-, -, -, -, depth, hdepth, hcount, -⟩ := hreaches.yard_invariant
  rw [hheld] at hcount
  obtain rfl : depth = 2 := Nat.add_right_cancel hcount
  exact ⟨hreaches, hheld, hdepth⟩

end Scan
end InfixCalc
