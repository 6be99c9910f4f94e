/-
# Drafts: expressions read halfway

A draft is the derivation of a text that may still go on: a level for every group that is open
and for the whole, and the factor that was read last, if no operator came after it.  It takes
one lexeme more just as a yard does, but builds trees where the yard moves tokens:

| draft | yard |
| --- | --- |
| an operator whose right side is still open | an operator that waits |
| a group that is open | an open parenthesis that waits |
| a finished tree | its postfix sequence in the output |

`Draft.yard` forgets the trees.  A draft knows the lexemes that were read
(`Draft.lexemes_run`), and `Draft.Step` lists what a step can do.
-/

import InfixCalc.Proofs.Level
import InfixCalc.Yard

namespace InfixCalc

/-- An expression read halfway. -/
structure Draft where
  /-- The open groups, the innermost first: the position of the parenthesis, and what stands
  before the group around it. -/
  outer : List (Nat × Level)
  /-- What stands before the operand that is read next, or that was read last. -/
  level : Level
  /-- The operand that was read last, if no operator came after it. -/
  factor? : Option Factor

namespace Draft

/-- The draft before the first lexeme. -/
def start : Draft := ⟨[], .empty, none⟩

/-- What may come next. -/
def expected (draft : Draft) : Expected :=
  match draft.factor?, draft.level with
  | some _, _ => .operator
  | none, ⟨.empty, .empty⟩ => .groupStart
  | none, _ => .operand

/-- The lexemes before the innermost open group. -/
def outerLexemes : List (Nat × Level) → List Lexeme
  | [] => []
  | (_, level) :: outer => outerLexemes outer ++ level.lexemes ++ [.openParen]

/-- The lexemes that were read. -/
def lexemes (draft : Draft) : List Lexeme :=
  outerLexemes draft.outer ++ draft.level.lexemes ++ (draft.factor?.map Factor.lexemes).getD []

/-- The postfix sequence that stands before that of the innermost open group. -/
def outerTokens : List (Nat × Level) → List Token
  | [] => []
  | (_, level) :: outer => outerTokens outer ++ level.tokens (!outer.isEmpty)

/-- The postfix sequence as far as it is settled. -/
def tokens (draft : Draft) : List Token :=
  outerTokens draft.outer ++ draft.level.tokens (!draft.outer.isEmpty) ++
    (draft.factor?.map Factor.tokens).getD []

/-- What waits outside of the innermost open group, with its parenthesis. -/
def outerStack : List (Nat × Level) → List Waiting
  | [] => []
  | (position, level) :: outer =>
    .openParen position :: (level.operators.map .operator ++ outerStack outer)

/-- The yard that has read what the draft has read. -/
def yard (draft : Draft) : Yard :=
  ⟨draft.level.operators.map .operator ++ outerStack draft.outer, draft.tokens.reverse,
    draft.expected⟩

/-- The draft after one lexeme more, or the error of a lexeme that may not come next or that is
too large a literal. -/
def step (draft : Draft) (next : Placed) : Except ParseError Draft :=
  let refused := .error (.unexpected next.lexeme.head next.position)
  match next.lexeme, draft.factor? with
  | .literal first more, none =>
    if h : Decimal.value (first :: more) ≤ Decimal.int32Max then
      .ok { draft with factor? := some (.literal ⟨first, more, h⟩) }
    else .error (.overflow (String.ofList (first :: more)) next.position)
  | .openParen, none => .ok ⟨(next.position, draft.level) :: draft.outer, .empty, none⟩
  | .closeParen, some factor =>
    match draft.outer with
    | [] => refused
    | (_, level) :: outer => .ok ⟨outer, level, some (.group (draft.level.close factor))⟩
  | .operator op, none =>
    match draft.level.sign? op with
    | some level => .ok { draft with level := level }
    | none => refused
  | .operator op, some factor => .ok ⟨draft.outer, draft.level.more factor op, none⟩
  | _, _ => refused

/-- The draft after further lexemes, or the error of the first that is refused. -/
def run (draft : Draft) : List Placed → Except ParseError Draft
  | [] => .ok draft
  | next :: rest =>
    match draft.step next with
    | .ok draft => draft.run rest
    | .error e => .error e

/-- How a draft ends with its text: with the postfix sequence of a whole expression, or with the
error of an operand that is missing or of a group that is open. -/
def finish (draft : Draft) (text : List Char) : Except ParseError (List Token) :=
  match draft.factor?, draft.outer with
  | some factor, [] => .ok ((draft.level.close factor).tokens false)
  | some _, (position, _) :: _ => .error (.unexpected '(' position)
  | none, _ => .error (ParseError.unexpectedAt text text.length)

/-- A run is a step and a run of the rest. -/
theorem run_cons_eq_ok {draft next : Draft} {placed : Placed} {rest : List Placed} :
    draft.run (placed :: rest) = .ok next ↔
      ∃ middle, draft.step placed = .ok middle ∧ middle.run rest = .ok next := by
  rw [run]
  constructor
  · intro h
    cases hstep : draft.step placed with
    | error e => rw [hstep] at h; cases h
    | ok middle => exact ⟨middle, rfl, by rwa [hstep] at h⟩
  · rintro ⟨middle, hstep, hrest⟩
    rwa [hstep]

/-- Lexemes are drafted in two parts: the second from the draft that the first leaves. -/
theorem run_append (draft : Draft) (first second : List Placed) :
    draft.run (first ++ second) =
      match draft.run first with
      | .ok draft => draft.run second
      | .error e => .error e := by
  induction first generalizing draft with
  | nil => rfl
  | cons next rest ih =>
    simp only [List.cons_append, run]
    cases draft.step next with
    | ok draft => exact ih draft
    | error e => rfl

/-- Reading goes on where the first part ends. -/
theorem run_append_of_ok {draft middle : Draft} {first second : List Placed}
    (h : draft.run first = .ok middle) : draft.run (first ++ second) = middle.run second := by
  rw [run_append, h]

/-- A run over two parts that goes through has a draft between them. -/
theorem run_append_eq_ok {draft next : Draft} {first second : List Placed} :
    draft.run (first ++ second) = .ok next ↔
      ∃ middle, draft.run first = .ok middle ∧ middle.run second = .ok next := by
  rw [run_append]
  constructor
  · intro h
    cases hfirst : draft.run first with
    | error e => rw [hfirst] at h; cases h
    | ok middle => exact ⟨middle, rfl, by rwa [hfirst] at h⟩
  · rintro ⟨middle, hfirst, hsecond⟩
    rwa [hfirst]

/-- A run over one lexeme is one step. -/
@[simp] theorem run_singleton (draft : Draft) (placed : Placed) :
    draft.run [placed] = draft.step placed := by
  rw [run]
  cases draft.step placed <;> rfl

/-- What a step can do. -/
inductive Step : Draft → Placed → Draft → Prop
  | literal {outer level position} (literal : Literal) :
    Step ⟨outer, level, none⟩ ⟨.literal literal.first literal.more, position⟩
      ⟨outer, level, some (.literal literal)⟩
  | openParen {outer level position} :
    Step ⟨outer, level, none⟩ ⟨.openParen, position⟩ ⟨(position, level) :: outer, .empty, none⟩
  | closeParen {outer level position opened around factor} :
    Step ⟨(opened, around) :: outer, level, some factor⟩ ⟨.closeParen, position⟩
      ⟨outer, around, some (.group (level.close factor))⟩
  | sign {outer level position op signed} (h : level.sign? op = some signed) :
    Step ⟨outer, level, none⟩ ⟨.operator op, position⟩ ⟨outer, signed, none⟩
  | operator {outer level position factor op} :
    Step ⟨outer, level, some factor⟩ ⟨.operator op, position⟩ ⟨outer, level.more factor op, none⟩

/-- Every step that goes through is one of the steps. -/
theorem step_cases {draft next : Draft} {placed : Placed} (h : draft.step placed = .ok next) :
    Step draft placed next := by
  obtain ⟨outer, level, factor?⟩ := draft
  obtain ⟨lexeme, position⟩ := placed
  cases factor? with
  | none =>
    cases lexeme with
    | literal first more =>
      simp only [step] at h
      split at h
      · rename_i hle
        cases h
        exact .literal ⟨first, more, hle⟩
      · cases h
    | openParen =>
      cases h
      exact .openParen
    | operator op =>
      simp only [step] at h
      split at h
      · rename_i signed hs
        cases h
        exact .sign hs
      · cases h
    | closeParen => cases h
    | unknown c => cases h
  | some factor =>
    cases lexeme with
    | closeParen =>
      cases outer with
      | nil => cases h
      | cons group outer =>
        cases h
        exact .closeParen
    | operator op =>
      cases h
      exact .operator
    | literal first more => cases h
    | openParen => cases h
    | unknown c => cases h

/-- A literal may come where an operand is missing. -/
theorem isOk_step_literal {draft : Draft} {first : Char} {more : List Char} {position : Nat} :
    (∃ next, draft.step ⟨.literal first more, position⟩ = .ok next) ↔
      draft.factor? = none ∧ Decimal.value (first :: more) ≤ Decimal.int32Max := by
  obtain ⟨outer, level, factor?⟩ := draft
  cases factor? with
  | none =>
    by_cases hle : Decimal.value (first :: more) ≤ Decimal.int32Max <;> simp [step, hle]
  | some factor => simp [step]

/-- What is wrong where a step fails: the lexeme may not come next, or it is too large a
literal. -/
theorem step_error {draft : Draft} {placed : Placed} {e : ParseError}
    (h : draft.step placed = .error e) :
    e = .unexpected placed.lexeme.head placed.position ∨
      ∃ first more, placed.lexeme = .literal first more ∧
        Decimal.int32Max < Decimal.value (first :: more) ∧
        e = .overflow (String.ofList (first :: more)) placed.position := by
  unfold step at h
  split at h
  · split at h
    · cases h
    · rename_i hlexeme _ hlt
      cases h
      exact .inr ⟨_, _, hlexeme, Nat.lt_of_not_le hlt, rfl⟩
  · cases h
  · split at h
    · cases h; exact .inl rfl
    · cases h
  · split at h
    · cases h
    · cases h; exact .inl rfl
  · cases h
  · cases h; exact .inl rfl

/-- A step adds its lexeme to those that were read. -/
theorem lexemes_step {draft next : Draft} {placed : Placed} (h : draft.step placed = .ok next) :
    next.lexemes = draft.lexemes ++ [placed.lexeme] := by
  cases step_cases h with
  | literal literal => simp [lexemes, Factor.lexemes]
  | openParen =>
    simp [lexemes, outerLexemes, Level.empty, Level.lexemes, SumStart.lexemes,
      ProductStart.lexemes]
  | closeParen => simp [lexemes, outerLexemes, Factor.lexemes, Level.lexemes_close]
  | sign hs => simp [lexemes, Level.lexemes_of_sign? hs]
  | operator => simp [lexemes, Level.lexemes_more]

/-- **A draft keeps the lexemes that were read.** -/
theorem lexemes_run {draft next : Draft} {placed : List Placed} (h : draft.run placed = .ok next) :
    next.lexemes = draft.lexemes ++ placed.map Placed.lexeme := by
  induction placed generalizing draft with
  | nil =>
    cases h
    simp
  | cons first rest ih =>
    obtain ⟨middle, hstep, hrest⟩ := run_cons_eq_ok.1 h
    rw [ih hrest, lexemes_step hstep, List.map_cons, List.append_assoc]
    rfl

end Draft

end InfixCalc
