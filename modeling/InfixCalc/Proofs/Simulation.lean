/-
# The draft behind a yard

**`Draft.yard_step`**: a yard steps as the draft behind it does, with the same errors.  Since a
yard starts with an empty draft behind it, there is one behind every yard that is reached
(`Draft.yard_run`), and parsing a text is running a draft on its lexemes (`postfixOf_eq`).

Operators between terms release all operators of their group, and operators between factors
those of their term; this is what makes a level of at most two operators enough.
-/

import InfixCalc.Proofs.Draft

namespace InfixCalc

namespace Yard

/-- Closing a group writes the operators on top first. -/
theorem closeGroup_operators (ops : List Operator) (stack : List Waiting) (output : List Token) :
    closeGroup (ops.map .operator ++ stack) output =
      closeGroup stack ((ops.map Token.operator).reverse ++ output) := by
  induction ops generalizing output with
  | nil => rfl
  | cons op ops ih => simp [closeGroup, ih]

/-- Draining a stack writes the operators on top first. -/
theorem drain_operators (ops : List Operator) (stack : List Waiting) (output : List Token) :
    drain (ops.map .operator ++ stack) output =
      drain stack ((ops.map Token.operator).reverse ++ output) := by
  induction ops generalizing output with
  | nil => rfl
  | cons op ops ih => simp [drain, ih]

/-- No operator is released from an outer group. -/
theorem release_outerStack (op : Operator) (outer : List (Nat × Level)) (output : List Token) :
    release op (Draft.outerStack outer) output = (Draft.outerStack outer, output) := by
  cases outer <;> rfl

/-- An operator between terms waits for all operators of its group. -/
theorem release_addOp (op : AddOp) (ops : List Operator) (outer : List (Nat × Level))
    (output : List Token) :
    release op.operator (ops.map .operator ++ Draft.outerStack outer) output =
      (Draft.outerStack outer, (ops.map Token.operator).reverse ++ output) := by
  induction ops generalizing output with
  | nil => exact release_outerStack op.operator outer output
  | cons top ops ih =>
    have htop : ¬ top.precedence < op.operator.precedence := by
      cases top <;> cases op <;> decide
    simp only [List.map_cons, List.cons_append, release, if_neg htop, ih, List.reverse_cons,
      List.append_assoc, List.nil_append]

/-- An operator between factors waits for no operator between terms. -/
theorem release_sumStart (op : MulOp) (start : SumStart) (outer : List (Nat × Level))
    (output : List Token) :
    release op.operator (start.operators.map .operator ++ Draft.outerStack outer) output =
      (start.operators.map .operator ++ Draft.outerStack outer, output) := by
  have hlt (top : AddOp) : top.operator.precedence < op.operator.precedence := by
    cases top <;> cases op <;> decide
  cases start with
  | empty => exact release_outerStack op.operator outer output
  | sign top => exact if_pos (hlt top)
  | more left top => exact if_pos (hlt top)

/-- An operator between factors waits for the operators of its term. -/
theorem release_mulOp (op : MulOp) (level : Level) (outer : List (Nat × Level))
    (output : List Token) :
    release op.operator (level.operators.map .operator ++ Draft.outerStack outer) output =
      (level.sum.operators.map .operator ++ Draft.outerStack outer,
        (level.product.operators.map Token.operator).reverse ++ output) := by
  obtain ⟨sum, product⟩ := level
  cases product with
  | empty => exact release_sumStart op sum outer output
  | more left top =>
    have htop : ¬ top.operator.precedence < op.operator.precedence := by
      cases top <;> cases op <;> decide
    exact (if_neg htop).trans (release_sumStart op sum outer _)

/-- Behind a factor, an operator does to the yard what it does to the level. -/
theorem putOperator_level (outer : List (Nat × Level)) (level : Level) (factor : Factor)
    (op : Operator) :
    putOperator op (level.operators.map .operator ++ Draft.outerStack outer)
        (Draft.tokens ⟨outer, level, some factor⟩).reverse =
      Draft.yard ⟨outer, level.more factor op, none⟩ := by
  obtain ⟨op, rfl⟩ | ⟨op, rfl⟩ := op.eq_addOp_or_mulOp
  · rw [putOperator, release_addOp, Level.more_addOp]
    simp [Draft.yard, Draft.tokens, Draft.expected, Level.tokens, Level.operators,
      SumStart.operators, SumStart.tokens, ProductStart.operators, ProductStart.tokens,
      Level.tokens_close]
  · rw [putOperator, release_mulOp, Level.more_mulOp]
    simp [Draft.yard, Draft.tokens, Draft.expected, Level.tokens, Level.operators,
      ProductStart.operators, ProductStart.tokens, ProductStart.tokens_close]

/-- In front of the first factor, a sign does to the yard what it does to the level. -/
theorem putOperator_sign {level signed : Level} {op : Operator} (outer : List (Nat × Level))
    (h : level.sign? op = some signed) :
    putOperator op (level.operators.map .operator ++ Draft.outerStack outer)
        (signOutput (level.operators.map .operator ++ Draft.outerStack outer)
          (Draft.tokens ⟨outer, level, none⟩).reverse) =
      Draft.yard ⟨outer, signed, none⟩ := by
  obtain ⟨sign, rfl, rfl, rfl⟩ : ∃ sign : AddOp, level = .empty ∧ op = sign.operator ∧
      signed = ⟨.sign sign, .empty⟩ := by
    unfold Level.sign? at h
    split at h
    · exact ⟨.plus, rfl, rfl, by cases h; rfl⟩
    · exact ⟨.minus, rfl, rfl, by cases h; rfl⟩
    · cases h
  rw [putOperator, show Level.empty.operators = [] from rfl, List.map_nil, List.nil_append,
    release_outerStack]
  cases outer with
  | nil => rfl
  | cons group outer =>
    simp [Draft.yard, Draft.tokens, Draft.outerTokens, Draft.outerStack, Draft.expected,
      Level.empty, Level.tokens, Level.operators, SumStart.operators, SumStart.tokens,
      ProductStart.operators, ProductStart.tokens, signOutput, signOperand]

/-- Where an operand may come next, a literal is taken unless it is too large. -/
theorem step_literal {yard : Yard} (h : yard.expected ≠ .operator) (first : Char)
    (more : List Char) (position : Nat) :
    yard.step ⟨.literal first more, position⟩ =
      if Decimal.value (first :: more) ≤ Decimal.int32Max then
        .ok ⟨yard.stack, .number (Int32.ofInt (Decimal.value (first :: more))) :: yard.output,
          .operator⟩
      else .error (.overflow (String.ofList (first :: more)) position) := by
  obtain ⟨stack, output, expected⟩ := yard
  have hread : Decimal.int32OfDigits? false (first :: more) =
      if Decimal.value (first :: more) ≤ Decimal.int32Max then
        some (Int32.ofInt (Decimal.value (first :: more))) else none := by
    rw [Decimal.int32OfDigits?, if_neg Bool.false_ne_true, Decimal.valueWithin?_eq]
    split <;> rfl
  cases expected with
  | operator => exact absurd rfl h
  | groupStart =>
    by_cases hle : Decimal.value (first :: more) ≤ Decimal.int32Max <;> simp [step, hread, hle]
  | operand =>
    by_cases hle : Decimal.value (first :: more) ≤ Decimal.int32Max <;> simp [step, hread, hle]

/-- Where an operand may come next, a group may start. -/
theorem step_openParen {yard : Yard} (h : yard.expected ≠ .operator) (position : Nat) :
    yard.step ⟨.openParen, position⟩ =
      .ok ⟨.openParen position :: yard.stack, yard.output, .groupStart⟩ := by
  obtain ⟨stack, output, expected⟩ := yard
  cases expected with
  | operator => exact absurd rfl h
  | groupStart => rfl
  | operand => rfl

/-- Where an operand may come next, no group may end. -/
theorem step_closeParen {yard : Yard} (h : yard.expected ≠ .operator) (position : Nat) :
    yard.step ⟨.closeParen, position⟩ = .error (.unexpected ')' position) := by
  obtain ⟨stack, output, expected⟩ := yard
  cases expected with
  | operator => exact absurd rfl h
  | groupStart => rfl
  | operand => rfl

end Yard

namespace Draft

/-- Where an operand may come next, either nothing stands before it or no sign may. -/
theorem expected_cases (outer : List (Nat × Level)) (level : Level) :
    level = .empty ∧ expected ⟨outer, level, none⟩ = .groupStart ∨
      (∀ op, level.sign? op = none) ∧ expected ⟨outer, level, none⟩ = .operand := by
  obtain ⟨sum, product⟩ := level
  cases sum <;> cases product
  case empty.empty => exact .inl ⟨rfl, rfl⟩
  all_goals exact .inr ⟨fun _ => rfl, rfl⟩

/-- A yard steps as the draft behind it does where an operand may come next. -/
theorem yard_step_none (outer : List (Nat × Level)) (level : Level) (placed : Placed) :
    (yard ⟨outer, level, none⟩).step placed = (step ⟨outer, level, none⟩ placed).map yard := by
  obtain ⟨lexeme, position⟩ := placed
  have he := expected_cases outer level
  have hne : (yard ⟨outer, level, none⟩).expected ≠ .operator := by
    rcases he with ⟨-, he⟩ | ⟨-, he⟩ <;> simp [yard, he]
  cases lexeme with
  | literal first more =>
    rw [Yard.step_literal hne]
    by_cases hle : Decimal.value (first :: more) ≤ Decimal.int32Max
    · simp [step, hle, yard, tokens, Factor.tokens, Literal.value, expected, Except.map]
    · simp [step, hle, Except.map]
  | openParen =>
    rw [Yard.step_openParen hne]
    simp [step, Except.map, yard, tokens, outerTokens, outerStack, expected, Level.empty,
      Level.tokens, Level.operators, SumStart.tokens, SumStart.operators, ProductStart.tokens,
      ProductStart.operators]
  | closeParen => exact Yard.step_closeParen hne position
  | operator op =>
    -- a sign may come only where nothing of the group has been read
    rcases he with ⟨rfl, he⟩ | ⟨hl, he⟩
    · cases hs : Level.empty.sign? op with
      | none =>
        have hop : op.isSign = false := by rw [← Level.isSome_sign?_empty, hs]; rfl
        simp only [Yard.step, yard, he, hop, step, hs]
        rfl
      | some signed =>
        have hop : op.isSign = true := by rw [← Level.isSome_sign?_empty, hs]; rfl
        have hput := Yard.putOperator_sign outer hs
        simp only [Yard.step, yard, he, hop, step, hs, if_true]
        exact congrArg Except.ok hput
    · simp only [Yard.step, yard, he, step, hl]
      rfl
  | unknown c => rfl

/-- **A yard steps as the draft behind it does**, with the same errors. -/
theorem yard_step (draft : Draft) (placed : Placed) :
    draft.yard.step placed = (draft.step placed).map yard := by
  obtain ⟨outer, level, factor?⟩ := draft
  obtain ⟨lexeme, position⟩ := placed
  cases factor? with
  | none => exact yard_step_none outer level _
  | some factor =>
    cases lexeme with
    | closeParen =>
      simp only [Yard.step, yard, expected, Yard.closeGroup_operators]
      cases outer with
      | nil => rfl
      | cons group outer =>
        simp only [outerStack, Yard.closeGroup, step, Except.map, yard, tokens, outerTokens]
        simp [Factor.tokens, Level.tokens_close, expected]
    | operator op => exact congrArg Except.ok (Yard.putOperator_level outer level factor op)
    | literal first more => rfl
    | openParen => rfl
    | unknown c => rfl

/-- **A yard runs as the draft behind it does**, with the same errors. -/
theorem yard_run (draft : Draft) (placed : List Placed) :
    draft.yard.run placed = (draft.run placed).map yard := by
  induction placed generalizing draft with
  | nil => rfl
  | cons next rest ih =>
    rw [Yard.run, yard_step, run]
    cases draft.step next with
    | ok draft => exact ih draft
    | error e => rfl

/-- **A yard ends as the draft behind it does.** -/
theorem yard_finish (draft : Draft) (text : List Char) :
    draft.yard.finish text = draft.finish text := by
  obtain ⟨outer, level, factor?⟩ := draft
  cases factor? with
  | none =>
    have hne : expected ⟨outer, level, none⟩ ≠ .operator := by
      rcases expected_cases outer level with ⟨-, he⟩ | ⟨-, he⟩ <;> simp [he]
    rw [Yard.finish, yard, if_neg hne]
    rfl
  | some factor =>
    rw [Yard.finish, if_pos (show (yard ⟨outer, level, some factor⟩).expected = .operator from rfl),
      yard, Yard.drain_operators]
    cases outer with
    | nil =>
      simp [outerStack, Yard.drain, finish, Except.map, tokens, outerTokens, Level.tokens_close]
    | cons group outer => rfl

end Draft

/-- **A text is parsed as its draft says.** -/
theorem postfixOf_eq (text : List Char) :
    postfixOf text =
      match Draft.start.run (Lexeme.read text) with
      | .ok draft => draft.finish text
      | .error e => .error e := by
  have hrun := Draft.yard_run Draft.start (Lexeme.read text)
  rw [show Draft.start.yard = Yard.start from rfl] at hrun
  rw [postfixOf, hrun]
  cases Draft.start.run (Lexeme.read text) with
  | ok draft => exact draft.yard_finish text
  | error e => rfl

end InfixCalc
