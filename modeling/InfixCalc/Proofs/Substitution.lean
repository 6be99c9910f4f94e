/-
# A group stands for its value

Whatever surrounds a group, well formed or not, sees nothing of it but its value: another expression
with that value in its place gives the same result, or an error of the same kind.

Once a group has been read, it is one factor of the draft around it (`Draft.run_group`).  From there
on, drafts with different factors of the same value stay related (`Draft.Related.run`), and the
trees that they end with have the same outcome (`TreeCongruence.outcome`).
-/

import InfixCalc.Proofs.Congruence
import InfixCalc.Proofs.Parentheses

namespace InfixCalc

/-- The same value, or a division of the same dividend by zero, at any index. -/
inductive SameOutcome : Except EvalError Int32 → Except EvalError Int32 → Prop
  | value (v : Int32) : SameOutcome (.ok v) (.ok v)
  | divideByZero (dividend : Int32) {index index' : Nat} :
    SameOutcome (.error (.divideByZero dividend index)) (.error (.divideByZero dividend index'))

/-- What comes after an operand has the same outcome if it has it for every value. -/
theorem SameOutcome.bind {x x' : Except EvalError Int32} {f f' : Int32 → Except EvalError Int32}
    (hx : SameOutcome x x') (hf : ∀ v, SameOutcome (f v) (f' v)) :
    SameOutcome (x.bind f) (x'.bind f') := by
  cases hx with
  | value v => exact hf v
  | divideByZero dividend => exact .divideByZero dividend

/-- The index decides where a division fails, not whether. -/
theorem MulOp.sameOutcome (index index' : Nat) (a b : Int32) (op : MulOp) :
    SameOutcome (op.value index a b) (op.value index' a b) := by
  cases op with
  | times => exact .value (a * b)
  | dividedBy =>
    by_cases hb : b = 0
    · simp only [value, if_pos hb]
      exact .divideByZero a
    · simp only [value, if_neg hb]
      exact .value (a / b)

/-- The value of a product is that of its parts, from left to right. -/
theorem Term.value_more (index : Nat) (left : Term) (op : MulOp) (right : Factor) :
    (Term.more left op right).value index =
      (left.value index).bind fun a =>
        (right.value (index + left.tokens.length)).bind fun b =>
          op.value (index + left.tokens.length + right.tokens.length) a b := by
  rw [Term.value]
  cases left.value index with
  | error e => rfl
  | ok a =>
    simp only [Except.bind]
    cases right.value (index + left.tokens.length) <;> rfl

/-- The value of a signed sum is that of its term, with the sign. -/
theorem Expr.value_signed (inGroup : Bool) (index : Nat) (sign : AddOp) (t : Term) :
    (Expr.signed sign t).value inGroup index =
      (t.value (index + (signOperand inGroup).length)).bind fun b => .ok (sign.value 0 b) := by
  rw [Expr.value]
  cases t.value (index + (signOperand inGroup).length) <;> rfl

/-- The value of a sum is that of its parts, from left to right. -/
theorem Expr.value_more (inGroup : Bool) (index : Nat) (left : Expr) (op : AddOp) (right : Term) :
    (Expr.more left op right).value inGroup index =
      (left.value inGroup index).bind fun a =>
        (right.value (index + (left.tokens inGroup).length)).bind fun b =>
          .ok (op.value a b) := by
  rw [Expr.value]
  cases left.value inGroup index with
  | error e => rfl
  | ok a =>
    simp only [Except.bind]
    cases right.value (index + (left.tokens inGroup).length) <;> rfl

/-- **Trees of the same outcome**, wherever their postfix sequences start, may replace each other
in any tree. -/
def TreeCongruence.outcome : TreeCongruence where
  factor f f' := ∀ index index', SameOutcome (f.value index) (f'.value index')
  term t t' := ∀ index index', SameOutcome (t.value index) (t'.value index')
  expr e e' := ∀ inGroup index index',
    SameOutcome (e.value inGroup index) (e'.value inGroup index')
  literal l _ _ := .value l.value
  group h index index' := h true index index'
  ofFactor h := h
  moreFactors op ht hf index index' := by
    rw [Term.value_more, Term.value_more]
    exact (ht index index').bind fun a => (hf _ _).bind fun b => op.sameOutcome _ _ a b
  ofTerm h _ := h
  signed sign h inGroup index index' := by
    rw [Expr.value_signed, Expr.value_signed]
    exact (h _ _).bind fun b => .value (sign.value 0 b)
  moreTerms op he ht inGroup index index' := by
    rw [Expr.value_more, Expr.value_more]
    exact (he inGroup index index').bind fun a => (ht _ _).bind fun b => .value (op.value a b)

/-- What has a value without parentheses has it within them, wherever they are. -/
theorem Expr.value_true_of_ok {e : Expr} {v : Int32} (h : e.value false 0 = .ok v) (index : Nat) :
    e.value true index = .ok v := by
  rw [e.value_true, ← Nat.zero_add (index + _), e.value_add, h]
  rfl

/-- A text with a value has a derivation with this value. -/
theorem exists_derives_of_calculate {text : String} {v : Int32}
    (h : calculate (some text) = .ok v) :
    ∃ e : Expr, e.Derives text.toList ∧ e.value false 0 = .ok v := by
  rw [calculate_eq] at h
  cases hparse : parse text with
  | error err => rw [hparse] at h; cases h
  | ok tokens =>
    obtain ⟨e, hd, rfl⟩ := exists_derives_of_parse hparse
    simp only [hparse, e.evaluate_tokens] at h
    cases hvalue : e.value false 0 with
    | error err => rw [hvalue] at h; cases h
    | ok value =>
      rw [hvalue] at h
      cases h
      exact ⟨e, hd, hvalue⟩

/-- The lexemes of a text are the same wherever it starts. -/
theorem Lexeme.map_lexeme_readFrom (position position' : Nat) (text : List Char) :
    (readFrom position text).map Placed.lexeme = (readFrom position' text).map Placed.lexeme := by
  obtain ⟨lexemes, h⟩ := exists_spells text
  rw [h.map_readFrom, h.map_readFrom]

/-- Reading a group in a context: what stands before it must be readable and must lack an operand,
and then the group is one factor for what comes behind it. -/
theorem Draft.run_group (before : List Char) {inner : List Char} {e : Expr} (h : e.Derives inner)
    (after : List Char) :
    start.run (Lexeme.read (before ++ '(' :: (inner ++ ')' :: after))) =
      match start.run (Lexeme.read before) with
      | .error err => .error err
      | .ok draft =>
        match draft.factor? with
        | some _ => .error (.unexpected '(' before.length)
        | none => run ⟨draft.outer, draft.level, some (.group e)⟩
            (Lexeme.readFrom (before.length + 1 + inner.length + 1) after) := by
  have hcut : ∀ c ∈ ('(' :: (inner ++ ')' :: after)).head?, ¬ c.isDigit :=
    Lexeme.not_isDigit_of_mem_head?_cons (by decide) _
  rw [Lexeme.read_append (.inr hcut), run_append, Lexeme.readFrom_group]
  cases start.run (Lexeme.read before) with
  | error err => rfl
  | ok draft =>
    obtain ⟨outer, level, factor?⟩ := draft
    cases factor? with
    | some factor => rfl
    | none =>
      have hgroup : (⟨.openParen, before.length⟩ ::
          (Lexeme.readFrom (before.length + 1) inner ++
            [⟨.closeParen, before.length + 1 + inner.length⟩])).map Placed.lexeme =
            (Factor.group e).lexemes := by
        rw [List.map_cons, List.map_append, h.map_readFrom]
        rfl
      have hrun := (Factor.group e).run_lexemes outer level hgroup
      -- the draft comes back to the level where it was, with the group as its operand
      change run ⟨outer, level, none⟩ _ = run ⟨outer, level, some (.group e)⟩ _
      rw [← run_append_of_ok hrun]
      simp only [List.cons_append, List.append_assoc, List.nil_append]

/-- **Related groups in one context** give related postfix sequences, or like errors. -/
theorem postfixOf_group_agree {r : TreeCongruence} {inner inner' : List Char} {e e' : Expr}
    (h : e.Derives inner) (h' : e'.Derives inner') (hr : r.factor (.group e) (.group e'))
    (before after : List Char) :
    Agree r.tokens (postfixOf (before ++ '(' :: (inner ++ ')' :: after)))
      (postfixOf (before ++ '(' :: (inner' ++ ')' :: after))) := by
  have hstart : Draft.start.Related r Draft.start := .refl Draft.start
  rw [postfixOf_eq, postfixOf_eq, Draft.run_group before h, Draft.run_group before h']
  obtain ⟨draft, draft', hrun, -, -⟩ | ⟨err, err', hrun, hrun', halike⟩ :=
    (hstart.run (rfl : (Lexeme.read before).map Placed.lexeme = _)).cases
  · rw [hrun]
    obtain ⟨outer, level, factor?⟩ := draft
    cases factor? with
    | some factor => exact .error .unexpected
    | none =>
      have hwhole : Draft.Related r ⟨outer, level, some (.group e)⟩
          ⟨outer, level, some (.group e')⟩ :=
        ⟨(Draft.Related.refl ⟨outer, level, none⟩).outer, .refl level, .some hr⟩
      exact hwhole.run_finish (Lexeme.map_lexeme_readFrom _ _ after) _ _
  · obtain rfl : err = err' := Except.error.inj (hrun.symm.trans hrun')
    rw [hrun]
    exact .error halike

/-- Groups with the same value are related. -/
theorem TreeCongruence.outcome_group {e e' : Expr} {v : Int32} (h : e.value false 0 = .ok v)
    (h' : e'.value false 0 = .ok v) : outcome.factor (.group e) (.group e') := by
  intro index index'
  rw [Factor.value, Factor.value, Expr.value_true_of_ok h, Expr.value_true_of_ok h']
  exact .value v

/-- A text with a parenthesis is more than blanks. -/
theorem parse_group (before inner after : String) :
    parse (before ++ "(" ++ inner ++ ")" ++ after) =
      postfixOf (before.toList ++ '(' :: (inner.toList ++ ')' :: after.toList)) := by
  have htext : (before ++ "(" ++ inner ++ ")" ++ after).toList =
      before.toList ++ '(' :: (inner.toList ++ ')' :: after.toList) := by
    simp [String.toList_append]
  have hblank : ¬ (before.toList ++ '(' :: (inner.toList ++ ')' :: after.toList)).all
      Text.isBlank := by
    intro hall
    have hopen := List.all_eq_true.1 hall '(' (by simp)
    exact absurd hopen (by decide)
  rw [parse_eq, htext, if_neg hblank]

/-- **A group stands for its value.**  In any text, well formed or not, an expression in parentheses
may be replaced by another of the same value: both texts have the same value, or errors of one
kind, and these divide the same dividend if they divide by zero. -/
theorem calculate_group_congr {inner inner' : String} {value : Int32}
    (h : calculate (some inner) = .ok value) (h' : calculate (some inner') = .ok value)
    (before after : String) :
    (∃ result, calculate (some (before ++ "(" ++ inner ++ ")" ++ after)) = .ok result ∧
        calculate (some (before ++ "(" ++ inner' ++ ")" ++ after)) = .ok result) ∨
      ∃ err err', calculate (some (before ++ "(" ++ inner ++ ")" ++ after)) = .error err ∧
        calculate (some (before ++ "(" ++ inner' ++ ")" ++ after)) = .error err' ∧
        err.kind = err'.kind ∧
        (err.kind = .divideByZero → ∃ dividend index index',
          err = .eval (.divideByZero dividend index) ∧
            err' = .eval (.divideByZero dividend index')) := by
  obtain ⟨e, hd, hvalue⟩ := exists_derives_of_calculate h
  obtain ⟨e', hd', hvalue'⟩ := exists_derives_of_calculate h'
  rw [calculate_eq, calculate_eq, parse_group, parse_group]
  obtain ⟨tokens, tokens', hok, hok', whole, whole', houtcome, rfl, rfl⟩ |
      ⟨err, err', herr, herr', halike⟩ :=
    (postfixOf_group_agree hd hd' (TreeCongruence.outcome_group hvalue hvalue') before.toList
      after.toList).cases
  · simp only [hok, hok', Expr.evaluate_tokens]
    have hsame : SameOutcome (whole.value false 0) (whole'.value false 0) := houtcome false 0 0
    -- the trees around the groups are related, so they are worth the same or divide by zero alike
    generalize whole.value false 0 = x, whole'.value false 0 = x' at hsame
    cases hsame with
    | value v => exact .inl ⟨v, rfl, rfl⟩
    | divideByZero dividend =>
      exact .inr ⟨_, _, rfl, rfl, rfl, fun _ => ⟨dividend, _, _, rfl, rfl⟩⟩
  · simp only [herr, herr']
    refine .inr ⟨.parse err, .parse err', rfl, rfl, halike.kind_eq, fun hkind => ?_⟩
    cases halike with
    | unexpected => cases hkind
    | overflow literal => cases hkind

/-- `-3` in parentheses may stand for `4-7`, behind a product and before a division by zero; the
index of the division moves, and its dividend does not. -/
theorem calculate_group_negative :
    calculate (some "-3") = .ok (-3) ∧ calculate (some "(4)-7") = .ok (-3) ∧
      calculate (some "2*(-3)/0") = .error (.eval (.divideByZero (-6) 6)) ∧
      ∃ index, calculate (some "2*((4)-7)/0") = .error (.eval (.divideByZero (-6) index)) := by
  have h : calculate (some "-3") = .ok (-3) := rfl
  have h' : calculate (some "(4)-7") = .ok (-3) := rfl
  have hfirst : calculate (some "2*(-3)/0") = .error (.eval (.divideByZero (-6) 6)) := rfl
  refine ⟨h, h', hfirst, ?_⟩
  obtain ⟨result, hok, -⟩ | ⟨err, err', herr, herr', -, hdividend⟩ :=
    calculate_group_congr h h' "2*" "/0"
  · cases hfirst.symm.trans hok
  · obtain rfl : _ = err := Except.error.inj (hfirst.symm.trans herr)
    obtain ⟨dividend, index, index', heq, rfl⟩ := hdividend rfl
    cases heq
    exact ⟨index', herr'⟩

end InfixCalc
