/-
# Reading with other trees at other places

A draft keeps trees, and the positions of the groups that are open; but neither a tree nor a
position decides what may come next.  So two drafts that hold related trees take the same lexemes
and refuse the same lexemes, for every relation of trees that is kept by what is built on them
(`TreeCongruence`).  The trees that they end with are related again; and where they fail, their
errors differ at most in the place (`ParseError.Alike`).

`Draft.Related.step` is what one lexeme keeps, and `Draft.Related.run` what all of a text keeps.
-/

import InfixCalc.Proofs.Draft
import Mathlib.Data.List.Forall2

namespace InfixCalc

/-- Two errors that differ at most in where they are: both are an unexpected character, or both are
the same literal that is too large. -/
inductive ParseError.Alike : ParseError → ParseError → Prop
  | unexpected {c c' : Char} {position position' : Nat} :
    Alike (.unexpected c position) (.unexpected c' position')
  | overflow (literal : String) {position position' : Nat} :
    Alike (.overflow literal position) (.overflow literal position')

/-- Errors that are alike have the same kind. -/
theorem ParseError.Alike.kind_eq {e e' : ParseError} (h : e.Alike e') : e.kind = e'.kind := by
  cases h <;> rfl

/-- Both sides succeed with related results, or both fail with like errors. -/
inductive Agree {α β : Type} (R : α → β → Prop) : Except ParseError α → Except ParseError β → Prop
  | ok {a : α} {b : β} (related : R a b) : Agree R (.ok a) (.ok b)
  | error {e e' : ParseError} (alike : e.Alike e') : Agree R (.error e) (.error e')

/-- Outcomes that agree are two results that are related or two errors that are alike. -/
theorem Agree.cases {α β : Type} {R : α → β → Prop} {x : Except ParseError α}
    {y : Except ParseError β} (h : Agree R x y) :
    (∃ a b, x = .ok a ∧ y = .ok b ∧ R a b) ∨
      ∃ e e', x = .error e ∧ y = .error e' ∧ e.Alike e' := by
  cases h with
  | ok related => exact .inl ⟨_, _, rfl, rfl, related⟩
  | error alike => exact .inr ⟨_, _, rfl, rfl, alike⟩

/-- A relation between trees that is kept by whatever is built on them. -/
structure TreeCongruence where
  factor : Factor → Factor → Prop
  term : Term → Term → Prop
  expr : Expr → Expr → Prop
  literal (l : Literal) : factor (.literal l) (.literal l)
  group {e e' : Expr} (h : expr e e') : factor (.group e) (.group e')
  ofFactor {f f' : Factor} (h : factor f f') : term (.factor f) (.factor f')
  moreFactors {t t' : Term} {f f' : Factor} (op : MulOp) (ht : term t t') (hf : factor f f') :
    term (.more t op f) (.more t' op f')
  ofTerm {t t' : Term} (h : term t t') : expr (.term t) (.term t')
  signed {t t' : Term} (sign : AddOp) (h : term t t') : expr (.signed sign t) (.signed sign t')
  moreTerms {e e' : Expr} {t t' : Term} (op : AddOp) (he : expr e e') (ht : term t t') :
    expr (.more e op t) (.more e' op t')

namespace TreeCongruence

/-- Two postfix sequences of related expressions. -/
def tokens (r : TreeCongruence) (first second : List Token) : Prop :=
  ∃ e e' : Expr, r.expr e e' ∧ first = e.tokens false ∧ second = e'.tokens false

mutual

/-- A factor is related to itself, since its parts are. -/
theorem refl_factor (r : TreeCongruence) (f : Factor) : r.factor f f := by
  match f with
  | .literal l => exact r.literal l
  | .group inner => exact r.group (r.refl_expr inner)

/-- A term is related to itself, since its parts are. -/
theorem refl_term (r : TreeCongruence) (t : Term) : r.term t t := by
  match t with
  | .factor f => exact r.ofFactor (r.refl_factor f)
  | .more left op right => exact r.moreFactors op (r.refl_term left) (r.refl_factor right)

/-- An expression is related to itself, since its parts are. -/
theorem refl_expr (r : TreeCongruence) (e : Expr) : r.expr e e := by
  match e with
  | .term t => exact r.ofTerm (r.refl_term t)
  | .signed sign t => exact r.signed sign (r.refl_term t)
  | .more left op right => exact r.moreTerms op (r.refl_expr left) (r.refl_term right)

end

end TreeCongruence

variable {r : TreeCongruence}

/-- The starts of two sums, with related trees. -/
inductive SumStart.Related (r : TreeCongruence) : SumStart → SumStart → Prop
  | empty : Related r .empty .empty
  | sign (s : AddOp) : Related r (.sign s) (.sign s)
  | more {left left' : Expr} (op : AddOp) (h : r.expr left left') :
    Related r (.more left op) (.more left' op)

/-- The starts of two products, with related trees. -/
inductive ProductStart.Related (r : TreeCongruence) : ProductStart → ProductStart → Prop
  | empty : Related r .empty .empty
  | more {left left' : Term} (op : MulOp) (h : r.term left left') :
    Related r (.more left op) (.more left' op)

/-- Two levels with related trees. -/
structure Level.Related (r : TreeCongruence) (level level' : Level) : Prop where
  sum : level.sum.Related r level'.sum
  product : level.product.Related r level'.product

/-- Two drafts with related trees.  Their groups may have been opened at different places. -/
structure Draft.Related (r : TreeCongruence) (draft draft' : Draft) : Prop where
  outer : List.Forall₂ (fun group group' => group.2.Related r group'.2) draft.outer draft'.outer
  level : draft.level.Related r draft'.level
  factor? : Option.Rel r.factor draft.factor? draft'.factor?

namespace SumStart

/-- The start of a sum is related to itself. -/
theorem Related.refl (start : SumStart) : start.Related r start := by
  cases start with
  | empty => exact .empty
  | sign s => exact .sign s
  | more left op => exact .more op (r.refl_expr left)

/-- Related starts of sums with related terms after them make related sums. -/
theorem Related.close {start start' : SumStart} (h : start.Related r start') {t t' : Term}
    (ht : r.term t t') : r.expr (start.close t) (start'.close t') := by
  cases h with
  | empty => exact r.ofTerm ht
  | sign s => exact r.signed s ht
  | more op hleft => exact r.moreTerms op hleft ht

end SumStart

namespace ProductStart

/-- The start of a product is related to itself. -/
theorem Related.refl (start : ProductStart) : start.Related r start := by
  cases start with
  | empty => exact .empty
  | more left op => exact .more op (r.refl_term left)

/-- Related starts of products with related factors after them make related products. -/
theorem Related.close {start start' : ProductStart} (h : start.Related r start') {f f' : Factor}
    (hf : r.factor f f') : r.term (start.close f) (start'.close f') := by
  cases h with
  | empty => exact r.ofFactor hf
  | more op hleft => exact r.moreFactors op hleft hf

end ProductStart

namespace Level

/-- A level is related to itself. -/
theorem Related.refl (level : Level) : level.Related r level :=
  ⟨.refl level.sum, .refl level.product⟩

/-- Related levels with related factors at their ends make related sums. -/
theorem Related.close {level level' : Level} (h : level.Related r level') {f f' : Factor}
    (hf : r.factor f f') : r.expr (level.close f) (level'.close f') :=
  h.sum.close (h.product.close hf)

/-- Related levels stay related when related factors and the same operator follow. -/
theorem Related.more {level level' : Level} (h : level.Related r level') {f f' : Factor}
    (hf : r.factor f f') (op : Operator) : (level.more f op).Related r (level'.more f' op) := by
  obtain ⟨op, rfl⟩ | ⟨op, rfl⟩ := op.eq_addOp_or_mulOp
  · rw [more_addOp, more_addOp]
    exact ⟨.more op (h.close hf), .empty⟩
  · rw [more_mulOp, more_mulOp]
    exact ⟨h.sum, .more op (h.product.close hf)⟩

/-- A sign may stand in both places or in neither. -/
theorem Related.sign? {level level' : Level} (h : level.Related r level') (op : Operator) :
    Option.Rel (Related r) (level.sign? op) (level'.sign? op) := by
  obtain ⟨sum, product⟩ := level
  obtain ⟨sum', product'⟩ := level'
  obtain ⟨hsum, hproduct⟩ := h
  cases hsum with
  | empty =>
    cases hproduct with
    | empty =>
      cases op with
      | add => exact .some ⟨.sign .plus, .empty⟩
      | sub => exact .some ⟨.sign .minus, .empty⟩
      | mul => exact .none
      | div => exact .none
    | more op' hleft => exact .none
  | sign s => exact .none
  | more op' hleft => exact .none

end Level

namespace Draft

/-- A draft is related to itself. -/
theorem Related.refl (draft : Draft) : draft.Related r draft where
  outer := List.forall₂_same.2 fun group _ => .refl group.2
  level := .refl draft.level
  factor? := by
    cases draft.factor? with
    | none => exact .none
    | some factor => exact .some (r.refl_factor factor)

/-- **One lexeme** keeps drafts related, or is refused by both with like errors. -/
theorem Related.step {draft draft' : Draft} (h : draft.Related r draft') {placed placed' : Placed}
    (hlexeme : placed.lexeme = placed'.lexeme) :
    Agree (Related r) (draft.step placed) (draft'.step placed') := by
  obtain ⟨outer, level, factor?⟩ := draft
  obtain ⟨outer', level', factor?'⟩ := draft'
  obtain ⟨houter, hlevel, hfactor⟩ := h
  obtain ⟨lexeme, position⟩ := placed
  obtain ⟨lexeme', position'⟩ := placed'
  obtain rfl : lexeme = lexeme' := hlexeme
  cases hfactor with
  | none =>
    cases lexeme with
    | literal first more =>
      by_cases hle : Decimal.value (first :: more) ≤ Decimal.int32Max
      · simp only [Draft.step, dif_pos hle]
        exact .ok ⟨houter, hlevel, .some (r.literal ⟨first, more, hle⟩)⟩
      · simp only [Draft.step, dif_neg hle]
        exact .error (.overflow _)
    | openParen => exact .ok ⟨.cons hlevel houter, .refl .empty, .none⟩
    | operator op =>
      have hsign := hlevel.sign? op
      simp only [Draft.step]
      -- both levels take the sign or neither does
      generalize level.sign? op = signed, level'.sign? op = signed' at hsign
      cases hsign with
      | none => exact .error .unexpected
      | some hsigned => exact .ok ⟨houter, hsigned, .none⟩
    | closeParen => exact .error .unexpected
    | unknown c => exact .error .unexpected
  | some hf =>
    cases lexeme with
    | closeParen =>
      cases houter with
      | nil => exact .error .unexpected
      | cons haround houter =>
        exact .ok ⟨houter, haround, .some (r.group (hlevel.close hf))⟩
    | operator op => exact .ok ⟨houter, hlevel.more hf op, .none⟩
    | literal first more => exact .error .unexpected
    | openParen => exact .error .unexpected
    | unknown c => exact .error .unexpected

/-- **A whole text** keeps drafts related, or fails in both with like errors. -/
theorem Related.run {draft draft' : Draft} (h : draft.Related r draft')
    {placed placed' : List Placed}
    (hlexemes : placed.map Placed.lexeme = placed'.map Placed.lexeme) :
    Agree (Related r) (draft.run placed) (draft'.run placed') := by
  induction placed generalizing draft draft' placed' with
  | nil =>
    obtain rfl : placed' = [] := List.map_eq_nil_iff.1 hlexemes.symm
    exact .ok h
  | cons next rest ih =>
    obtain ⟨next', rest', rfl, hnext, hrest⟩ := List.map_eq_cons_iff.1 hlexemes.symm
    rw [Draft.run, Draft.run]
    obtain ⟨middle, middle', hm, hm', hmiddle⟩ | ⟨e, e', he, he', halike⟩ :=
      (h.step hnext.symm).cases
    · rw [hm, hm']
      exact ih hmiddle hrest.symm
    · rw [he, he']
      exact .error halike

/-- **At the end of a text** related drafts have the postfix sequences of related trees, or like
errors. -/
theorem Related.finish {draft draft' : Draft} (h : draft.Related r draft')
    (text text' : List Char) :
    Agree r.tokens (draft.finish text) (draft'.finish text') := by
  obtain ⟨outer, level, factor?⟩ := draft
  obtain ⟨outer', level', factor?'⟩ := draft'
  obtain ⟨houter, hlevel, hfactor⟩ := h
  cases hfactor with
  | none => exact .error .unexpected
  | some hf =>
    cases houter with
    | nil => exact .ok ⟨_, _, hlevel.close hf, rfl, rfl⟩
    | cons haround houter => exact .error .unexpected

/-- Related drafts that read the same lexemes to the end of their texts end alike. -/
theorem Related.run_finish {draft draft' : Draft} (h : draft.Related r draft')
    {placed placed' : List Placed} (hlexemes : placed.map Placed.lexeme = placed'.map Placed.lexeme)
    (text text' : List Char) :
    Agree r.tokens
      (match draft.run placed with
        | .ok draft => draft.finish text
        | .error e => .error e)
      (match draft'.run placed' with
        | .ok draft => draft.finish text'
        | .error e => .error e) := by
  obtain ⟨last, last', hrun, hrun', hlast⟩ | ⟨e, e', hrun, hrun', halike⟩ := (h.run hlexemes).cases
  · rw [hrun, hrun']
    exact hlast.finish text text'
  · rw [hrun, hrun']
    exact .error halike

end Draft

end InfixCalc
