/-
# Parsing is derivation

An expression derives a text when the text spells its lexemes (`Expr.Derives`).  The grammar is
that of `Expr`: terms with `+` or `-` between them and perhaps a sign in front, factors with `*`
or `/` between them, and literals or groups.

Reading the lexemes of a tree leaves a draft that holds the whole tree
(`Factor.run_lexemes`, `Term.run_lexemes`, `Expr.run_lexemes`), so no two trees have the same
lexemes (`Expr.lexemes_injective`).  In turn a draft that ends well has been closed to a tree
with the lexemes that were read.  Together, a text is parsed exactly if a tree derives it, and
what comes out is the postfix sequence of that tree (`postfixOf_eq_ok_iff`).
-/

import InfixCalc.Proofs.Simulation
import InfixCalc.Proofs.Spelling

namespace InfixCalc

/-- The expression is a derivation of the text. -/
def Expr.Derives (e : Expr) (text : List Char) : Prop := Lexeme.Spells text e.lexemes

/-- What stands before the last factor of a term. -/
def Term.start : Term → ProductStart
  | .factor _ => .empty
  | .more left op _ => .more left op

/-- The last factor of a term. -/
def Term.last : Term → Factor
  | .factor f => f
  | .more _ _ right => right

/-- What stands before the last term of an expression. -/
def Expr.start : Expr → SumStart
  | .term _ => .empty
  | .signed sign _ => .sign sign
  | .more left op _ => .more left op

/-- The last term of an expression. -/
def Expr.last : Expr → Term
  | .term t => t
  | .signed _ t => t
  | .more _ _ right => right

/-- A term is its start closed by its last factor. -/
@[simp] theorem Term.close_start (t : Term) : t.start.close t.last = t := by
  cases t <;> rfl

/-- An expression is its start closed by its last term. -/
@[simp] theorem Expr.close_start (e : Expr) : e.start.close e.last = e := by
  cases e <;> rfl

/-- What stands before the last factor of an expression. -/
def Expr.level (e : Expr) : Level := ⟨e.start, e.last.start⟩

/-- An expression is its level closed by the last factor of its last term. -/
@[simp] theorem Expr.close_level (e : Expr) : e.level.close e.last.last = e := by
  simp [level, Level.close]

namespace Draft

/-- Reading an operator behind a factor. -/
theorem run_operator (outer : List (Nat × Level)) (level : Level) (factor : Factor)
    {op : Operator} {placed : Placed} (h : placed.lexeme = .operator op) (rest : List Placed) :
    run ⟨outer, level, some factor⟩ (placed :: rest) =
      run ⟨outer, level.more factor op, none⟩ rest := by
  obtain ⟨lexeme, position⟩ := placed
  obtain rfl : lexeme = .operator op := h
  rfl

end Draft

mutual

/-- **Reading the lexemes of a factor** where an operand may come next. -/
theorem Factor.run_lexemes (f : Factor) (outer : List (Nat × Level)) (level : Level)
    {placed : List Placed} (h : placed.map Placed.lexeme = f.lexemes) :
    Draft.run ⟨outer, level, none⟩ placed = .ok ⟨outer, level, some f⟩ := by
  match f with
  | .literal l =>
    simp only [Factor.lexemes, List.map_eq_singleton_iff] at h
    obtain ⟨⟨lexeme, position⟩, rfl, hl⟩ := h
    obtain rfl : lexeme = .literal l.first l.more := hl
    simp [Draft.run, Draft.step, l.value_le]
  | .group inner =>
    simp only [Factor.lexemes, List.cons_append, List.map_eq_cons_iff, List.map_eq_append_iff,
      List.map_eq_nil_iff] at h
    obtain ⟨⟨lexeme, opened⟩, rest, rfl, hopen, inside, behind, rfl, hinner, hclose⟩ := h
    obtain rfl : lexeme = .openParen := hopen
    obtain ⟨⟨lexeme, closed⟩, rest, rfl, hlexeme, rfl⟩ := hclose
    obtain rfl : lexeme = .closeParen := hlexeme
    have hstep : Draft.run ⟨outer, level, none⟩
        (⟨.openParen, opened⟩ :: (inside ++ [⟨.closeParen, closed⟩])) =
          Draft.run ⟨(opened, level) :: outer, .empty, none⟩
            (inside ++ [⟨.closeParen, closed⟩]) := rfl
    -- what stands in the parentheses is read at a level of its own
    rw [hstep, Draft.run_append_of_ok (inner.run_lexemes ((opened, level) :: outer) hinner)]
    simp [Draft.run, Draft.step]

/-- **Reading the lexemes of a term** where nothing of the term was read. -/
theorem Term.run_lexemes (t : Term) (outer : List (Nat × Level)) (sum : SumStart)
    {placed : List Placed} (h : placed.map Placed.lexeme = t.lexemes) :
    Draft.run ⟨outer, ⟨sum, .empty⟩, none⟩ placed = .ok ⟨outer, ⟨sum, t.start⟩, some t.last⟩ := by
  match t with
  | .factor f => exact f.run_lexemes outer ⟨sum, .empty⟩ h
  | .more left op right =>
    simp only [Term.lexemes, List.map_eq_append_iff, List.map_eq_cons_iff] at h
    obtain ⟨before, after, rfl, hl, operator, behind, rfl, ho, hr⟩ := h
    rw [Draft.run_append_of_ok (left.run_lexemes outer sum hl), Draft.run_operator _ _ _ ho,
      Level.more_mulOp, left.close_start]
    exact right.run_lexemes outer ⟨sum, .more left op⟩ hr

/-- **Reading the lexemes of an expression** at the start of a group or of the whole. -/
theorem Expr.run_lexemes (e : Expr) (outer : List (Nat × Level)) {placed : List Placed}
    (h : placed.map Placed.lexeme = e.lexemes) :
    Draft.run ⟨outer, .empty, none⟩ placed = .ok ⟨outer, e.level, some e.last.last⟩ := by
  match e with
  | .term t => exact t.run_lexemes outer .empty h
  | .signed sign t =>
    simp only [Expr.lexemes, List.map_eq_cons_iff] at h
    obtain ⟨⟨lexeme, position⟩, rest, rfl, hs, ht⟩ := h
    obtain rfl : lexeme = .operator sign.operator := hs
    have hstep : Draft.run ⟨outer, .empty, none⟩ (⟨.operator sign.operator, position⟩ :: rest) =
        Draft.run ⟨outer, ⟨.sign sign, .empty⟩, none⟩ rest := by cases sign <;> rfl
    rw [hstep]
    exact t.run_lexemes outer (.sign sign) ht
  | .more left op right =>
    simp only [Expr.lexemes, List.map_eq_append_iff, List.map_eq_cons_iff] at h
    obtain ⟨before, after, rfl, hl, operator, behind, rfl, ho, hr⟩ := h
    rw [Draft.run_append_of_ok (left.run_lexemes outer hl), Draft.run_operator _ _ _ ho,
      Level.more_addOp, left.close_level]
    exact right.run_lexemes outer (.more left op) hr

end

/-- **No two expressions have the same lexemes.** -/
theorem Expr.lexemes_injective {e e' : Expr} (h : e.lexemes = e'.lexemes) : e = e' := by
  have hplaced : (e.lexemes.map fun lexeme => (⟨lexeme, 0⟩ : Placed)).map Placed.lexeme =
      e.lexemes := by
    rw [List.map_map]
    exact List.map_id _
  have hrun := e.run_lexemes [] hplaced
  rw [e'.run_lexemes [] (hplaced.trans h)] at hrun
  injection hrun with hdraft
  injection hdraft with _ hlevel hlast
  injection hlast with hlast
  rw [← e.close_level, ← e'.close_level, hlevel, hlast]

/-- A draft that ends well is the derivation of what was read. -/
theorem Draft.lexemes_of_finish {draft : Draft} {text : List Char} {tokens : List Token}
    (h : draft.finish text = .ok tokens) :
    ∃ e : Expr, draft.lexemes = e.lexemes ∧ tokens = e.tokens false := by
  obtain ⟨outer, level, factor?⟩ := draft
  cases factor? with
  | none => cases h
  | some factor =>
    cases outer with
    | nil =>
      cases h
      exact ⟨level.close factor, by simp [lexemes, outerLexemes, Level.lexemes_close], rfl⟩
    | cons group outer => cases h

/-- **A text is parsed exactly if a tree derives it**, and then to the tree's postfix sequence. -/
theorem postfixOf_eq_ok_iff (text : List Char) (tokens : List Token) :
    postfixOf text = .ok tokens ↔ ∃ e : Expr, e.Derives text ∧ tokens = e.tokens false := by
  rw [postfixOf_eq]
  constructor
  · intro h
    cases hrun : Draft.start.run (Lexeme.read text) with
    | error e => rw [hrun] at h; cases h
    | ok draft =>
      rw [hrun] at h
      obtain ⟨e, hlexemes, htokens⟩ := Draft.lexemes_of_finish h
      refine ⟨e, Lexeme.spells_iff.2 ?_, htokens⟩
      have hread := Draft.lexemes_run hrun
      rw [← hlexemes, hread]
      rfl
  · rintro ⟨e, hd, rfl⟩
    have hrun : Draft.start.run (Lexeme.read text) = .ok ⟨[], e.level, some e.last.last⟩ :=
      e.run_lexemes [] (Lexeme.spells_iff.1 hd)
    rw [hrun]
    simp [Draft.finish]

/-- A text that is not blank is parsed by the yard. -/
theorem parse_eq (text : String) :
    parse text =
      if text.toList.all Text.isBlank then .error (.invalidArgument .blank)
      else postfixOf text.toList := by
  rw [parse, parse?, checkArgument]
  by_cases h : text.toList.all Text.isBlank
  · rw [if_pos h, if_pos h]
  · rw [if_neg h, if_neg h]

/-- A text of blanks would not be parsed either if it were read. -/
theorem parse_eq_ok_iff_postfixOf {text : String} {tokens : List Token} :
    parse text = .ok tokens ↔ postfixOf text.toList = .ok tokens := by
  rw [parse_eq]
  by_cases hblank : text.toList.all Text.isBlank
  · rw [if_pos hblank, postfixOf_eq, Lexeme.read_eq_nil_iff.2 hblank]
    constructor <;> exact fun h => by cases h
  · rw [if_neg hblank]

/-- A text that is parsed has a derivation with the tokens that come out. -/
theorem exists_derives_of_parse {text : String} {tokens : List Token}
    (h : parse text = .ok tokens) :
    ∃ e : Expr, e.Derives text.toList ∧ tokens = e.tokens false :=
  (postfixOf_eq_ok_iff text.toList tokens).1 (parse_eq_ok_iff_postfixOf.1 h)

/-- A text with a derivation is parsed. -/
theorem Expr.Derives.parse_eq_ok {e : Expr} {text : String} (h : e.Derives text.toList) :
    parse text = .ok (e.tokens false) :=
  parse_eq_ok_iff_postfixOf.2 ((postfixOf_eq_ok_iff text.toList (e.tokens false)).2 ⟨e, h, rfl⟩)

/-- A text has one derivation at most. -/
theorem Expr.Derives.unique {e e' : Expr} {text : List Char} (h : e.Derives text)
    (h' : e'.Derives text) : e = e' := by
  have hread := Lexeme.spells_iff.1 h
  exact Expr.lexemes_injective (hread.symm.trans (Lexeme.spells_iff.1 h'))

/-- **The language of the parser.**  A text is parsed exactly if it has a derivation, which is
then its only one, and what comes out is the postfix sequence of that. -/
theorem parse_eq_ok_iff_derives (text : String) (tokens : List Token) :
    (parse text = .ok tokens ↔ ∃ e : Expr, e.Derives text.toList ∧ tokens = e.tokens false) ∧
      ∀ e e' : Expr, e.Derives text.toList → e'.Derives text.toList → e = e' := by
  refine ⟨⟨exists_derives_of_parse, ?_⟩, fun e e' h h' => h.unique h'⟩
  rintro ⟨e, h, rfl⟩
  exact h.parse_eq_ok

/-- The sign of the whole comes last, and that of the group has a zero before its term. -/
theorem derives_of_two_signs :
    ∃ e : Expr, e.Derives "-2*(+3)".toList ∧
      [.number 2, .number 0, .number 3, .operator .add, .operator .mul, .operator .sub] =
        e.tokens false ∧
      ∀ e' : Expr, e'.Derives "-2*(+3)".toList → e' = e := by
  have hparse : parse "-2*(+3)" = .ok [.number 2, .number 0, .number 3, .operator .add,
      .operator .mul, .operator .sub] := rfl
  obtain ⟨hiff, hunique⟩ := parse_eq_ok_iff_derives "-2*(+3)" [.number 2, .number 0, .number 3,
    .operator .add, .operator .mul, .operator .sub]
  obtain ⟨e, hd, htokens⟩ := hiff.1 hparse
  exact ⟨e, hd, htokens, fun e' hd' => hunique e' e hd' hd⟩

end InfixCalc
