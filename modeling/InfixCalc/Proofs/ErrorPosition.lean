/-
# Which error a text has

Whether a text can be parsed is decided at two places.  The first is the end of its longest viable
prefix: what comes there is wrong (`StopsAt`).  The other is its own end, if all of it is viable:
then something is missing (`EndsEarly`), an operand or a closing parenthesis, and the last
character that is no blank tells which.

**`parse_error_position`** puts both together.  In all cases the error points into the text, at the
character that it names (`ParseError.Located`).
-/

import InfixCalc.Proofs.Nesting
import InfixCalc.Proofs.Refusal
import Mathlib.Data.Nat.Find
import Mathlib.Order.Bounds.Defs

namespace InfixCalc

/-- Behind the character an operand is missing. -/
def AwaitsOperand (c : Char) : Prop := c = '(' ∨ ∃ op : Operator, c = op.symbol

/-- The error that tells that something is missing at the end of a text: an operand, or what
closes the innermost open group. -/
def EndsEarly (text : List Char) (e : ParseError) : Prop :=
  ∃ c ∈ (text.filter fun c => !Text.isBlank c).getLast?,
    (AwaitsOperand c ∧ ∃ d ∈ text.getLast?, e = .unexpected d (text.length - 1)) ∨
      ¬ AwaitsOperand c ∧ ∃ q ∈ (unclosed text).head?, (∀ r ∈ unclosed text, r ≤ q) ∧
        e = .unexpected '(' q

/-- The error points into the text, and what it names stands there. -/
def ParseError.Located (text : List Char) : ParseError → Prop
  | invalidArgument _ => False
  | unexpected c position => text[position]? = some c
  | overflow literal position => literal.toList ≠ [] ∧ literal.toList <+: text.drop position

/-- An error where reading stops names what stands in the text there. -/
theorem StopsAt.located {text : List Char} {place : Nat} {e : ParseError}
    (h : StopsAt text place e) : e.Located text := by
  rcases h with ⟨-, start, run, hrun, hle, hlt, rfl⟩ | ⟨-, c, hc, rfl⟩
  · obtain ⟨before, after, rfl, rfl, -⟩ := hrun
    have hne : run ≠ [] := by
      rintro rfl
      rw [List.length_nil] at hlt
      omega
    rw [ParseError.Located, String.toList_ofList, List.drop_left]
    exact ⟨hne, List.prefix_append run after⟩
  · exact hc

/-- An error at an early end names what stands in the text at its place. -/
theorem EndsEarly.located {text : List Char} {e : ParseError} (h : EndsEarly text e) :
    e.Located text := by
  obtain ⟨c, -, ⟨-, d, hd, rfl⟩ | ⟨-, q, hq, -, rfl⟩⟩ := h
  · rw [ParseError.Located, ← List.getLast?_eq_getElem?]
    exact hd
  · exact getElem?_of_mem_unclosed (List.mem_of_mem_head? hq)

/-- Behind the lexeme an operand is missing. -/
def Lexeme.awaitsOperand : Lexeme → Bool
  | openParen | operator _ => true
  | literal _ _ | closeParen | unknown _ => false

/-- The last character of a lexeme tells whether an operand is missing behind it. -/
theorem Lexeme.WellFormed.awaitsOperand_iff {lexeme : Lexeme} (hw : lexeme.WellFormed) {c : Char}
    (hc : c ∈ lexeme.chars.getLast?) : AwaitsOperand c ↔ lexeme.awaitsOperand := by
  have hclass : AwaitsOperand c ↔
      CharClass.of c = .openParen ∨ ∃ op, CharClass.of c = .operator op := by
    simp only [AwaitsOperand, CharClass.of_eq_openParen_iff, CharClass.of_eq_operator_iff]
  cases lexeme with
  | literal first more =>
    have hdigit := CharClass.of_eq_digit_iff.2 (hw c (List.mem_of_getLast? hc))
    simp [hclass, hdigit, awaitsOperand]
  | openParen =>
    obtain rfl : '(' = c := Option.some.inj hc
    exact iff_of_true (.inl rfl) rfl
  | closeParen =>
    obtain rfl : ')' = c := Option.some.inj hc
    have hclose := CharClass.of_eq_closeParen_iff.2 (rfl : ')' = ')')
    simp [hclass, hclose, awaitsOperand]
  | operator op =>
    obtain rfl : op.symbol = c := Option.some.inj hc
    exact iff_of_true (.inr ⟨op, rfl⟩) rfl
  | unknown d =>
    obtain rfl : d = c := Option.some.inj hc
    have hother : CharClass.of d = .other := hw
    simp [hclass, hother, awaitsOperand]

/-- Behind a factor no operand is missing. -/
theorem Factor.exists_lexemes_eq (factor : Factor) :
    ∃ front last, factor.lexemes = front ++ [last] ∧ last.awaitsOperand = false := by
  cases factor with
  | literal l => exact ⟨[], .literal l.first l.more, rfl, rfl⟩
  | group inner => exact ⟨.openParen :: inner.lexemes, .closeParen, rfl, rfl⟩

/-- **The last lexeme of a draft** tells whether an operand is missing. -/
theorem Draft.exists_lexemes_eq {draft : Draft} (h : draft.lexemes ≠ []) :
    ∃ front last, draft.lexemes = front ++ [last] ∧
      last.awaitsOperand = draft.factor?.isNone := by
  obtain ⟨outer, ⟨sum, product⟩, factor?⟩ := draft
  cases factor? with
  | some factor =>
    obtain ⟨front, last, hfactor, hlast⟩ := factor.exists_lexemes_eq
    refine ⟨outerLexemes outer ++ Level.lexemes ⟨sum, product⟩ ++ front, last, ?_, hlast⟩
    simp [lexemes, hfactor]
  | none =>
    -- the last lexeme is the operator before the missing factor, or what opens its group
    cases product with
    | more left op =>
      refine ⟨outerLexemes outer ++ sum.lexemes ++ left.lexemes, .operator op.operator, ?_, rfl⟩
      simp [lexemes, Level.lexemes, ProductStart.lexemes]
    | empty =>
      cases sum with
      | more left op =>
        refine ⟨outerLexemes outer ++ left.lexemes, .operator op.operator, ?_, rfl⟩
        simp [lexemes, Level.lexemes, SumStart.lexemes, ProductStart.lexemes]
      | sign op =>
        refine ⟨outerLexemes outer, .operator op.operator, ?_, rfl⟩
        simp [lexemes, Level.lexemes, SumStart.lexemes, ProductStart.lexemes]
      | empty =>
        cases outer with
        | nil => exact absurd rfl h
        | cons group outer =>
          refine ⟨outerLexemes outer ++ group.2.lexemes, .openParen, ?_, rfl⟩
          simp [lexemes, outerLexemes, Level.lexemes, SumStart.lexemes, ProductStart.lexemes]

/-- The last character of a text that is no blank is that of its last lexeme. -/
theorem Lexeme.Spells.mem_getLast? {text : List Char} {front : List Lexeme} {last : Lexeme}
    (h : Spells text (front ++ [last])) :
    ∃ c ∈ (text.filter fun c => !Text.isBlank c).getLast?,
      (AwaitsOperand c ↔ last.awaitsOperand) := by
  have hne : last.chars ≠ [] := by cases last <;> exact List.cons_ne_nil _ _
  obtain ⟨c, hc⟩ := Option.ne_none_iff_exists'.1 (mt List.getLast?_eq_none_iff.1 hne)
  have hw : last.WellFormed := h.wellFormed last (List.mem_append_right front List.mem_cons_self)
  refine ⟨c, ?_, hw.awaitsOperand_iff hc⟩
  rw [← h.flatMap_chars, List.flatMap_append, List.flatMap_singleton, List.getLast?_append, hc]
  rfl

/-- **The draft of a text that is viable as a whole.**  The last character that is no blank tells
whether it misses an operand. -/
theorem exists_draft_of_live {text : List Char} (hlive : Live text)
    (hblank : ¬ text.all Text.isBlank) :
    ∃ draft, Draft.start.run (Lexeme.read text) = .ok draft ∧
      ∃ c ∈ (text.filter fun c => !Text.isBlank c).getLast?,
        (AwaitsOperand c ↔ draft.factor?.isNone) := by
  obtain ⟨draft, hrun⟩ := hlive
  have hlexemes : draft.lexemes = (Lexeme.read text).map Placed.lexeme := Draft.lexemes_run hrun
  have hne : draft.lexemes ≠ [] := by
    rw [hlexemes, Ne, List.map_eq_nil_iff, Lexeme.read_eq_nil_iff]
    exact hblank
  obtain ⟨front, last, heq, hlast⟩ := Draft.exists_lexemes_eq hne
  have hspells : Lexeme.Spells text (front ++ [last]) := Lexeme.spells_iff.2 (heq ▸ hlexemes.symm)
  obtain ⟨c, hc, hawaits⟩ := hspells.mem_getLast?
  rw [hlast] at hawaits
  exact ⟨draft, hrun, c, hc, hawaits⟩

/-- If an operand is missing at the end of a text, its last character is the unexpected one. -/
theorem Draft.finish_of_none {draft : Draft} (h : draft.factor? = none) {text : List Char}
    (hne : text ≠ []) :
    ∃ d ∈ text.getLast?, draft.finish text = .error (.unexpected d (text.length - 1)) := by
  obtain ⟨outer, level, factor?⟩ := draft
  obtain rfl : factor? = none := h
  obtain ⟨d, hd⟩ := Option.ne_none_iff_exists'.1 (mt List.getLast?_eq_none_iff.1 hne)
  have hget : text[text.length - 1]? = some d := by rw [← List.getLast?_eq_getElem?, hd]
  exact ⟨d, hd, by simp [Draft.finish, ParseError.unexpectedAt, hget]⟩

/-- **A text that is viable as a whole** is parsed, or something is missing at its end. -/
theorem postfixOf_of_live {text : List Char} (hlive : Live text)
    (hblank : ¬ text.all Text.isBlank) :
    (∃ tokens, postfixOf text = .ok tokens) ∨
      ∃ e, postfixOf text = .error e ∧ EndsEarly text e := by
  obtain ⟨draft, hrun, c, hc, hawaits⟩ := exists_draft_of_live hlive hblank
  have houter := Draft.outer_of_read hrun
  rw [postfixOf_eq, hrun]
  cases hfactor : draft.factor? with
  | none =>
    have hne : text ≠ [] := by
      rintro rfl
      exact hblank rfl
    obtain ⟨d, hd, hfinish⟩ := Draft.finish_of_none hfactor hne
    rw [hfactor] at hawaits
    exact .inr ⟨_, hfinish, c, hc, .inl ⟨hawaits.2 rfl, d, hd, rfl⟩⟩
  | some factor =>
    obtain ⟨outer, level, factor?⟩ := draft
    obtain rfl : factor? = some factor := hfactor
    have hnot : ¬ AwaitsOperand c := fun h => Bool.false_ne_true (hawaits.1 h)
    -- an operand is there, so only a group can be left open
    cases outer with
    | nil => exact .inl ⟨_, rfl⟩
    | cons group outer =>
      obtain ⟨opened, around⟩ := group
      have hhead : opened ∈ (unclosed text).head? := by
        rw [← houter]
        rfl
      exact .inr ⟨.unexpected '(' opened, rfl, c, hc,
        .inr ⟨hnot, opened, hhead, le_of_mem_unclosed hhead, rfl⟩⟩

/-- A text with a last character that is not blank is not blank. -/
theorem not_all_isBlank {text : List Char} {c : Char}
    (hc : c ∈ (text.filter fun c => !Text.isBlank c).getLast?) : ¬ text.all Text.isBlank := by
  obtain ⟨hmem, hsolid⟩ := List.mem_filter.1 (List.mem_of_getLast? hc)
  intro hall
  rw [List.all_eq_true.1 hall c hmem] at hsolid
  cases hsolid

/-- **An operand that is missing** is reported at the last character of the text. -/
theorem postfixOf_of_awaitsOperand {text : List Char} (hlive : Live text) {c : Char}
    (hc : c ∈ (text.filter fun c => !Text.isBlank c).getLast?) (hawaits : AwaitsOperand c) :
    ∃ d ∈ text.getLast?, postfixOf text = .error (.unexpected d (text.length - 1)) := by
  have hblank : ¬ text.all Text.isBlank := not_all_isBlank hc
  have hne : text ≠ [] := by
    rintro rfl
    exact hblank rfl
  obtain ⟨draft, hrun, c', hc', hiff⟩ := exists_draft_of_live hlive hblank
  obtain rfl : c = c' := Option.some.inj (hc.symm.trans hc')
  rw [postfixOf_eq, hrun]
  exact Draft.finish_of_none (Option.isNone_iff_eq_none.1 (hiff.1 hawaits)) hne

/-- A text has a longest viable prefix, since nothing at all is viable. -/
theorem exists_longest_viable (text : List Char) :
    ∃ place, IsGreatest {k | k ≤ text.length ∧ Viable (text.take k)} place := by
  classical
  have hempty : Viable (text.take 0) := viable_iff_live.2 ⟨Draft.start, rfl⟩
  refine ⟨Nat.findGreatest (fun k => Viable (text.take k)) text.length, ⟨?_, ?_⟩, ?_⟩
  · exact Nat.findGreatest_le text.length
  · exact Nat.findGreatest_spec (P := fun k => Viable (text.take k)) (Nat.zero_le _) hempty
  · exact fun k hk => Nat.le_findGreatest hk.1 hk.2

/-- **The error of a text** comes where its longest viable prefix stops, or at its end. -/
theorem stopsAt_or_endsEarly {text : List Char} (hblank : ¬ text.all Text.isBlank) {e : ParseError}
    (he : postfixOf text = .error e) :
    (∃ place, Live (text.take place) ∧ ¬ Live (text.take (place + 1)) ∧ StopsAt text place e) ∨
      Live text ∧ EndsEarly text e := by
  obtain ⟨place, hplace⟩ := exists_longest_viable text
  have hlive : Live (text.take place) := viable_iff_live.1 hplace.1.2
  rcases Nat.lt_or_eq_of_le hplace.1.1 with hlt | heq
  · have hdead : ¬ Live (text.take (place + 1)) := fun hnext =>
      Nat.not_succ_le_self place (hplace.2 ⟨hlt, viable_iff_live.2 hnext⟩)
    obtain ⟨e', he', hs⟩ := exists_stopsAt hlt hlive hdead
    obtain rfl : e' = e := Except.error.inj (he'.symm.trans he)
    exact .inl ⟨place, hlive, hdead, hs⟩
  · rw [heq, List.take_length] at hlive
    obtain ⟨tokens, hok⟩ | ⟨e', he', hs⟩ := postfixOf_of_live hlive hblank
    · cases hok.symm.trans he
    · obtain rfl : e' = e := Except.error.inj (he'.symm.trans he)
      exact .inr ⟨hlive, hs⟩

/-- **The error of a text** that is more than blanks.  It is at the end of the longest viable
prefix, if that is not the whole text.  A text that is viable as a whole is parsed, or something is
missing at its end.  The error always points into the text. -/
theorem parse_error_position {text : String} (h : ¬ text.toList.all Text.isBlank) :
    ∃ place, IsGreatest {k | k ≤ text.toList.length ∧ Viable (text.toList.take k)} place ∧
      (place < text.toList.length → ∃ e, parse text = .error e ∧ StopsAt text.toList place e) ∧
      (place = text.toList.length →
        (∃ tokens, parse text = .ok tokens) ∨
          ∃ e, parse text = .error e ∧ EndsEarly text.toList e) ∧
      ∀ e, parse text = .error e → e.Located text.toList := by
  obtain ⟨place, hplace⟩ := exists_longest_viable text.toList
  have hparse : parse text = postfixOf text.toList := by rw [parse_eq, if_neg h]
  have hlive : Live (text.toList.take place) := viable_iff_live.1 hplace.1.2
  have hstop (hlt : place < text.toList.length) :
      ∃ e, postfixOf text.toList = .error e ∧ StopsAt text.toList place e := by
    -- one character more is not viable, since no viable prefix is longer
    refine exists_stopsAt hlt hlive fun hnext => ?_
    have hle := hplace.2 ⟨Nat.succ_le_of_lt hlt, viable_iff_live.2 hnext⟩
    exact Nat.not_succ_le_self place hle
  have hend (heq : place = text.toList.length) :
      (∃ tokens, postfixOf text.toList = .ok tokens) ∨
        ∃ e, postfixOf text.toList = .error e ∧ EndsEarly text.toList e := by
    rw [heq, List.take_length] at hlive
    exact postfixOf_of_live hlive h
  rw [hparse]
  refine ⟨place, hplace, hstop, hend, fun e he => ?_⟩
  rcases Nat.lt_or_eq_of_le hplace.1.1 with hlt | heq
  · obtain ⟨e', he', hs⟩ := hstop hlt
    obtain rfl : e' = e := Except.error.inj (he'.symm.trans he)
    exact hs.located
  · obtain ⟨tokens, hok⟩ | ⟨e', he', hs⟩ := hend heq
    · rw [hok] at he
      cases he
    · obtain rfl : e' = e := Except.error.inj (he'.symm.trans he)
      exact hs.located

/-- A text that lacks a parenthesis: all of it is viable, and the error is at its group. -/
theorem endsEarly_of_open_group :
    IsGreatest {k | k ≤ 5 ∧ Viable ("(1+2 ".toList.take k)} 5 ∧
      EndsEarly "(1+2 ".toList (.unexpected '(' 0) := by
  have hblank : ¬ "(1+2 ".toList.all Text.isBlank := by decide
  have hparse : parse "(1+2 " = .error (.unexpected '(' 0) := rfl
  have hviable : Viable "(1+2 ".toList :=
    ⟨[')'], [.number 1, .number 2, .operator .add], rfl⟩
  obtain ⟨place, hplace, -, hend, -⟩ := parse_error_position hblank
  obtain rfl : place = 5 := Nat.le_antisymm hplace.1.1 (hplace.2 ⟨Nat.le_refl 5, hviable⟩)
  refine ⟨hplace, ?_⟩
  obtain ⟨tokens, hok⟩ | ⟨e, he, hearly⟩ := hend rfl
  · rw [hparse] at hok
    cases hok
  · rw [hparse] at he
    cases he
    exact hearly

end InfixCalc
