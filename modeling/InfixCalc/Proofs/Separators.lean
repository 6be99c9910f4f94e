/-
# Separators

Blanks keep two literals apart, and mean nothing else: what a text is parsed to depends on its
lexemes alone.  Two texts with the same lexemes are parsed to the same postfix sequence, or to
errors that differ at most in the place, and then in the character that stands there.

This is reading with the same trees (`TreeCongruence.same`) at other places.
-/

import InfixCalc.Proofs.Congruence
import InfixCalc.Proofs.Derivation

namespace InfixCalc

/-- Every tree is related to itself alone. -/
def TreeCongruence.same : TreeCongruence where
  factor f f' := f = f'
  term t t' := t = t'
  expr e e' := e = e'
  literal _ := rfl
  group h := congrArg _ h
  ofFactor h := congrArg _ h
  moreFactors op ht hf := congrArg₂ (Term.more · op) ht hf
  ofTerm h := congrArg _ h
  signed _ h := congrArg _ h
  moreTerms op he ht := congrArg₂ (Expr.more · op) he ht

/-- **The same lexemes** have the same postfix sequence, or like errors. -/
theorem postfixOf_agree {text text' : List Char}
    (h : (Lexeme.read text).map Placed.lexeme = (Lexeme.read text').map Placed.lexeme) :
    Agree TreeCongruence.same.tokens (postfixOf text) (postfixOf text') := by
  rw [postfixOf_eq, postfixOf_eq]
  exact (Draft.Related.refl Draft.start).run_finish h text text'

/-- **Separators only separate.**  Two texts with the same lexemes are parsed to the same sequence,
or both are blank, or both have an unexpected character, or both have the same literal that is too
large. -/
theorem parse_of_same_lexemes {first second : String} {lexemes : List Lexeme}
    (h : Lexeme.Spells first.toList lexemes) (h' : Lexeme.Spells second.toList lexemes) :
    (∃ tokens, parse first = .ok tokens ∧ parse second = .ok tokens) ∨
      (parse first = .error (.invalidArgument .blank) ∧
        parse second = .error (.invalidArgument .blank)) ∨
      (∃ c position c' position', parse first = .error (.unexpected c position) ∧
        parse second = .error (.unexpected c' position')) ∨
      ∃ literal position position', parse first = .error (.overflow literal position) ∧
        parse second = .error (.overflow literal position') := by
  have hread : (Lexeme.read first.toList).map Placed.lexeme = lexemes := Lexeme.spells_iff.1 h
  have hread' : (Lexeme.read second.toList).map Placed.lexeme = lexemes := Lexeme.spells_iff.1 h'
  -- a blank text is one without lexemes
  have hblank : first.toList.all Text.isBlank ↔ second.toList.all Text.isBlank := by
    rw [← Lexeme.read_eq_nil_iff, ← Lexeme.read_eq_nil_iff,
      ← List.map_eq_nil_iff (f := Placed.lexeme), hread, ← hread', List.map_eq_nil_iff]
  rw [parse_eq, parse_eq]
  by_cases hb : first.toList.all Text.isBlank
  · rw [if_pos hb, if_pos (hblank.1 hb)]
    exact .inr (.inl ⟨rfl, rfl⟩)
  · rw [if_neg hb, if_neg (mt hblank.2 hb)]
    obtain ⟨tokens, tokens', hok, hok', e, _, rfl, rfl, rfl⟩ | ⟨err, err', he, he', halike⟩ :=
      (postfixOf_agree (hread.trans hread'.symm)).cases
    · exact .inl ⟨e.tokens false, hok, hok'⟩
    · rw [he, he']
      cases halike with
      | unexpected => exact .inr (.inr (.inl ⟨_, _, _, _, rfl, rfl⟩))
      | overflow literal => exact .inr (.inr (.inr ⟨literal, _, _, rfl, rfl⟩))

/-- The blanks of the second text move the literal that is too large, and change nothing else. -/
theorem parse_overflow_apart :
    Lexeme.Spells "1+(4294967296".toList [.literal '1' [], .operator .add, .openParen,
        .literal '4' ['2', '9', '4', '9', '6', '7', '2', '9', '6']] ∧
      Lexeme.Spells " 1\t+ (\u30004294967296\n".toList [.literal '1' [], .operator .add, .openParen,
        .literal '4' ['2', '9', '4', '9', '6', '7', '2', '9', '6']] ∧
      parse "1+(4294967296" = .error (.overflow "4294967296" 3) ∧
      ∃ position, parse " 1\t+ (\u30004294967296\n" = .error (.overflow "4294967296" position) := by
  have h : Lexeme.Spells "1+(4294967296".toList [.literal '1' [], .operator .add, .openParen,
      .literal '4' ['2', '9', '4', '9', '6', '7', '2', '9', '6']] := Lexeme.spells_iff.2 rfl
  have h' : Lexeme.Spells " 1\t+ (\u30004294967296\n".toList [.literal '1' [], .operator .add,
      .openParen, .literal '4' ['2', '9', '4', '9', '6', '7', '2', '9', '6']] :=
    Lexeme.spells_iff.2 rfl
  have hparse : parse "1+(4294967296" = .error (.overflow "4294967296" 3) := rfl
  refine ⟨h, h', hparse, ?_⟩
  obtain ⟨tokens, hfirst, -⟩ | ⟨hfirst, -⟩ | ⟨c, position, c', position', hfirst, -⟩ |
    ⟨literal, position, position', hfirst, hsecond⟩ := parse_of_same_lexemes h h'
  · cases hparse.symm.trans hfirst
  · cases hparse.symm.trans hfirst
  · cases hparse.symm.trans hfirst
  · cases hparse.symm.trans hfirst
    exact ⟨position', hsecond⟩

end InfixCalc
