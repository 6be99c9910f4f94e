/-
# Texts that can be continued

A text is viable when something can be put behind it such that the whole is parsed.  It is live
when all its lexemes are taken by a draft.  The two are the same (`viable_iff_live`):

* whatever a draft has read, a literal where an operand is missing and a `)` for every open group
  complete it (`Draft.exists_completion`), so no error comes too early;
* what is live stays so when characters are taken away at its end (`Live.of_append`), so no error
  comes too late.  Only the last literal may change by that, and it gets smaller.
-/

import InfixCalc.Proofs.Derivation
import Mathlib.Tactic.Push

namespace InfixCalc

/-- Something can be put behind the text such that the whole is parsed. -/
def Viable (text : List Char) : Prop :=
  ∃ (suffix : List Char) (tokens : List Token),
    parse (String.ofList (text ++ suffix)) = .ok tokens

/-- All lexemes of the text may come where they do. -/
def Live (text : List Char) : Prop :=
  ∃ draft, Draft.start.run (Lexeme.read text) = .ok draft

namespace Draft

/-- A `)` for every open group closes them all. -/
theorem run_closeParens (outer : List (Nat × Level)) (level : Level) (factor : Factor)
    (position : Nat) :
    ∃ level' factor', run ⟨outer, level, some factor⟩
      (Lexeme.readFrom position (List.replicate outer.length ')')) =
        .ok ⟨[], level', some factor'⟩ := by
  induction outer generalizing level factor position with
  | nil => exact ⟨level, factor, rfl⟩
  | cons group outer ih =>
    obtain ⟨opened, around⟩ := group
    exact ih around (.group (level.close factor)) (position + 1)

/-- **A draft can always be completed**, by a text that does not start with a digit. -/
theorem exists_completion (draft : Draft) (position : Nat) :
    ∃ suffix, (∀ c ∈ suffix.head?, ¬ Char.isDigit c) ∧
      ∃ level factor, draft.run (Lexeme.readFrom position suffix) =
        .ok ⟨[], level, some factor⟩ := by
  obtain ⟨outer, level, factor?⟩ := draft
  cases factor? with
  | some factor =>
    refine ⟨List.replicate outer.length ')', ?_, run_closeParens outer level factor position⟩
    intro c hc
    have hmem := List.mem_of_mem_head? hc
    rw [List.eq_of_mem_replicate hmem]
    decide
  | none =>
    -- the blank keeps the literal apart from a literal before it
    let one : Literal := ⟨'1', [], by decide⟩
    obtain ⟨level', factor', h⟩ := run_closeParens outer level (.literal one) (position + 2)
    refine ⟨' ' :: '1' :: List.replicate outer.length ')', ?_, level', factor', ?_⟩
    · intro c hc
      obtain rfl : ' ' = c := Option.some.inj hc
      decide
    · have hafter : ∀ c ∈ (List.replicate outer.length ')').head?, ¬ c.isDigit := by
        intro c hc
        rw [List.eq_of_mem_replicate (List.mem_of_mem_head? hc)]
        decide
      have hdigits : ∀ c ∈ '1' :: [], Char.isDigit c := by
        intro c hc
        obtain rfl := List.mem_singleton.1 hc
        decide
      rw [Lexeme.readFrom_cons, Placed.consChar, CharClass.of_eq_separator_iff.2 (by decide)]
      have hread : Lexeme.readFrom (position + 1) ('1' :: List.replicate outer.length ')') =
          ⟨.literal '1' [], position + 1⟩ ::
            Lexeme.readFrom (position + 2) (List.replicate outer.length ')') :=
        Lexeme.readFrom_digits hdigits hafter
      simp only [hread]
      exact h

end Draft

/-- What is live can be completed. -/
theorem Live.viable {text : List Char} (h : Live text) : Viable text := by
  obtain ⟨draft, hrun⟩ := h
  obtain ⟨suffix, hhead, level, factor, hsuffix⟩ := draft.exists_completion text.length
  have hread : Draft.start.run (Lexeme.read (text ++ suffix)) = .ok ⟨[], level, some factor⟩ := by
    rw [Lexeme.read_append (.inr hhead), Draft.run_append_of_ok hrun, hsuffix]
  refine ⟨suffix, (level.close factor).tokens false, ?_⟩
  rw [parse_eq_ok_iff_postfixOf, String.toList_ofList, postfixOf_eq, hread]
  rfl

/-- A text that ends in digits is live if an operand is missing before them and they are not too
large a literal. -/
theorem live_digits_iff {front : List Char} {first : Char} {more : List Char}
    (hdigits : ∀ c ∈ first :: more, c.isDigit) (hfront : ∀ c ∈ front.getLast?, ¬ c.isDigit) :
    Live (front ++ first :: more) ↔
      (∃ draft, Draft.start.run (Lexeme.read front) = .ok draft ∧ draft.factor? = none) ∧
        Decimal.value (first :: more) ≤ Decimal.int32Max := by
  have hread : Lexeme.read (front ++ first :: more) =
      Lexeme.read front ++ [⟨.literal first more, front.length⟩] := by
    have hend : ∀ c ∈ ([] : List Char).head?, ¬ c.isDigit := fun c hc => by cases hc
    have h := Lexeme.read_digits hdigits hfront hend
    rwa [List.append_nil] at h
  rw [Live, hread]
  constructor
  · rintro ⟨next, hrun⟩
    obtain ⟨draft, hdraft, hstep⟩ := Draft.run_append_eq_ok.1 hrun
    rw [Draft.run_singleton] at hstep
    obtain ⟨hnone, hle⟩ := Draft.isOk_step_literal.1 ⟨next, hstep⟩
    exact ⟨⟨draft, hdraft, hnone⟩, hle⟩
  · rintro ⟨⟨draft, hdraft, hnone⟩, hle⟩
    obtain ⟨next, hstep⟩ := Draft.isOk_step_literal.2 ⟨hnone, hle⟩
    refine ⟨next, ?_⟩
    rw [Draft.run_append_of_ok hdraft, Draft.run_singleton, hstep]

/-- What is live stays so when its end is taken away outside of a run of digits. -/
theorem Live.of_cut {text more : List Char} (h : Live (text ++ more))
    (hcut : (∀ c ∈ text.getLast?, ¬ c.isDigit) ∨ ∀ c ∈ more.head?, ¬ c.isDigit) : Live text := by
  obtain ⟨draft, hrun⟩ := h
  rw [Lexeme.read_append hcut] at hrun
  obtain ⟨middle, hmiddle, -⟩ := Draft.run_append_eq_ok.1 hrun
  exact ⟨middle, hmiddle⟩

/-- **What is live stays so when its end is taken away.** -/
theorem Live.of_append {text more : List Char} (h : Live (text ++ more)) : Live text := by
  by_cases hcut : (∀ c ∈ text.getLast?, ¬ c.isDigit) ∨ ∀ c ∈ more.head?, ¬ c.isDigit
  · exact h.of_cut hcut
  · -- the cut is inside a literal, which gets smaller
    push Not at hcut
    obtain ⟨⟨c, hc, hcd⟩, d, hd, hdd⟩ := hcut
    obtain ⟨after, rfl⟩ := List.head?_eq_some_iff.1 hd
    obtain ⟨front, first, digits, run, rest, rfl, rfl, hdigits, hfront, hrest⟩ :=
      Lexeme.exists_digits_across hc hcd hdd after
    have hwhole : Live (front ++ first :: (digits ++ d :: run)) := by
      have h' : Live (front ++ first :: (digits ++ d :: run) ++ rest) := by simpa using h
      exact h'.of_cut (.inr hrest)
    obtain ⟨hdraft, hle⟩ := (live_digits_iff hdigits hfront).1 hwhole
    have hsmall := Decimal.value_le_value_append (first :: digits) (d :: run)
    refine (live_digits_iff (fun e he => hdigits e ?_) hfront).2 ⟨hdraft, Nat.le_trans hsmall hle⟩
    exact List.mem_append_left (d :: run) he

/-- **Viable is live.** -/
theorem viable_iff_live {text : List Char} : Viable text ↔ Live text := by
  constructor
  · rintro ⟨suffix, tokens, h⟩
    rw [parse_eq_ok_iff_postfixOf, String.toList_ofList, postfixOf_eq] at h
    cases hrun : Draft.start.run (Lexeme.read (text ++ suffix)) with
    | error e => rw [hrun] at h; cases h
    | ok draft => exact Live.of_append ⟨draft, hrun⟩
  · exact Live.viable

end InfixCalc
