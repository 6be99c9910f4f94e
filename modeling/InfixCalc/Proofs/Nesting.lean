/-
# Open groups of a text

`unclosed text` lists the positions of the parentheses that are opened in a text and not closed,
the innermost first.  It looks at nothing but `(` and `)`.  In a text that is read without an
error they are the parentheses of the draft's open groups (`Draft.outer_run`), so the one that an
error names at the end of a text is the last that is unclosed.
-/

import InfixCalc.Proofs.Draft

namespace InfixCalc

/-- The positions of unclosed parentheses after more text, whose first character is at
`position`. -/
def unclosedFrom (opened : List Nat) (position : Nat) : List Char → List Nat
  | [] => opened
  | c :: text =>
    if c = '(' then unclosedFrom (position :: opened) (position + 1) text
    else if c = ')' then unclosedFrom opened.tail (position + 1) text
    else unclosedFrom opened (position + 1) text

/-- The positions of the parentheses that are opened and not closed, the innermost first. -/
def unclosed (text : List Char) : List Nat := unclosedFrom [] 0 text

/-- At every unclosed position there is a parenthesis. -/
theorem getElem?_of_mem_unclosedFrom {opened : List Nat} {position : Nat} {text : List Char} :
    ∀ q ∈ unclosedFrom opened position text,
      q ∈ opened ∨ position ≤ q ∧ text[q - position]? = some '(' := by
  induction text generalizing opened position with
  | nil => exact fun q hq => .inl hq
  | cons c text ih =>
    intro q hq
    -- what comes after `c` is one place further to the right
    have hshift : position + 1 ≤ q ∧ text[q - (position + 1)]? = some '(' →
        position ≤ q ∧ (c :: text)[q - position]? = some '(' := by
      rintro ⟨hle, hget⟩
      refine ⟨by omega, ?_⟩
      rw [show q - position = q - (position + 1) + 1 by omega, List.getElem?_cons_succ]
      exact hget
    unfold unclosedFrom at hq
    split at hq
    · rename_i hc
      rcases ih q hq with hmem | h
      · rcases List.mem_cons.1 hmem with rfl | hmem
        · exact .inr ⟨Nat.le_refl q, by rw [Nat.sub_self, hc]; rfl⟩
        · exact .inl hmem
      · exact .inr (hshift h)
    · split at hq
      · exact (ih q hq).imp List.mem_of_mem_tail hshift
      · exact (ih q hq).imp_right hshift

/-- At the position of an unclosed parenthesis, there is one in the text. -/
theorem getElem?_of_mem_unclosed {text : List Char} {q : Nat} (h : q ∈ unclosed text) :
    text[q]? = some '(' := by
  rcases getElem?_of_mem_unclosedFrom q h with hq | ⟨-, hq⟩
  · cases hq
  · exact hq

/-- Unclosed positions are listed from right to left. -/
theorem pairwise_unclosedFrom {opened : List Nat} {position : Nat} (text : List Char)
    (hopened : opened.Pairwise (· > ·)) (hlt : ∀ q ∈ opened, q < position) :
    (unclosedFrom opened position text).Pairwise (· > ·) := by
  induction text generalizing opened position with
  | nil => exact hopened
  | cons c text ih =>
    have hstep : ∀ q ∈ opened, q < position + 1 := fun q hq => Nat.lt_succ_of_lt (hlt q hq)
    unfold unclosedFrom
    split
    · refine ih (List.pairwise_cons.2 ⟨hlt, hopened⟩) fun q hq => ?_
      rcases List.mem_cons.1 hq with rfl | hq
      · exact Nat.lt_succ_self q
      · exact hstep q hq
    · split
      · exact ih hopened.tail fun q hq => hstep q (List.mem_of_mem_tail hq)
      · exact ih hopened hstep

/-- The innermost unclosed position is the last. -/
theorem le_of_mem_unclosed {text : List Char} {q : Nat} (hq : q ∈ (unclosed text).head?) :
    ∀ r ∈ unclosed text, r ≤ q := by
  have hsorted : (unclosed text).Pairwise (· > ·) :=
    pairwise_unclosedFrom text List.Pairwise.nil fun q hq => by cases hq
  obtain ⟨rest, hrest⟩ := List.head?_eq_some_iff.1 hq
  rw [hrest] at hsorted ⊢
  intro r hr
  rcases List.mem_cons.1 hr with rfl | hr
  · exact Nat.le_refl r
  · exact Nat.le_of_lt ((List.pairwise_cons.1 hsorted).1 r hr)

namespace Placed

/-- The positions of unclosed parentheses after a lexeme. -/
def nest (opened : List Nat) (placed : Placed) : List Nat :=
  match placed.lexeme with
  | .openParen => placed.position :: opened
  | .closeParen => opened.tail
  | _ => opened

/-- Digits open and close nothing. -/
theorem foldl_nest_consDigit (opened : List Nat) (digit : Char) (position : Nat)
    (following : List Placed) :
    (consDigit digit position following).foldl nest opened = following.foldl nest opened := by
  unfold consDigit
  split
  · split <;> rfl
  · rfl

end Placed

/-- A character that is no parenthesis changes nothing. -/
theorem unclosedFrom_cons {opened : List Nat} {position : Nat} {c : Char} (text : List Char)
    (hopen : CharClass.of c ≠ .openParen) (hclose : CharClass.of c ≠ .closeParen) :
    unclosedFrom opened position (c :: text) = unclosedFrom opened (position + 1) text := by
  rw [unclosedFrom, if_neg fun h => hopen (CharClass.of_eq_openParen_iff.2 h),
    if_neg fun h => hclose (CharClass.of_eq_closeParen_iff.2 h)]

/-- The lexemes of a text tell its unclosed parentheses. -/
theorem foldl_nest_readFrom (opened : List Nat) (position : Nat) (text : List Char) :
    (Lexeme.readFrom position text).foldl Placed.nest opened =
      unclosedFrom opened position text := by
  induction text generalizing opened position with
  | nil => rfl
  | cons c text ih =>
    rw [Lexeme.readFrom_cons, Placed.consChar]
    cases hc : CharClass.of c with
    | openParen =>
      rw [unclosedFrom, if_pos (CharClass.of_eq_openParen_iff.1 hc)]
      exact ih (position :: opened) (position + 1)
    | closeParen =>
      obtain rfl := CharClass.of_eq_closeParen_iff.1 hc
      exact ih opened.tail (position + 1)
    | digit =>
      rw [unclosedFrom_cons text (by simp [hc]) (by simp [hc]), ← ih]
      exact Placed.foldl_nest_consDigit opened c position _
    | _ =>
      rw [unclosedFrom_cons text (by simp [hc]) (by simp [hc])]
      exact ih opened (position + 1)

namespace Draft

/-- A step opens and closes groups as its lexeme does. -/
theorem outer_step {draft next : Draft} {placed : Placed} (h : draft.step placed = .ok next) :
    next.outer.map Prod.fst = Placed.nest (draft.outer.map Prod.fst) placed := by
  cases step_cases h <;> rfl

/-- **The open groups of a draft are the unclosed parentheses of what was read.** -/
theorem outer_run {draft next : Draft} {placed : List Placed} (h : draft.run placed = .ok next) :
    next.outer.map Prod.fst = placed.foldl Placed.nest (draft.outer.map Prod.fst) := by
  induction placed generalizing draft with
  | nil =>
    cases h
    rfl
  | cons first rest ih =>
    obtain ⟨middle, hstep, hrest⟩ := run_cons_eq_ok.1 h
    rw [ih hrest, outer_step hstep, List.foldl_cons]

/-- The open groups of a draft that has read a text are the unclosed parentheses of the text. -/
theorem outer_of_read {draft : Draft} {text : List Char}
    (h : start.run (Lexeme.read text) = .ok draft) :
    draft.outer.map Prod.fst = unclosed text := by
  rw [outer_run h, Lexeme.read, foldl_nest_readFrom]
  rfl

end Draft
end InfixCalc
