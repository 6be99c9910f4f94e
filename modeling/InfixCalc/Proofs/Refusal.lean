/-
# Where reading stops

Reading stops at the first character that makes a text unviable.  Most often a lexeme starts
there, and it is refused because it may not come next (`run_eq_unexpected`).  The character can
also be a digit of a literal that started before it; then the literal has become too large, and it
is reported as a whole (`run_eq_overflow`).  A literal of one digit is never too large, so there
is no third case.

`StopsAt` says both of a text and the place of that character.
-/

import InfixCalc.Proofs.Viability

namespace InfixCalc

/-- The characters in front of a place and behind it are digits. -/
def DigitsMeet (text : List Char) (place : Nat) : Prop :=
  ∃ c d, 0 < place ∧ text[place - 1]? = some c ∧ text[place]? = some d ∧ c.isDigit ∧ d.isDigit

/-- A run of digits of a text that is as long as possible. -/
def DigitRun (text : List Char) (start : Nat) (run : List Char) : Prop :=
  ∃ before after, text = before ++ (run ++ after) ∧ before.length = start ∧
    (∀ c ∈ run, c.isDigit) ∧ (∀ c ∈ before.getLast?, ¬ c.isDigit) ∧
    ∀ c ∈ after.head?, ¬ c.isDigit

/-- The error that tells that reading stops at a place: the literal that contains it is too
large, if it has started before, and otherwise the character there is unexpected. -/
def StopsAt (text : List Char) (place : Nat) (e : ParseError) : Prop :=
  (DigitsMeet text place ∧ ∃ start run, DigitRun text start run ∧ start ≤ place ∧
      place < start + run.length ∧ e = .overflow (String.ofList run) start) ∨
    ¬ DigitsMeet text place ∧ ∃ c, text[place]? = some c ∧ e = .unexpected c place

/-- A character that is neither a blank nor a digit is a lexeme by itself. -/
theorem Lexeme.exists_readFrom_singleton {c : Char} (hb : ¬ Text.isBlank c) (hd : ¬ c.isDigit)
    (position : Nat) :
    ∃ lexeme, readFrom position [c] = [⟨lexeme, position⟩] ∧ lexeme.head = c ∧
      ∀ first more, lexeme ≠ .literal first more := by
  rw [readFrom_cons, Placed.consChar]
  cases hc : CharClass.of c with
  | separator => exact absurd (CharClass.of_eq_separator_iff.1 hc) hb
  | digit => exact absurd (CharClass.of_eq_digit_iff.1 hc) hd
  | openParen =>
    exact ⟨.openParen, rfl, (CharClass.of_eq_openParen_iff.1 hc).symm, fun _ _ h => by cases h⟩
  | closeParen =>
    exact ⟨.closeParen, rfl, (CharClass.of_eq_closeParen_iff.1 hc).symm, fun _ _ h => by cases h⟩
  | operator op =>
    exact ⟨.operator op, rfl, (CharClass.of_eq_operator_iff.1 hc).symm, fun _ _ h => by cases h⟩
  | other => exact ⟨.unknown c, rfl, rfl, fun _ _ h => by cases h⟩

/-- A literal may not come where an operator is missing. -/
theorem Draft.step_literal_of_factor {draft : Draft} {factor : Factor}
    (h : draft.factor? = some factor) (first : Char) (more : List Char) (position : Nat) :
    draft.step ⟨.literal first more, position⟩ = .error (.unexpected first position) := by
  obtain ⟨outer, level, factor?⟩ := draft
  obtain rfl : factor? = some factor := h
  rfl

/-- A literal that is too large may not come anywhere; it is reported where it may come. -/
theorem Draft.step_literal_of_lt {draft : Draft} (h : draft.factor? = none) {first : Char}
    {more : List Char} (hlt : Decimal.int32Max < Decimal.value (first :: more)) (position : Nat) :
    draft.step ⟨.literal first more, position⟩ =
      .error (.overflow (String.ofList (first :: more)) position) := by
  obtain ⟨outer, level, factor?⟩ := draft
  obtain rfl : factor? = none := h
  simp only [step, dif_neg (Nat.not_le_of_gt hlt)]

/-- A digit that is refused by itself is unexpected, whatever comes behind it: alone it is not
too large, so an operator is missing before it. -/
theorem Draft.run_eq_unexpected_of_isDigit {draft : Draft} {c : Char} {position : Nat}
    (hd : c.isDigit)
    (hrefused : ∀ next, draft.run (Lexeme.readFrom position [c]) ≠ .ok next)
    (after : List Char) :
    draft.run (Lexeme.readFrom position (c :: after)) = .error (.unexpected c position) := by
  have hdigit : ∀ d ∈ [c], d.isDigit := fun d hmem => List.mem_singleton.1 hmem ▸ hd
  have hend : ∀ d ∈ ([] : List Char).head?, ¬ d.isDigit := fun d hmem => by cases hmem
  have hread : Lexeme.readFrom position [c] = [⟨.literal c [], position⟩] :=
    Lexeme.readFrom_digits hdigit hend
  have hsome : draft.factor? ≠ none := by
    intro hnone
    obtain ⟨next, hstep⟩ := Draft.isOk_step_literal.2 ⟨hnone, Decimal.value_singleton_le hd⟩
    refine hrefused next ?_
    rw [hread, Draft.run_singleton, hstep]
  obtain ⟨factor, hfactor⟩ := Option.ne_none_iff_exists'.1 hsome
  obtain ⟨more, rest, hliteral⟩ := Lexeme.exists_readFrom_digit hd position after
  rw [hliteral, Draft.run, Draft.step_literal_of_factor hfactor]

/-- Any other character that is refused by itself is unexpected, whatever comes behind it. -/
theorem Draft.run_eq_unexpected_of_not_isDigit {draft : Draft} {c : Char} {position : Nat}
    (hd : ¬ c.isDigit)
    (hrefused : ∀ next, draft.run (Lexeme.readFrom position [c]) ≠ .ok next)
    (after : List Char) :
    draft.run (Lexeme.readFrom position (c :: after)) = .error (.unexpected c position) := by
  have hb : ¬ Text.isBlank c := by
    intro hb
    refine hrefused draft ?_
    rw [Lexeme.readFrom_cons, Placed.consChar, CharClass.of_eq_separator_iff.2 hb]
    rfl
  obtain ⟨lexeme, hread, hhead, hliteral⟩ := Lexeme.exists_readFrom_singleton hb hd position
  -- what comes behind a character that is no digit does not change its lexeme
  have hsplit : Lexeme.readFrom position (c :: after) =
      ⟨lexeme, position⟩ :: Lexeme.readFrom (position + 1) after := by
    have hlast : ∀ d ∈ [c].getLast?, ¬ d.isDigit := fun d hmem => Option.some.inj hmem ▸ hd
    rw [show c :: after = [c] ++ after from rfl, Lexeme.readFrom_append (.inl hlast), hread]
    rfl
  rw [hread, Draft.run_singleton] at hrefused
  rw [hsplit, Draft.run]
  cases hstep : draft.step ⟨lexeme, position⟩ with
  | ok next => exact absurd hstep (hrefused next)
  | error e =>
    rcases Draft.step_error hstep with rfl | ⟨first, more, hlexeme, -⟩
    · rw [hhead]
    · exact absurd hlexeme (hliteral first more)

/-- **A character that starts a lexeme and makes the text unviable is unexpected.** -/
theorem run_eq_unexpected {before : List Char} {c : Char} (after : List Char)
    (hlive : Live before) (hdead : ¬ Live (before ++ [c]))
    (hcut : (∀ d ∈ before.getLast?, ¬ d.isDigit) ∨ ¬ c.isDigit) :
    Draft.start.run (Lexeme.read (before ++ c :: after)) =
      .error (.unexpected c before.length) := by
  obtain ⟨draft, hrun⟩ := hlive
  have hcuts (more : List Char) :
      (∀ d ∈ before.getLast?, ¬ d.isDigit) ∨ ∀ d ∈ (c :: more).head?, ¬ d.isDigit :=
    hcut.imp_right fun hc d hd => Option.some.inj hd ▸ hc
  have hrefused : ∀ next, draft.run (Lexeme.readFrom before.length [c]) ≠ .ok next := by
    intro next hnext
    refine hdead ⟨next, ?_⟩
    rw [Lexeme.read_append (hcuts []), Draft.run_append_of_ok hrun, hnext]
  rw [Lexeme.read_append (hcuts after), Draft.run_append_of_ok hrun]
  by_cases hd : c.isDigit
  · exact Draft.run_eq_unexpected_of_isDigit hd hrefused after
  · exact Draft.run_eq_unexpected_of_not_isDigit hd hrefused after

/-- **A digit that joins a literal and makes the text unviable makes the literal too large.** -/
theorem run_eq_overflow {before : List Char} {c d : Char} (after : List Char)
    (hlive : Live before) (hdead : ¬ Live (before ++ [d])) (hc : c ∈ before.getLast?)
    (hcd : c.isDigit) (hd : d.isDigit) :
    ∃ start run, DigitRun (before ++ d :: after) start run ∧ start ≤ before.length ∧
      before.length < start + run.length ∧
      Draft.start.run (Lexeme.read (before ++ d :: after)) =
        .error (.overflow (String.ofList run) start) := by
  obtain ⟨front, first, more, digits, rest, rfl, rfl, hdigits, hfront, hrest⟩ :=
    Lexeme.exists_digits_across hc hcd hd after
  obtain ⟨⟨draft, hdraft, hnone⟩, hle⟩ :=
    (live_digits_iff (fun e he => hdigits e (List.mem_append_left (d :: digits) he)) hfront).1 hlive
  -- already the digits up to `d` are too large
  have hprefix : Decimal.int32Max < Decimal.value (first :: (more ++ [d])) := by
    refine Nat.lt_of_not_le fun hle => hdead ?_
    rw [List.append_assoc, List.cons_append]
    refine (live_digits_iff (fun e he => hdigits e ?_) hfront).2 ⟨⟨draft, hdraft, hnone⟩, hle⟩
    rw [show first :: (more ++ d :: digits) = first :: (more ++ [d]) ++ digits by simp]
    exact List.mem_append_left digits he
  have hlt : Decimal.int32Max < Decimal.value (first :: (more ++ d :: digits)) := by
    have hmore := Decimal.value_le_value_append (first :: (more ++ [d])) digits
    rw [show first :: (more ++ [d]) ++ digits = first :: (more ++ d :: digits) by simp] at hmore
    exact Nat.lt_of_lt_of_le hprefix hmore
  have htext : front ++ first :: more ++ d :: (digits ++ rest) =
      front ++ (first :: (more ++ d :: digits) ++ rest) := by
    simp
  refine ⟨front.length, first :: (more ++ d :: digits),
    ⟨front, rest, htext, rfl, hdigits, hfront, hrest⟩, ?_, ?_, ?_⟩
  · rw [List.length_append]
    exact Nat.le_add_right _ _
  · simp only [List.length_append, List.length_cons]
    omega
  · rw [htext, Lexeme.read_digits hdigits hfront hrest, Draft.run_append_of_ok hdraft, Draft.run,
      Draft.step_literal_of_lt hnone hlt]

/-- Two digits meet between a text that ends with one and a text that starts with one. -/
theorem digitsMeet_iff {before : List Char} {d : Char} (after : List Char) :
    DigitsMeet (before ++ d :: after) before.length ↔
      (∃ c ∈ before.getLast?, c.isDigit) ∧ d.isDigit := by
  have hat : (before ++ d :: after)[before.length]? = some d := by simp
  constructor
  · rintro ⟨c, e, hpos, hc, he, hcd, hed⟩
    obtain rfl : d = e := Option.some.inj (hat.symm.trans he)
    rw [List.getElem?_append_left (by omega), ← List.getLast?_eq_getElem?] at hc
    exact ⟨⟨c, hc, hcd⟩, hed⟩
  · rintro ⟨⟨c, hc, hcd⟩, hd⟩
    have hpos : 0 < before.length := List.length_pos_of_mem (List.mem_of_getLast? hc)
    refine ⟨c, d, hpos, ?_, hat, hcd, hd⟩
    rw [List.getElem?_append_left (by omega), ← List.getLast?_eq_getElem?]
    exact hc

/-- **Reading stops at the character that makes the text unviable.** -/
theorem exists_stopsAt {text : List Char} {place : Nat} (hlt : place < text.length)
    (hlive : Live (text.take place)) (hdead : ¬ Live (text.take (place + 1))) :
    ∃ e, postfixOf text = .error e ∧ StopsAt text place e := by
  obtain ⟨before, d, after, rfl, rfl⟩ :
      ∃ before d after, text = before ++ d :: after ∧ before.length = place := by
    refine ⟨text.take place, text[place], text.drop (place + 1), ?_, ?_⟩
    · rw [List.getElem_cons_drop, List.take_append_drop]
    · rw [List.length_take, Nat.min_eq_left (Nat.le_of_lt hlt)]
  rw [List.take_left] at hlive
  rw [show before ++ d :: after = before ++ [d] ++ after by simp,
    show before.length + 1 = (before ++ [d]).length by simp, List.take_left] at hdead
  rw [postfixOf_eq]
  -- a digit behind a digit makes a literal too large, and any other character starts a lexeme
  by_cases hmeet : DigitsMeet (before ++ d :: after) before.length
  · obtain ⟨⟨c, hc, hcd⟩, hd⟩ := (digitsMeet_iff after).1 hmeet
    obtain ⟨start, run, hdigits, hle, hrun, hstop⟩ :=
      run_eq_overflow after hlive hdead hc hcd hd
    refine ⟨.overflow (String.ofList run) start, ?_,
      .inl ⟨hmeet, start, run, hdigits, hle, hrun, rfl⟩⟩
    rw [hstop]
  · have hcut : (∀ c ∈ before.getLast?, ¬ c.isDigit) ∨ ¬ d.isDigit := by
      by_cases hd : d.isDigit
      · exact .inl fun c hc hcd => hmeet ((digitsMeet_iff after).2 ⟨⟨c, hc, hcd⟩, hd⟩)
      · exact .inr hd
    refine ⟨.unexpected d before.length, ?_, .inr ⟨hmeet, d, ?_, rfl⟩⟩
    · rw [run_eq_unexpected after hlive hdead hcut]
    · rw [List.getElem?_append_right (Nat.le_refl _), Nat.sub_self]
      rfl

end InfixCalc
