/-
# Moving a cursor

A cursor moves in three ways: by one character, past blanks, and past the digits of a literal.
Each of them passes the characters that come next and leaves the text as it is
(`Cursor.Passes`), and so does any sequence of moves (`Cursor.passes_run`).  Looking at the next
character or asking for an error moves nothing, so it may be done between any two moves.

From wherever the cursor has come, `Cursor.skipSeparators` stops at the first character that is no
blank, and `Cursor.readNumber` passes all the digits that come next, whether or not their value is
small enough.
-/

import InfixCalc.Cursor
import InfixCalc.Proofs.Numerals

namespace InfixCalc
namespace Cursor

/-- The ways to move a cursor. -/
inductive Move where
  | advance
  | skipSeparators
  | readNumber
  deriving DecidableEq, Repr

/-- The cursor after a move. -/
def move (cursor : Cursor) : Move → Cursor
  | .advance => cursor.advance
  | .skipSeparators => cursor.skipSeparators
  | .readNumber => cursor.readNumber.2

/-- The cursor after some moves. -/
def run (cursor : Cursor) (moves : List Move) : Cursor := moves.foldl move cursor

/-- The characters that have been read. -/
def consumed (cursor : Cursor) : List Char := cursor.before.reverse

/-- The second cursor is behind the first by these characters, in the same text. -/
structure Passes (cursor : Cursor) (passed : List Char) (next : Cursor) : Prop where
  consumed_eq : next.consumed = cursor.consumed ++ passed
  after_eq : cursor.after = passed ++ next.after

/-- What has been consumed and what is still to come make up the text. -/
theorem text_eq (cursor : Cursor) : cursor.text = cursor.consumed ++ cursor.after := rfl

/-- The position counts what has been consumed. -/
@[simp] theorem length_consumed (cursor : Cursor) : cursor.consumed.length = cursor.position :=
  List.length_reverse

/-- What has been read is as much of the text as the position says. -/
theorem consumed_eq_take (cursor : Cursor) :
    cursor.consumed = cursor.text.take cursor.position := by
  rw [text_eq, ← length_consumed, List.take_left]

/-- What comes next is the rest of the text. -/
theorem after_eq_drop (cursor : Cursor) : cursor.after = cursor.text.drop cursor.position := by
  rw [text_eq, ← length_consumed, List.drop_left]

/-- The next character is that at the position in the text. -/
theorem peek?_eq (cursor : Cursor) : cursor.peek? = cursor.text[cursor.position]? := by
  rw [peek?, after_eq_drop, List.head?_drop]

/-- The length of a cursor is that of its text. -/
theorem length_eq (cursor : Cursor) : cursor.length = cursor.text.length := by
  rw [text_eq, List.length_append, length_consumed]
  rfl

/-- The position never lies past the end. -/
theorem position_le (cursor : Cursor) : cursor.position ≤ cursor.text.length := by
  rw [← length_eq]
  exact Nat.le_add_right _ _

namespace Passes

variable {cursor middle next : Cursor} {passed more : List Char}

/-- A cursor that stays where it is passes nothing. -/
protected theorem refl (cursor : Cursor) : Passes cursor [] cursor :=
  ⟨(List.append_nil _).symm, rfl⟩

/-- Two moves one after the other pass what each of them passes. -/
protected theorem trans (h : Passes cursor passed middle) (h' : Passes middle more next) :
    Passes cursor (passed ++ more) next := by
  constructor
  · rw [h'.consumed_eq, h.consumed_eq, List.append_assoc]
  · rw [h.after_eq, h'.after_eq, List.append_assoc]

/-- The text stays. -/
theorem text_eq (h : Passes cursor passed next) : next.text = cursor.text := by
  rw [Cursor.text_eq, Cursor.text_eq, h.consumed_eq, h.after_eq, List.append_assoc]

/-- The position grows by the number of characters passed. -/
theorem position_eq (h : Passes cursor passed next) :
    next.position = cursor.position + passed.length := by
  rw [← length_consumed, h.consumed_eq, List.length_append, length_consumed]

/-- The characters passed are those of the text from the one position to the other. -/
theorem getElem?_eq (h : Passes cursor passed next) {i : Nat} (hle : cursor.position ≤ i)
    (hlt : i < next.position) :
    ∃ c ∈ passed, cursor.text[i]? = some c := by
  have hpassed : i - cursor.position < passed.length := by
    have hposition := h.position_eq
    omega
  refine ⟨passed[i - cursor.position], List.getElem_mem hpassed, ?_⟩
  rw [Cursor.text_eq, List.getElem?_append_right (by simpa using hle), length_consumed, h.after_eq,
    List.getElem?_append_left hpassed, List.getElem?_eq_getElem hpassed]

end Passes

/-- A move over characters of one kind passes exactly those that come next. -/
theorem passes_moveWhile (p : Char → Bool) (cursor : Cursor) :
    Passes cursor (cursor.after.takeWhile p) (moveWhile p cursor.before cursor.after) := by
  rw [moveWhile_eq]
  constructor
  · rw [consumed, List.reverse_append, List.reverse_reverse]
    rfl
  · exact List.takeWhile_append_dropWhile.symm

/-- To advance passes one character, if there is one. -/
theorem passes_advance (cursor : Cursor) : Passes cursor (cursor.after.take 1) cursor.advance := by
  obtain ⟨before, _ | ⟨c, after⟩⟩ := cursor
  · exact .refl _
  · exact ⟨List.reverse_cons, rfl⟩

/-- To skip separators passes the blanks that come next. -/
theorem passes_skipSeparators (cursor : Cursor) :
    Passes cursor (cursor.after.takeWhile Text.isBlank) cursor.skipSeparators :=
  passes_moveWhile Text.isBlank cursor

/-- All digits are passed, also those of a literal that is too large. -/
theorem snd_readNumber (cursor : Cursor) : cursor.readNumber.2 = cursor.skipDigits := by
  unfold readNumber
  split <;> rfl

/-- To read a number passes its digits, whether it fits or not. -/
theorem passes_readNumber (cursor : Cursor) : Passes cursor cursor.digits cursor.readNumber.2 := by
  rw [snd_readNumber]
  exact passes_moveWhile Char.isDigit cursor

/-- Where moving on a condition stops, the condition does not hold. -/
theorem not_of_peek?_moveWhile {p : Char → Bool} {cursor : Cursor} {c : Char}
    (h : (moveWhile p cursor.before cursor.after).peek? = some c) : ¬ p c := by
  have hdrop := List.head?_dropWhile_not p cursor.after
  rw [moveWhile_eq, peek?] at h
  rw [h] at hdrop
  simpa using hdrop

/-- Every move passes something that comes next, if only nothing. -/
theorem exists_passes_move (cursor : Cursor) (move : Move) :
    ∃ passed, Passes cursor passed (cursor.move move) := by
  cases move with
  | advance => exact ⟨_, cursor.passes_advance⟩
  | skipSeparators => exact ⟨_, cursor.passes_skipSeparators⟩
  | readNumber => exact ⟨_, cursor.passes_readNumber⟩

/-- **Moves only pass what comes next.** -/
theorem passes_run (cursor : Cursor) (moves : List Move) :
    ∃ passed, Passes cursor passed (cursor.run moves) := by
  induction moves generalizing cursor with
  | nil => exact ⟨[], .refl cursor⟩
  | cons move moves ih =>
    obtain ⟨passed, hmove⟩ := cursor.exists_passes_move move
    obtain ⟨more, hmoves⟩ := ih (cursor.move move)
    exact ⟨passed ++ more, hmove.trans hmoves⟩

/-- **No move changes the text.** -/
theorem text_run (text : List Char) (moves : List Move) :
    ((ofText text).run moves).text = text := by
  obtain ⟨passed, h⟩ := (ofText text).passes_run moves
  exact h.text_eq

/-- The digits that come next are as many as there are. -/
theorem digits_isMaximal (cursor : Cursor) :
    (∀ c ∈ cursor.digits, c.isDigit) ∧ cursor.digits <+: cursor.text.drop cursor.position ∧
      ∀ c, cursor.text[cursor.position + cursor.digits.length]? = some c → ¬ c.isDigit := by
  have hpasses := cursor.passes_readNumber
  refine ⟨List.all_eq_true.1 List.all_takeWhile, ?_, fun c hc => ?_⟩
  · rw [← after_eq_drop]
    exact List.takeWhile_prefix _
  · rw [← hpasses.position_eq, ← hpasses.text_eq, ← peek?_eq, snd_readNumber] at hc
    exact not_of_peek?_moveWhile hc

/-- **The literal that comes next** has its value, unless that is too large. -/
theorem readNumber_eq (cursor : Cursor) :
    (Decimal.value cursor.digits ≤ Decimal.int32Max →
      ∃ value, cursor.readNumber.1 = .ok value ∧ value.toInt = Decimal.value cursor.digits) ∧
    (Decimal.int32Max < Decimal.value cursor.digits →
      cursor.readNumber.1 =
        .error (.overflow (String.ofList cursor.digits) cursor.position)) := by
  constructor
  · intro hle
    obtain ⟨value, hread, hvalue⟩ := Decimal.int32OfDigits?_of_le hle
    exact ⟨value, by simp only [readNumber, hread], hvalue⟩
  · intro hlt
    simp only [readNumber, Decimal.int32OfDigits?_of_lt hlt]

/-- **An unexpected character** is one of the text, whatever position is asked for. -/
theorem unexpectedAt_eq {cursor : Cursor} (h : cursor.text ≠ []) (position : Nat) :
    ∃ c index, cursor.unexpectedAt position = .unexpected c index ∧
      cursor.text[index]? = some c ∧ (position < cursor.text.length → index = position) := by
  have hlength : 0 < cursor.text.length := List.length_pos_iff.2 h
  have hlt : min position (cursor.text.length - 1) < cursor.text.length := by omega
  have hat := List.getElem?_eq_getElem hlt
  refine ⟨_, _, ?_, hat, fun hposition => by omega⟩
  simp only [unexpectedAt, ParseError.unexpectedAt, hat, Option.getD_some]

/-- **A cursor at any time.**  However it has been moved, the text is the one it started with, and
its position, which is in the text or at its end, never goes back.  From there, skipping separators
stops at the first character that is no blank; reading a number passes all digits that come next,
and gives their value or, if that is too large, the error that names them; and an unexpected
character is one of the text. -/
theorem after_moves (text : List Char) (moves : List Move) :
    let cursor := (ofText text).run moves
    (cursor.text = text ∧ cursor.length = text.length ∧ cursor.peek? = text[cursor.position]? ∧
      ∀ more, cursor.position ≤ (cursor.run more).position ∧
        (cursor.run more).position ≤ text.length) ∧
    ((∀ i, cursor.position ≤ i → i < cursor.skipSeparators.position →
        ∃ c, text[i]? = some c ∧ Text.isBlank c) ∧
      ∀ c, text[cursor.skipSeparators.position]? = some c → ¬ Text.isBlank c) ∧
    (∃ digits, (∀ c ∈ digits, c.isDigit) ∧ digits <+: text.drop cursor.position ∧
      (∀ c, text[cursor.position + digits.length]? = some c → ¬ c.isDigit) ∧
      cursor.readNumber.2.position = cursor.position + digits.length ∧
      (Decimal.value digits ≤ Decimal.int32Max →
        ∃ value, cursor.readNumber.1 = .ok value ∧ value.toInt = Decimal.value digits) ∧
      (Decimal.int32Max < Decimal.value digits →
        cursor.readNumber.1 = .error (.overflow (String.ofList digits) cursor.position))) ∧
    (text ≠ [] → ∀ position, ∃ c index, cursor.unexpectedAt position = .unexpected c index ∧
      text[index]? = some c ∧ (position < text.length → index = position)) := by
  intro cursor
  have htext : cursor.text = text := text_run text moves
  -- how the cursor came to its place no longer matters
  clear_value cursor
  subst htext
  refine ⟨⟨rfl, cursor.length_eq, cursor.peek?_eq, fun more => ?_⟩, ⟨?_, ?_⟩,
    ⟨cursor.digits, ?_⟩, unexpectedAt_eq⟩
  · obtain ⟨passed, hmore⟩ := cursor.passes_run more
    rw [← hmore.text_eq]
    exact ⟨hmore.position_eq ▸ Nat.le_add_right _ _, (cursor.run more).position_le⟩
  · intro i hle hlt
    obtain ⟨c, hc, hat⟩ := cursor.passes_skipSeparators.getElem?_eq hle hlt
    exact ⟨c, hat, List.all_eq_true.1 List.all_takeWhile c hc⟩
  · intro c hc
    rw [← cursor.passes_skipSeparators.text_eq, ← peek?_eq] at hc
    exact not_of_peek?_moveWhile hc
  · obtain ⟨hdigits, hprefix, hend⟩ := cursor.digits_isMaximal
    obtain ⟨hvalue, hoverflow⟩ := cursor.readNumber_eq
    exact ⟨hdigits, hprefix, hend, cursor.passes_readNumber.position_eq, hvalue, hoverflow⟩

/-- The literal behind the blanks is too large, and it is passed as a whole.  Its first digits are
worth less than the limit, and reduced to 32 bits so is all of it. -/
theorem after_moves_overflow :
    let cursor := (ofText "007\t 4294967303+1".toList).run [.readNumber, .skipSeparators]
    Decimal.int32Max < Decimal.value "4294967303".toList ∧
      cursor.readNumber.1 = .error (.overflow "4294967303" 5) ∧
      cursor.readNumber.2.position = 15 := by
  intro cursor
  have hlt : Decimal.int32Max < Decimal.value "4294967303".toList := by decide
  obtain ⟨-, -, ⟨digits, -, hprefix, -, hposition, -, hoverflow⟩, -⟩ :=
    after_moves "007\t 4294967303+1".toList [.readNumber, .skipSeparators]
  have hlength : digits.length = 10 := Nat.add_left_cancel hposition.symm
  have hdigits : digits = "4294967303".toList := by
    rw [List.prefix_iff_eq_take.1 hprefix, hlength]
    rfl
  subst hdigits
  exact ⟨hlt, hoverflow hlt, hposition⟩

end Cursor
end InfixCalc
