/-
# Reading in one pass

The lexemes of a text need not be there before a yard starts.  A scan holds a yard and the cursor
that it reads from.  It looks at the next character, and what that is decides what it does:

| next character | turn |
| --- | --- |
| separator | skips all separators |
| digit | reads a literal and puts its value out |
| parenthesis | opens or closes a group |
| operator | lets the operators that must go first go, and puts it on the stack |
| any other | fails |

`Scan.Reaches` are the states between the turns.  A turn is a step of the yard on the lexeme at the
cursor (`Scan.exists_turn_eq`), so in every state that is reached the yard has run on the lexemes of
what was read (`Scan.Reaches.hasRead`), and the last turn ends as parsing does
(`Scan.exists_last`).
-/

import InfixCalc.Proofs.CursorMoves
import InfixCalc.Proofs.Spelling
import InfixCalc.Yard

namespace InfixCalc

/-- A yard that reads its lexemes from a cursor. -/
structure Scan where
  cursor : Cursor
  yard : Yard

namespace Scan

/-- The scan of a text before its first turn. -/
def start (text : List Char) : Scan := ⟨(Cursor.ofText text).skipSeparators, Yard.start⟩

/-- Reads a literal, where an operand may come. -/
def pushNumber (scan : Scan) : Except ParseError Scan :=
  if scan.yard.expected = .operator then .error scan.cursor.unexpected
  else
    match scan.cursor.readNumber with
    | (.ok value, cursor) =>
      .ok ⟨cursor, ⟨scan.yard.stack, .number value :: scan.yard.output, .operator⟩⟩
    | (.error e, _) => .error e

/-- Opens a group, where an operand may come. -/
def openGroup (scan : Scan) : Except ParseError Scan :=
  if scan.yard.expected = .operator then .error scan.cursor.unexpected
  else
    .ok ⟨scan.cursor.advance,
      ⟨.openParen scan.cursor.position :: scan.yard.stack, scan.yard.output, .groupStart⟩⟩

/-- Closes a group behind an operand, if one is open. -/
def closeGroup (scan : Scan) : Except ParseError Scan :=
  if scan.yard.expected = .operator then
    match Yard.closeGroup scan.yard.stack scan.yard.output with
    | some (stack, output) => .ok ⟨scan.cursor.advance, ⟨stack, output, .operator⟩⟩
    | none => .error scan.cursor.unexpected
  else .error scan.cursor.unexpected

/-- Takes an operator behind an operand, or a sign at the start of a group. -/
def pushOperator (scan : Scan) (op : Operator) : Except ParseError Scan :=
  match scan.yard.expected with
  | .operand => .error scan.cursor.unexpected
  | .groupStart =>
    if op.isSign then
      .ok ⟨scan.cursor.advance,
        Yard.putOperator op scan.yard.stack
          (Yard.signOutput scan.yard.stack scan.yard.output)⟩
    else .error scan.cursor.unexpected
  | .operator =>
    .ok ⟨scan.cursor.advance, Yard.putOperator op scan.yard.stack scan.yard.output⟩

/-- What the next character makes the scan do. -/
def turn (scan : Scan) (c : Char) : Except ParseError Scan :=
  match CharClass.of c with
  | .separator => .ok ⟨scan.cursor.skipSeparators, scan.yard⟩
  | .digit => scan.pushNumber
  | .openParen => scan.openGroup
  | .closeParen => scan.closeGroup
  | .operator op => scan.pushOperator op
  | .other => .error scan.cursor.unexpected

/-- The states of the scan of a text before each of its turns, and behind the last. -/
inductive Reaches (text : List Char) : Scan → Prop
  | start : Reaches text (.start text)
  | turn {scan next : Scan} {c : Char} (before : Reaches text scan)
      (hc : scan.cursor.peek? = some c) (hturn : scan.turn c = .ok next) : Reaches text next

/-- The characters that a scan has read. -/
abbrev consumed (scan : Scan) : List Char := scan.cursor.consumed

/-- The yard has run on the lexemes of what was read, and no literal goes on behind it. -/
structure HasRead (text : List Char) (scan : Scan) : Prop where
  text_eq : scan.cursor.text = text
  apart : (∀ c ∈ scan.consumed.getLast?, ¬ c.isDigit) ∨ ∀ c ∈ scan.cursor.after.head?, ¬ c.isDigit
  run_eq : Yard.start.run (Lexeme.read scan.consumed) = .ok scan.yard

section Turn

variable {text : List Char} {scan : Scan} {c : Char}

/-- The character at the cursor is the one that is unexpected. -/
theorem unexpected_eq {cursor : Cursor} (h : cursor.peek? = some c) :
    cursor.unexpected = .unexpected c cursor.position := by
  have hat := cursor.peek?_eq.symm.trans h
  have hlt : cursor.position < cursor.text.length := (List.getElem?_eq_some_iff.1 hat).1
  rw [Cursor.unexpected, Cursor.unexpectedAt, ParseError.unexpectedAt,
    show min cursor.position (cursor.text.length - 1) = cursor.position by omega, hat]
  rfl

/-- A single character at the cursor is passed by moving on. -/
theorem passes_singleton {cursor : Cursor} (h : cursor.peek? = some c) :
    cursor.Passes [c] cursor.advance := by
  obtain ⟨before, after⟩ := cursor
  obtain ⟨rest, rfl⟩ := List.head?_eq_some_iff.1 h
  exact Cursor.passes_advance ⟨before, c :: rest⟩

/-- The digits at the cursor start with the next one. -/
theorem digits_eq_cons {cursor : Cursor} (h : cursor.peek? = some c) (hc : c.isDigit) :
    ∃ more, cursor.digits = c :: more := by
  obtain ⟨before, after⟩ := cursor
  obtain ⟨rest, rfl⟩ := List.head?_eq_some_iff.1 h
  exact ⟨rest.takeWhile Char.isDigit, List.takeWhile_cons_of_pos hc⟩

/-- A number that is pushed is one literal for the yard. -/
theorem pushNumber_eq (hc : scan.cursor.peek? = some c) {more : List Char}
    (hdigits : scan.cursor.digits = c :: more) :
    scan.pushNumber =
      (scan.yard.step ⟨.literal c more, scan.cursor.position⟩).map
        fun yard => ⟨scan.cursor.readNumber.2, yard⟩ := by
  have hunexpected := unexpected_eq hc
  obtain ⟨cursor, stack, output, expected⟩ := scan
  cases hread : Decimal.int32OfDigits? false (c :: more) <;> cases expected <;>
    simp_all [pushNumber, Cursor.readNumber, Yard.step, Except.map, Lexeme.head]

/-- A group that is opened is one parenthesis for the yard. -/
theorem openGroup_eq (hc : scan.cursor.peek? = some '(') :
    scan.openGroup =
      (scan.yard.step ⟨.openParen, scan.cursor.position⟩).map
        fun yard => ⟨scan.cursor.advance, yard⟩ := by
  have hunexpected := unexpected_eq hc
  obtain ⟨cursor, stack, output, expected⟩ := scan
  cases expected <;> simp [openGroup, Yard.step, Except.map, hunexpected, Lexeme.head]

/-- A group that is closed is one parenthesis for the yard. -/
theorem closeGroup_eq (hc : scan.cursor.peek? = some ')') :
    scan.closeGroup =
      (scan.yard.step ⟨.closeParen, scan.cursor.position⟩).map
        fun yard => ⟨scan.cursor.advance, yard⟩ := by
  have hunexpected := unexpected_eq hc
  obtain ⟨cursor, stack, output, expected⟩ := scan
  cases hclose : Yard.closeGroup stack output <;> cases expected <;>
    simp [closeGroup, Yard.step, Except.map, hunexpected, hclose, Lexeme.head]

/-- An operator that is pushed is one lexeme for the yard. -/
theorem pushOperator_eq {op : Operator} (hc : scan.cursor.peek? = some op.symbol) :
    scan.pushOperator op =
      (scan.yard.step ⟨.operator op, scan.cursor.position⟩).map
        fun yard => ⟨scan.cursor.advance, yard⟩ := by
  have hunexpected := unexpected_eq hc
  obtain ⟨cursor, stack, output, expected⟩ := scan
  cases hsign : op.isSign <;> cases expected <;>
    simp [pushOperator, Yard.step, Except.map, hunexpected, hsign, Lexeme.head]

/-- **A turn is a step of the yard** on the lexeme at the cursor, which it passes. -/
theorem exists_turn_eq (hc : scan.cursor.peek? = some c) (hsolid : ¬ Text.isBlank c) :
    ∃ (lexeme : Lexeme) (cursor : Cursor), lexeme.WellFormed ∧
      lexeme.MayEndBefore cursor.after ∧ scan.cursor.Passes lexeme.chars cursor ∧
      scan.turn c =
        (scan.yard.step ⟨lexeme, scan.cursor.position⟩).map fun yard => ⟨cursor, yard⟩ := by
  have hpasses := passes_singleton hc
  cases hclass : CharClass.of c with
  | separator => exact absurd (CharClass.of_eq_separator_iff.1 hclass) hsolid
  | digit =>
    -- a literal is the only lexeme that passes more than the character at the cursor
    obtain ⟨more, hdigits⟩ := digits_eq_cons hc (CharClass.of_eq_digit_iff.1 hclass)
    obtain ⟨hwellFormed, -, hend⟩ := scan.cursor.digits_isMaximal
    have hread := scan.cursor.passes_readNumber
    rw [← hread.position_eq, ← hread.text_eq, ← Cursor.peek?_eq] at hend
    rw [hdigits] at hwellFormed hread
    refine ⟨.literal c more, scan.cursor.readNumber.2, hwellFormed, hend, hread, ?_⟩
    rw [turn, hclass]
    exact pushNumber_eq hc hdigits
  | openParen =>
    obtain rfl := CharClass.of_eq_openParen_iff.1 hclass
    refine ⟨.openParen, scan.cursor.advance, trivial, trivial, hpasses, ?_⟩
    rw [turn, hclass]
    exact openGroup_eq hc
  | closeParen =>
    obtain rfl := CharClass.of_eq_closeParen_iff.1 hclass
    refine ⟨.closeParen, scan.cursor.advance, trivial, trivial, hpasses, ?_⟩
    rw [turn, hclass]
    exact closeGroup_eq hc
  | operator op =>
    obtain rfl := CharClass.of_eq_operator_iff.1 hclass
    refine ⟨.operator op, scan.cursor.advance, trivial, trivial, hpasses, ?_⟩
    rw [turn, hclass]
    exact pushOperator_eq hc
  | other =>
    refine ⟨.unknown c, scan.cursor.advance, hclass, trivial, hpasses, ?_⟩
    simp [turn, hclass, Yard.step, Except.map, unexpected_eq hc, Lexeme.head]

/-- **What a turn does:** it skips separators, or it passes a lexeme and the yard takes that. -/
theorem turn_cases {next : Scan} (hc : scan.cursor.peek? = some c)
    (hturn : scan.turn c = .ok next) :
    (∃ passed, passed ≠ [] ∧ (∀ d ∈ passed, Text.isBlank d) ∧
      scan.cursor.Passes passed next.cursor ∧ next.yard = scan.yard) ∨
    ∃ lexeme : Lexeme, lexeme.WellFormed ∧ lexeme.MayEndBefore next.cursor.after ∧
      scan.cursor.Passes lexeme.chars next.cursor ∧
      scan.yard.step ⟨lexeme, scan.cursor.position⟩ = .ok next.yard := by
  by_cases hblank : Text.isBlank c
  · rw [turn, CharClass.of_eq_separator_iff.2 hblank] at hturn
    cases hturn
    refine .inl ⟨_, ?_, List.all_eq_true.1 List.all_takeWhile,
      scan.cursor.passes_skipSeparators, rfl⟩
    obtain ⟨rest, hrest⟩ := List.head?_eq_some_iff.1 hc
    rw [hrest, List.takeWhile_cons_of_pos hblank]
    exact List.cons_ne_nil _ _
  · obtain ⟨lexeme, cursor, hwellFormed, hend, hpasses, hstep⟩ := exists_turn_eq hc hblank
    rw [hturn] at hstep
    cases hyard : scan.yard.step ⟨lexeme, scan.cursor.position⟩ with
    | error e =>
      rw [hyard] at hstep
      cases hstep
    | ok yard =>
      rw [hyard] at hstep
      cases hstep
      exact .inr ⟨lexeme, hwellFormed, hend, hpasses, hyard⟩

end Turn

section Read

variable {text passed : List Char} {scan : Scan} {cursor : Cursor}

/-- No digit meets another one where a lexeme ends. -/
theorem apart_of_mayEndBefore {lexeme : Lexeme} {after : List Char} (hw : lexeme.WellFormed)
    (hend : lexeme.MayEndBefore after) :
    (∀ c ∈ lexeme.chars.getLast?, ¬ c.isDigit) ∨ ∀ c ∈ after.head?, ¬ c.isDigit := by
  have hsingle {c : Char} (hc : CharClass.of c ≠ .digit) : ∀ d ∈ [c].getLast?, ¬ d.isDigit := by
    intro d hd hdigit
    obtain rfl : c = d := Option.some.inj hd
    exact hc (CharClass.of_eq_digit_iff.2 hdigit)
  cases lexeme with
  | literal first more => exact .inr hend
  | openParen => exact .inl (hsingle (by decide))
  | closeParen => exact .inl (hsingle (by decide))
  | operator op => exact .inl (hsingle (by cases op <;> decide))
  | unknown c =>
    have hother : CharClass.of c = .other := hw
    exact .inl (hsingle (by simp [Lexeme.head, hother]))

/-- What is passed may be read by itself. -/
theorem HasRead.read_append (h : HasRead text scan) (hpasses : scan.cursor.Passes passed cursor) :
    Lexeme.read cursor.consumed =
      Lexeme.read scan.consumed ++ Lexeme.readFrom scan.cursor.position passed := by
  have hcut := h.apart
  rw [hpasses.after_eq, List.head?_append] at hcut
  rw [hpasses.consumed_eq, ← scan.cursor.length_consumed]
  refine Lexeme.read_append (hcut.imp_right fun hafter c hc => hafter c ?_)
  rw [Option.mem_def.1 hc]
  rfl

/-- What comes next may be read by itself. -/
theorem HasRead.read_text (h : HasRead text scan) :
    Lexeme.read text =
      Lexeme.read scan.consumed ++ Lexeme.readFrom scan.cursor.position scan.cursor.after := by
  rw [← h.text_eq, Cursor.text_eq, ← scan.cursor.length_consumed]
  exact Lexeme.read_append h.apart

/-- The last character that was read is the last that was passed. -/
theorem getLast?_consumed (hpasses : scan.cursor.Passes passed cursor) (hne : passed ≠ []) :
    cursor.consumed.getLast? = passed.getLast? := by
  rw [hpasses.consumed_eq, List.getLast?_append, List.getLast?_eq_some_getLast hne, Option.some_or]

/-- Skipping blanks, the yard has nothing to do. -/
theorem HasRead.blanks (h : HasRead text scan) (hpasses : scan.cursor.Passes passed cursor)
    (hblank : ∀ c ∈ passed, Text.isBlank c) : HasRead text ⟨cursor, scan.yard⟩ := by
  have hnone : Lexeme.readFrom scan.cursor.position passed = [] := by
    have hspells := Lexeme.Spells.nil.blanks_append hblank
    rw [List.append_nil] at hspells
    exact List.map_eq_nil_iff.1 (hspells.map_readFrom scan.cursor.position)
  refine ⟨hpasses.text_eq.trans h.text_eq, ?_, ?_⟩
  · by_cases hnil : passed = []
    · subst hnil
      have happart := h.apart
      rw [hpasses.after_eq] at happart
      simpa [Scan.consumed, hpasses.consumed_eq] using happart
    · refine .inl fun c hc hdigit => ?_
      rw [Scan.consumed, getLast?_consumed hpasses hnil] at hc
      have hc' := hblank c (List.mem_of_getLast? hc)
      rw [CharClass.isBlank_of_isDigit hdigit] at hc'
      cases hc'
  · rw [Scan.consumed, h.read_append hpasses, hnone, List.append_nil]
    exact h.run_eq

/-- Passing a lexeme, the yard takes it. -/
theorem HasRead.lexeme {lexeme : Lexeme} {yard : Yard} (h : HasRead text scan)
    (hw : lexeme.WellFormed) (hend : lexeme.MayEndBefore cursor.after)
    (hpasses : scan.cursor.Passes lexeme.chars cursor)
    (hstep : scan.yard.step ⟨lexeme, scan.cursor.position⟩ = .ok yard) :
    HasRead text ⟨cursor, yard⟩ := by
  have hone : Lexeme.readFrom scan.cursor.position lexeme.chars =
      [⟨lexeme, scan.cursor.position⟩] := by
    have hnil : lexeme.MayEndBefore [] := by
      cases lexeme with
      | literal first more => exact fun c hc => by cases hc
      | _ => trivial
    have happend : Lexeme.readFrom scan.cursor.position (lexeme.chars ++ []) = _ :=
      Lexeme.readFrom_chars_append hw hnil
    simpa using happend
  refine ⟨hpasses.text_eq.trans h.text_eq, ?_, ?_⟩
  · rw [Scan.consumed, getLast?_consumed hpasses lexeme.chars_ne_nil]
    exact apart_of_mayEndBefore hw hend
  · rw [Scan.consumed, h.read_append hpasses, hone, Yard.run_append, h.run_eq]
    simp only [Yard.run, hstep]

end Read

variable {text : List Char} {scan : Scan}

/-- At the start, nothing has been read. -/
theorem hasRead_start (text : List Char) : HasRead text (start text) := by
  have hempty : HasRead text ⟨Cursor.ofText text, Yard.start⟩ :=
    ⟨rfl, .inl (fun c hc => by cases hc), rfl⟩
  exact hempty.blanks (Cursor.passes_skipSeparators _) (List.all_eq_true.1 List.all_takeWhile)

/-- **In every state that is reached** the yard has run on the lexemes of what was read. -/
theorem Reaches.hasRead (h : Reaches text scan) : HasRead text scan := by
  induction h with
  | start => exact hasRead_start text
  | turn _ hc hturn ih =>
    obtain ⟨passed, -, hblank, hpasses, hyard⟩ | ⟨lexeme, hw, hend, hpasses, hstep⟩ :=
      turn_cases hc hturn
    · have hread := ih.blanks hpasses hblank
      rwa [← hyard] at hread
    · exact ih.lexeme hw hend hpasses hstep

/-- At the end of the text, all of it has been read. -/
theorem HasRead.consumed_eq (h : HasRead text scan) (hend : scan.cursor.peek? = none) :
    scan.consumed = text := by
  have hafter : scan.cursor.after = [] := List.head?_eq_none_iff.1 hend
  rw [← h.text_eq, Cursor.text_eq, hafter, List.append_nil]

/-- At the end of the text, parsing ends as the yard does. -/
theorem HasRead.postfixOf_eq_finish (h : HasRead text scan) (hend : scan.cursor.peek? = none) :
    postfixOf text = scan.yard.finish text := by
  have hrun := h.run_eq
  rw [h.consumed_eq hend] at hrun
  rw [postfixOf, hrun]

/-- A turn that fails gives the error of parsing. -/
theorem HasRead.postfixOf_eq_error (h : HasRead text scan) {c : Char} {e : ParseError}
    (hc : scan.cursor.peek? = some c) (hturn : scan.turn c = .error e) :
    postfixOf text = .error e := by
  have hsolid : ¬ Text.isBlank c := by
    intro hblank
    rw [turn, CharClass.of_eq_separator_iff.2 hblank] at hturn
    cases hturn
  obtain ⟨lexeme, cursor, hw, hend, hpasses, hstep⟩ := exists_turn_eq hc hsolid
  rw [postfixOf, h.read_text, hpasses.after_eq, Lexeme.readFrom_chars_append hw hend,
    Yard.run_append, h.run_eq]
  rw [hturn] at hstep
  cases hyard : scan.yard.step ⟨lexeme, scan.cursor.position⟩ with
  | ok yard =>
    rw [hyard] at hstep
    cases hstep
  | error e' =>
    rw [hyard] at hstep
    cases hstep
    simp only [Yard.run, hyard]

/-- A turn leaves less of the text. -/
theorem length_after_lt {next : Scan} {c : Char} (hc : scan.cursor.peek? = some c)
    (hturn : scan.turn c = .ok next) : next.cursor.after.length < scan.cursor.after.length := by
  obtain ⟨passed, hne, hpasses⟩ :
      ∃ passed, passed ≠ [] ∧ scan.cursor.Passes passed next.cursor := by
    obtain ⟨passed, hne, -, hpasses, -⟩ | ⟨lexeme, -, -, hpasses, -⟩ := turn_cases hc hturn
    · exact ⟨passed, hne, hpasses⟩
    · exact ⟨lexeme.chars, lexeme.chars_ne_nil, hpasses⟩
  have hlength := List.length_pos_iff.2 hne
  rw [hpasses.after_eq, List.length_append]
  omega

/-- From every state the scan gets to its last one. -/
theorem Reaches.exists_last {scan : Scan} (h : Reaches text scan) :
    ∃ last, Reaches text last ∧
      (last.cursor.peek? = none ∨ ∃ c e, last.cursor.peek? = some c ∧ last.turn c = .error e) := by
  cases hc : scan.cursor.peek? with
  | none => exact ⟨scan, h, .inl hc⟩
  | some c =>
    cases hturn : scan.turn c with
    | error e => exact ⟨scan, h, .inr ⟨c, e, hc, hturn⟩⟩
    | ok next => exact (h.turn hc hturn).exists_last
termination_by scan.cursor.after.length
decreasing_by exact length_after_lt hc hturn

/-- **A scan ends as parsing does:** with the postfix sequence of its yard or the error of that,
when the text is at its end, or with the error of a turn. -/
theorem exists_last (text : List Char) :
    ∃ last, Reaches text last ∧
      ((last.cursor.peek? = none ∧ postfixOf text = last.yard.finish text) ∨
        ∃ c e, last.cursor.peek? = some c ∧ last.turn c = .error e ∧
          postfixOf text = .error e) := by
  have hstart : Reaches text (start text) := .start
  obtain ⟨last, hlast, hend | ⟨c, e, hc, hturn⟩⟩ := hstart.exists_last
  · exact ⟨last, hlast, .inl ⟨hend, hlast.hasRead.postfixOf_eq_finish hend⟩⟩
  · exact ⟨last, hlast, .inr ⟨c, e, hc, hturn, hlast.hasRead.postfixOf_eq_error hc hturn⟩⟩

end Scan
end InfixCalc
