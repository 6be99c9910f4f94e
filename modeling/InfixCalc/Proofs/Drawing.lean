/-
# The caret stands under the error

The detail of an error in an expression is a drawing of two lines: the expression with a space for
each blank (`Diagnostic.DrawnAs`), and a caret behind as many spaces as characters come before the
error.  As a part of the diagnostic both lines begin with the same four characters, the first one
because every detail does and the second one because the drawing says so.  So the caret stands under
the character at the position of the error.

**`Diagnostic.drawing_of_calculate`** says so of every error of a calculation.  Only errors of
reading have a position, and they point to what they are about (`CalcError.IsAbout`).
-/

import InfixCalc.Proofs.Accounting
import InfixCalc.Proofs.ErrorPosition
import InfixCalc.Proofs.Restriction

namespace InfixCalc

/-- The error is about this character: it is the one that is unexpected, or the first digit of a
literal that is too large. -/
def CalcError.IsAbout (c : Char) : CalcError → Prop
  | parse (.unexpected found _) => found = c
  | parse (.overflow literal _) => literal.toList.head? = some c ∧ c.isDigit
  | parse (.invalidArgument _) | eval _ => False

section Position

variable {text : List Char} {e : ParseError}

/-- A literal that is too large is one of digits. -/
theorem forall_isDigit_of_overflow (hblank : ¬ text.all Text.isBlank) {literal : String} {p : Nat}
    (he : postfixOf text = .error (.overflow literal p)) : ∀ c ∈ literal.toList, c.isDigit := by
  obtain ⟨_, -, -, hstops⟩ | ⟨-, c, -, hends⟩ := stopsAt_or_endsEarly hblank he
  · obtain ⟨-, start, run, hrun, -, -, heq⟩ | ⟨-, c, -, heq⟩ := hstops
    · obtain ⟨before, after, -, -, hdigits, -⟩ := hrun
      obtain ⟨rfl, -⟩ := ParseError.overflow.inj heq
      rwa [String.toList_ofList]
    · cases heq
  · obtain ⟨-, d, -, heq⟩ | ⟨-, q, -, -, heq⟩ := hends <;> cases heq

/-- An error of the yard names what stands in the text at its place. -/
theorem located_of_error (hblank : ¬ text.all Text.isBlank) (he : postfixOf text = .error e) :
    e.Located text := by
  obtain ⟨_, -, -, hstops⟩ | ⟨-, hends⟩ := stopsAt_or_endsEarly hblank he
  · exact hstops.located
  · exact hends.located

/-- **An error of reading points to the character that it is about.** -/
theorem exists_isAbout (hblank : ¬ text.all Text.isBlank) (he : postfixOf text = .error e) :
    ∃ place c, e.position? = some place ∧ text[place]? = some c ∧
      CalcError.IsAbout c (.parse e) := by
  have hlocated := located_of_error hblank he
  cases e with
  | invalidArgument cause => exact hlocated.elim
  | unexpected found position => exact ⟨position, found, rfl, hlocated, rfl⟩
  | overflow literal position =>
    obtain ⟨hne, after, hdrop⟩ := hlocated
    obtain ⟨c, more, hliteral⟩ := List.exists_cons_of_ne_nil hne
    have hdigit : c.isDigit := by
      refine forall_isDigit_of_overflow hblank he c ?_
      rw [hliteral]
      exact List.mem_cons_self
    have hget : text[position]? = some c := by
      rw [← Nat.add_zero position, ← List.getElem?_drop, ← hdrop, hliteral]
      rfl
    refine ⟨position, c, rfl, hget, ?_, hdigit⟩
    rw [hliteral]
    rfl

end Position

namespace Calculator

variable {calculator : Calculator} {text : String} {err : CalcError}

/-- Reading refuses the argument, or it fails where the settings admit the expression. -/
theorem cases_of_parse_error (h : (calculator.parse (some text)).value = .error err) :
    (∃ cause, err = .parse (.invalidArgument cause)) ∨
      ∃ cause, err = .parse cause ∧ ¬ text.toList.all Text.isBlank ∧
        calculator.settings.Admits text.length ∧ postfixOf text.toList = .error cause := by
  by_cases hblank : text.toList.all Text.isBlank
  · rw [parse_of_refused (checkArgument_of_blank hblank)] at h
    exact .inl ⟨_, (Except.error.inj h).symm⟩
  · cases hlimit : calculator.settings.exceeded? text.length with
    | some limit =>
      obtain ⟨hmax, hlong⟩ := Settings.exceeded?_eq_some_iff.1 hlimit
      rw [parse_of_exceeded hblank hmax hlong] at h
      exact .inl ⟨_, (Except.error.inj h).symm⟩
    | none =>
      have hadmits := Settings.exceeded?_eq_none_iff.1 hlimit
      rw [parse_of_admits hblank hadmits, value_parseAdmitted, parse_eq, if_neg hblank] at h
      cases hcause : postfixOf text.toList with
      | ok tokens =>
        rw [hcause] at h
        cases h
      | error cause =>
        rw [hcause] at h
        exact .inr ⟨cause, (Except.error.inj h).symm, hblank, hadmits, rfl⟩

/-- **The three errors of a calculation**: of the postfix sequence, of the argument, and of the
text. -/
theorem cases_of_calculate_error (h : (calculator.calculate (some text)).value = .error err) :
    (∃ cause, err = .eval cause) ∨ (∃ cause, err = .parse (.invalidArgument cause)) ∨
      ∃ cause, err = .parse cause ∧ ¬ text.toList.all Text.isBlank ∧
        calculator.settings.Admits text.length ∧ postfixOf text.toList = .error cause := by
  rw [value_calculate] at h
  cases hparse : (calculator.parse (some text)).value with
  | error cause =>
    rw [hparse] at h
    obtain rfl : cause = err := Except.error.inj h
    exact .inr (cases_of_parse_error hparse)
  | ok tokens =>
    rw [hparse, Except.bind] at h
    cases heval : evaluate tokens with
    | ok value =>
      rw [heval] at h
      cases h
    | error cause =>
      rw [heval] at h
      exact .inl ⟨cause, (Except.error.inj h).symm⟩

/-- **The position of an error** is that of the character that it is about. -/
theorem exists_isAbout_of_calculate (h : (calculator.calculate (some text)).value = .error err)
    {place : Nat} (hplace : err.position? = some place) :
    ∃ c, text.toList[place]? = some c ∧ err.IsAbout c := by
  obtain ⟨cause, rfl⟩ | ⟨cause, rfl⟩ | ⟨cause, rfl, hblank, -, hcause⟩ := cases_of_calculate_error h
  · cases hplace
  · cases hplace
  · obtain ⟨found, c, hfound, hc, habout⟩ := exists_isAbout hblank hcause
    obtain rfl : found = place := Option.some.inj (hfound.symm.trans hplace)
    exact ⟨c, hc, habout⟩

end Calculator

namespace Diagnostic

/-- What begins every line of a diagnostic below the first. -/
def bar : List Char := "  | ".toList

/-- The line with a caret behind this many spaces. -/
def caretLine (place : Nat) : List Char := bar ++ (List.replicate place ' ' ++ ['^'])

/-- How a character of an expression is drawn. -/
def drawnChar (c : Char) : Char := if Text.isBlank c then ' ' else c

/-- What is shown is the expression, a character for a character: a space for each blank, and
everything else as it is. -/
structure DrawnAs (expression shown : List Char) : Prop where
  length_eq : shown.length = expression.length
  getElem?_eq : ∀ (place : Nat) (c : Char), expression[place]? = some c →
    shown[place]? = some (drawnChar c)
  eq_space : ∀ c ∈ shown, Text.isBlank c → c = ' '

section Lines

/-- The margin starts a new line. -/
theorem toList_margin : margin.toList = '\n' :: bar := rfl

/-- A drawing has one character for each of the expression. -/
theorem toList_onOneLine (expression : String) :
    (onOneLine expression).toList = expression.toList.map drawnChar := String.toList_map

/-- The only blank that is drawn is the space. -/
theorem eq_space_of_drawnChar {c : Char} (h : Text.isBlank (drawnChar c)) : drawnChar c = ' ' := by
  unfold drawnChar at h ⊢
  split
  · rfl
  · rename_i hc
    rw [if_neg hc] at h
    exact absurd h hc

/-- What is drawn on one line stands for the expression character by character. -/
theorem drawnAs_onOneLine (expression : String) :
    DrawnAs expression.toList (onOneLine expression).toList := by
  rw [toList_onOneLine]
  refine ⟨List.length_map drawnChar, fun place c hc => ?_, fun c hc hblank => ?_⟩
  · rw [List.getElem?_map, hc]
    rfl
  · obtain ⟨d, -, rfl⟩ := List.mem_map.1 hc
    exact eq_space_of_drawnChar hblank

/-- A drawing stays on one line. -/
theorem DrawnAs.lineFeed_notMem {expression shown : List Char} (h : DrawnAs expression shown) :
    '\n' ∉ shown := by
  intro hmem
  have hspace := h.eq_space '\n' hmem (by decide)
  exact absurd hspace (by decide)

/-- The caret stands on one line. -/
theorem lineFeed_notMem_caretLine (place : Nat) : '\n' ∉ caretLine place := by
  rw [caretLine, List.mem_append, List.mem_append, List.mem_replicate]
  rintro (hbar | ⟨-, hspace⟩ | hcaret)
  · exact absurd hbar (by decide)
  · exact absurd hspace (by decide)
  · exact absurd hcaret (by decide)

/-- The caret is behind the bar and the spaces. -/
theorem idxOf_caretLine (place : Nat) : (caretLine place).idxOf '^' = 4 + place := by
  have hspaces : '^' ∉ List.replicate place ' ' := fun hmem =>
    absurd (List.eq_of_mem_replicate hmem) (by decide)
  rw [caretLine, List.idxOf_append_of_notMem (by decide), List.idxOf_append_of_notMem hspaces,
    List.length_replicate]
  rfl

/-- With a place, the drawing is followed by the line of the caret. -/
theorem toList_drawing_some (expression : String) (place : Nat) :
    (drawing expression (some place)).toList =
      (onOneLine expression).toList ++ '\n' :: caretLine place := by
  have hcaret : "^".toList = ['^'] := rfl
  simp only [drawing, String.toList_append, toList_margin, String.toList_ofList, hcaret, caretLine,
    List.append_assoc, List.cons_append]

/-- **A drawing with a caret** has two lines. -/
theorem splitOn_drawing_some (expression : String) (place : Nat) :
    (drawing expression (some place)).toList.splitOn '\n' =
      [(onOneLine expression).toList, caretLine place] := by
  rw [toList_drawing_some,
    List.splitOn_append_cons_self_of_not_mem (drawnAs_onOneLine expression).lineFeed_notMem,
    List.splitOn_eq_singleton (lineFeed_notMem_caretLine place)]

/-- A diagnostic with a detail is written like one without, and then the detail behind a bar. -/
theorem toList_text_of_detail {diagnostic : Diagnostic} {detail : String}
    (h : diagnostic.detail = some detail) :
    diagnostic.text.toList =
      { diagnostic with detail := none }.text.toList ++ '\n' :: (bar ++ detail.toList) := by
  simp only [text, h, String.toList_append, toList_margin, String.toList_empty, List.append_nil,
    List.append_assoc, List.cons_append]

/-- **The lines of a diagnostic** are those of its header and then those of its detail, the first
of them behind a bar. -/
theorem splitOn_text_of_detail {diagnostic : Diagnostic} {detail : String}
    (h : diagnostic.detail = some detail) :
    diagnostic.text.toList.splitOn '\n' =
      { diagnostic with detail := none }.text.toList.splitOn '\n' ++
        (bar ++ detail.toList).splitOn '\n' := by
  rw [toList_text_of_detail h, List.splitOn_append_cons_self]

/-- The lines of a drawing with a caret, as a part of a diagnostic: both begin with a bar. -/
theorem splitOn_bar_drawing_some (expression : String) (place : Nat) :
    (bar ++ (drawing expression (some place)).toList).splitOn '\n' =
      [bar ++ (onOneLine expression).toList, caretLine place] := by
  have hline : '\n' ∉ bar ++ (onOneLine expression).toList := by
    rw [List.mem_append]
    rintro (hbar | hline)
    · exact absurd hbar (by decide)
    · exact (drawnAs_onOneLine expression).lineFeed_notMem hline
  rw [toList_drawing_some, ← List.append_assoc, List.splitOn_append_cons_self_of_not_mem hline,
    List.splitOn_eq_singleton (lineFeed_notMem_caretLine place)]

end Lines

/-- **The caret stands under the error.**  The detail of an error that a calculation gives is the
expression, drawn on one line.  If the error has a position, a second line follows with a caret.  In
the diagnostic as it is written both lines begin with a bar, so the caret is in the column of the
character that the error is about.  Without a position there is the one line only.  A case of a
corpus that fails with the error has the same detail. -/
theorem drawing_of_calculate {calculator : Calculator} {expression : String} {err : CalcError}
    (h : (calculator.calculate (some expression)).value = .error err) (source : String) :
    let shown := (onOneLine expression).toList
    let diagnostic := ofError source (some expression) err
    DrawnAs expression.toList shown ∧
      ∃ detail, diagnostic.detail = some detail ∧
        (∀ place, err.position? = some place →
          detail.toList.splitOn '\n' = [shown, caretLine place] ∧
          diagnostic.text.toList.splitOn '\n' =
            ("[ERROR] " ++ source ++ ": " ++ err.message).toList.splitOn '\n' ++
              [bar ++ shown, caretLine place] ∧
          (caretLine place).idxOf '^' = 4 + place ∧
          ∃ c, expression.toList[place]? = some c ∧ err.IsAbout c ∧
            (bar ++ shown)[4 + place]? = some (drawnChar c)) ∧
        (err.position? = none → detail.toList = shown ∧ '\n' ∉ shown) ∧
        ∀ case : CorpusCase, case.expression = some expression →
          ¬ case.expected.MetBy (.error err) →
            ∃ found, (case.check calculator source).value = some found ∧
              found.detail = some detail := by
  intro shown diagnostic
  have hdrawn : DrawnAs expression.toList shown := drawnAs_onOneLine expression
  refine ⟨hdrawn, drawing expression err.position?, rfl, fun place hplace => ?_, fun hnone => ?_,
    fun case hcase hmet => ?_⟩
  · have hdetail : diagnostic.detail = some (drawing expression (some place)) := by
      rw [← hplace]
      rfl
    have hheader : { diagnostic with detail := none }.text =
        "[ERROR] " ++ source ++ ": " ++ err.message := by
      simp only [text, diagnostic, ofError, plain, String.append_empty]
      rfl
    -- the position of an error of a calculation is always in the expression
    obtain ⟨c, hc, habout⟩ :=
      Calculator.exists_isAbout_of_calculate h hplace
    rw [hplace]
    refine ⟨splitOn_drawing_some expression place, ?_, idxOf_caretLine place, c, hc, habout, ?_⟩
    · rw [splitOn_text_of_detail hdetail, splitOn_bar_drawing_some, hheader]
    · rw [List.getElem?_append_right (Nat.le_add_right 4 place),
        show 4 + place - bar.length = place from Nat.add_sub_cancel_left 4 place]
      exact hdrawn.getElem?_eq place c hc
  · rw [hnone]
    exact ⟨rfl, hdrawn.lineFeed_notMem⟩
  · rw [← CorpusCase.accepts_iff] at hmet
    refine ⟨case.mismatch source (.error err), ?_, ?_⟩
    · simp only [CorpusCase.check, hcase, h, if_neg hmet]
    · simp only [CorpusCase.mismatch, ofError, hcase, Option.map_some]

/-- A blank of three bytes and a line feed before the error: they are drawn as spaces, and the caret
is under the `p`. -/
theorem splitOn_text_below_line_feed :
    (Calculator.calculate {} (some "1\u3000+\n2p")).value = .error (.parse (.unexpected 'p' 5)) ∧
      (ofError "input" (some "1\u3000+\n2p")
          (.parse (.unexpected 'p' 5))).text.toList.splitOn '\n' =
        ["[ERROR] input: 解析错误: 位置 5 处出现意外的字符 'p'".toList,
          "  | 1 + 2p".toList,
          "  |      ^".toList] := by
  have h : (Calculator.calculate {} (some "1\u3000+\n2p")).value =
      .error (.parse (.unexpected 'p' 5)) := rfl
  obtain ⟨-, detail, -, hplace, -⟩ := drawing_of_calculate h "input"
  obtain ⟨-, htext, -⟩ := hplace 5 rfl
  exact ⟨h, htext.trans (by decide +kernel)⟩

end Diagnostic
end InfixCalc
