/-
# How a text spells its lexemes

`Lexeme.Spells text lexemes` says, without a reader, which lexemes a text has: blanks may stand
anywhere between them, a literal takes all the digits it can, and every other lexeme is one
character.  A text has exactly one such sequence, and it is the one that is read
(`Lexeme.spells_iff`).

Blanks leave no trace: the characters of the lexemes are the characters of the text that are no
blanks (`Lexeme.Spells.flatMap_chars`).
-/

import InfixCalc.Proofs.Reading

namespace InfixCalc

namespace Lexeme

/-- The characters of the lexeme are of its kind. -/
def WellFormed : Lexeme → Prop
  | literal first more => ∀ c ∈ first :: more, c.isDigit
  | unknown c => CharClass.of c = .other
  | _ => True

/-- A literal may only end where no digit follows; any other lexeme may end anywhere. -/
def MayEndBefore (after : List Char) : Lexeme → Prop
  | literal _ _ => ∀ c ∈ after.head?, ¬ c.isDigit
  | _ => True

/-- The text consists of these lexemes, in this order, and blanks. -/
inductive Spells : List Char → List Lexeme → Prop
  | nil : Spells [] []
  | blank {c : Char} {text : List Char} {lexemes : List Lexeme} (isBlank : Text.isBlank c)
      (rest : Spells text lexemes) : Spells (c :: text) lexemes
  | lexeme {lexeme : Lexeme} {text : List Char} {lexemes : List Lexeme}
      (wellFormed : lexeme.WellFormed) (mayEnd : lexeme.MayEndBefore text)
      (rest : Spells text lexemes) : Spells (lexeme.chars ++ text) (lexeme :: lexemes)

/-- Every lexeme is written with some character. -/
theorem chars_ne_nil (lexeme : Lexeme) : lexeme.chars ≠ [] := by
  cases lexeme <;> exact List.cons_ne_nil _ _

/-- **A lexeme that may end where its characters do is read first.** -/
theorem readFrom_chars_append {position : Nat} {lexeme : Lexeme} {text : List Char}
    (hw : lexeme.WellFormed) (hend : lexeme.MayEndBefore text) :
    readFrom position (lexeme.chars ++ text) =
      ⟨lexeme, position⟩ :: readFrom (position + lexeme.chars.length) text := by
  cases lexeme with
  | literal first more => exact readFrom_digits hw hend
  | openParen =>
    change readFrom position ('(' :: text) = _
    rw [readFrom_cons, Placed.consChar, CharClass.of_eq_openParen_iff.2 rfl]
    rfl
  | closeParen =>
    change readFrom position (')' :: text) = _
    rw [readFrom_cons, Placed.consChar, CharClass.of_eq_closeParen_iff.2 rfl]
    rfl
  | operator op =>
    change readFrom position (op.symbol :: text) = _
    rw [readFrom_cons, Placed.consChar, CharClass.of_eq_operator_iff.2 rfl]
    rfl
  | unknown c =>
    change readFrom position (c :: text) = _
    rw [readFrom_cons, Placed.consChar, show CharClass.of c = .other from hw]
    rfl

/-- Blanks may stand in front. -/
theorem Spells.blanks_append {blanks text : List Char} {lexemes : List Lexeme}
    (h : Spells text lexemes) (hblanks : ∀ c ∈ blanks, Text.isBlank c) :
    Spells (blanks ++ text) lexemes := by
  induction blanks with
  | nil => exact h
  | cons c blanks ih =>
    obtain ⟨hc, hblanks⟩ := List.forall_mem_cons.1 hblanks
    exact .blank hc (ih hblanks)

/-- What a text spells is what is read. -/
theorem Spells.map_readFrom {text : List Char} {lexemes : List Lexeme} (h : Spells text lexemes)
    (position : Nat) : (readFrom position text).map Placed.lexeme = lexemes := by
  induction h generalizing position with
  | nil => rfl
  | blank isBlank _ ih =>
    rw [readFrom_cons, Placed.consChar, CharClass.of_eq_separator_iff.2 isBlank]
    exact ih (position + 1)
  | lexeme wellFormed mayEnd _ ih =>
    rw [readFrom_chars_append wellFormed mayEnd, List.map_cons, ih]

/-- Every text spells some lexemes. -/
theorem exists_spells (text : List Char) : ∃ lexemes, Spells text lexemes := by
  match text with
  | [] => exact ⟨[], .nil⟩
  | c :: text =>
    -- each class of the first character starts one kind of lexeme, and only digits take more
    rcases hc : CharClass.of c with _ | _ | _ | _ | op | _
    · obtain ⟨lexemes, h⟩ := exists_spells text
      exact ⟨lexemes, .blank (CharClass.of_eq_separator_iff.1 hc) h⟩
    · obtain ⟨lexemes, h⟩ := exists_spells (text.dropWhile Char.isDigit)
      have hdigits : ∀ d ∈ c :: text.takeWhile Char.isDigit, d.isDigit := by
        intro d hd
        rcases List.mem_cons.1 hd with rfl | hd
        · exact CharClass.of_eq_digit_iff.1 hc
        · exact List.all_eq_true.1 List.all_takeWhile d hd
      have hafter := not_isDigit_of_mem_head?_dropWhile text
      refine ⟨.literal c (text.takeWhile Char.isDigit) :: lexemes, ?_⟩
      have hs : Spells (c :: text.takeWhile Char.isDigit ++ text.dropWhile Char.isDigit)
          (.literal c (text.takeWhile Char.isDigit) :: lexemes) :=
        @Spells.lexeme (.literal c (text.takeWhile Char.isDigit)) _ _ hdigits hafter h
      rwa [List.cons_append, List.takeWhile_append_dropWhile] at hs
    · obtain ⟨lexemes, h⟩ := exists_spells text
      obtain rfl := CharClass.of_eq_openParen_iff.1 hc
      exact ⟨.openParen :: lexemes, @Spells.lexeme .openParen _ _ trivial trivial h⟩
    · obtain ⟨lexemes, h⟩ := exists_spells text
      obtain rfl := CharClass.of_eq_closeParen_iff.1 hc
      exact ⟨.closeParen :: lexemes, @Spells.lexeme .closeParen _ _ trivial trivial h⟩
    · obtain ⟨lexemes, h⟩ := exists_spells text
      obtain rfl := CharClass.of_eq_operator_iff.1 hc
      exact ⟨.operator op :: lexemes, @Spells.lexeme (.operator op) _ _ trivial trivial h⟩
    · obtain ⟨lexemes, h⟩ := exists_spells text
      exact ⟨.unknown c :: lexemes, @Spells.lexeme (.unknown c) _ _ hc trivial h⟩
termination_by text.length
decreasing_by
  all_goals
    have := (List.dropWhile_sublist (l := text) Char.isDigit).length_le
    simp only [List.length_cons]
    omega

/-- **A text spells one sequence of lexemes**, the one that is read. -/
theorem spells_iff {text : List Char} {lexemes : List Lexeme} :
    Spells text lexemes ↔ (read text).map Placed.lexeme = lexemes := by
  constructor
  · intro h
    exact h.map_readFrom 0
  · rintro rfl
    obtain ⟨lexemes, h⟩ := exists_spells text
    rwa [read, h.map_readFrom 0]

/-- Lexemes are read in the order of their positions. -/
theorem pairwise_readFrom (position : Nat) (text : List Char) :
    (readFrom position text).Pairwise fun p q => p.position < q.position := by
  obtain ⟨lexemes, h⟩ := exists_spells text
  induction h generalizing position with
  | nil => exact .nil
  | blank isBlank _ ih =>
    rw [readFrom_cons, Placed.consChar, CharClass.of_eq_separator_iff.2 isBlank]
    exact ih (position + 1)
  | @lexeme lexeme text lexemes wellFormed mayEnd _ ih =>
    rw [readFrom_chars_append wellFormed mayEnd]
    refine List.pairwise_cons.2 ⟨fun q hq => ?_, ih _⟩
    have hle := le_position_of_mem_readFrom q hq
    have hlength := List.length_pos_iff.2 lexeme.chars_ne_nil
    exact Nat.lt_of_lt_of_le (Nat.lt_add_of_pos_right hlength) hle

/-- What a text spells is well formed. -/
theorem Spells.wellFormed {text : List Char} {lexemes : List Lexeme} (h : Spells text lexemes) :
    ∀ lexeme ∈ lexemes, lexeme.WellFormed := by
  induction h with
  | nil => exact fun lexeme hmem => by cases hmem
  | blank _ _ ih => exact ih
  | lexeme wellFormed _ _ ih =>
    intro other hmem
    rcases List.mem_cons.1 hmem with rfl | hmem
    · exact wellFormed
    · exact ih other hmem

/-- No character of a lexeme is blank. -/
theorem WellFormed.isBlank_eq_false {lexeme : Lexeme} (hw : lexeme.WellFormed) :
    ∀ c ∈ lexeme.chars, Text.isBlank c = false := by
  intro c hc
  cases lexeme with
  | literal first more => exact CharClass.isBlank_of_isDigit (hw c hc)
  | openParen =>
    obtain rfl := List.mem_singleton.1 hc
    decide
  | closeParen =>
    obtain rfl := List.mem_singleton.1 hc
    decide
  | operator op =>
    obtain rfl := List.mem_singleton.1 hc
    cases op <;> decide
  | unknown d =>
    obtain rfl : c = d := List.mem_singleton.1 hc
    rw [← Bool.not_eq_true]
    intro hb
    have ho : CharClass.of c = .other := hw
    rw [CharClass.of_eq_separator_iff.2 hb] at ho
    cases ho

/-- The characters of the lexemes are those of the text that are no blanks. -/
theorem Spells.flatMap_chars {text : List Char} {lexemes : List Lexeme}
    (h : Spells text lexemes) : lexemes.flatMap chars = text.filter fun c => !Text.isBlank c := by
  induction h with
  | nil => rfl
  | blank isBlank _ ih => rw [ih, List.filter_cons_of_neg (by simp [isBlank])]
  | lexeme wellFormed _ _ ih =>
    rw [List.flatMap_cons, ih, List.filter_append]
    congr 1
    refine (List.filter_eq_self.2 fun c hc => ?_).symm
    rw [wellFormed.isBlank_eq_false c hc]
    rfl

/-- Nothing is read exactly from a text of blanks. -/
theorem read_eq_nil_iff {text : List Char} : read text = [] ↔ text.all Text.isBlank := by
  constructor
  · intro h
    have hchars := (spells_iff.2 (congrArg (List.map Placed.lexeme) h)).flatMap_chars
    have hblank := List.filter_eq_nil_iff.1 hchars.symm
    simpa using hblank
  · intro h
    have hspells := Spells.nil.blanks_append (List.all_eq_true.1 h)
    rw [List.append_nil] at hspells
    exact List.map_eq_nil_iff.1 (spells_iff.1 hspells)

end Lexeme
end InfixCalc
