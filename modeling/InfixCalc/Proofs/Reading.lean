/-
# Reading in parts

A text is read lexeme by lexeme, and only a literal has more than one character.  So reading may
be cut at any place that is not inside a run of digits (`Lexeme.read_append`), and a run of digits
that is as long as possible is one literal (`Lexeme.read_digits`).  A place inside a run of digits
has such a run around it (`Lexeme.exists_digits_across`).
-/

import InfixCalc.Lexeme

namespace InfixCalc

namespace Placed

/-- A digit is a literal by itself unless the literal that follows it starts right after it. -/
theorem consDigit_of_apart {digit : Char} {position : Nat} {following : List Placed}
    (h : ∀ first more rest, following ≠ ⟨.literal first more, position + 1⟩ :: rest) :
    consDigit digit position following = ⟨.literal digit [], position⟩ :: following := by
  unfold consDigit
  split
  · rename_i first more next rest
    split
    · rename_i hn
      exact absurd (by rw [hn]) (h first more rest)
    · rfl
  · rfl

/-- A digit goes to what directly follows it, whatever comes after that. -/
theorem consDigit_append {digit : Char} {position : Nat} (following rest : List Placed)
    (h : following ≠ []) :
    consDigit digit position (following ++ rest) = consDigit digit position following ++ rest := by
  obtain ⟨next, following, rfl⟩ := List.exists_cons_of_ne_nil h
  obtain ⟨lexeme, next⟩ := next
  cases lexeme with
  | literal first more =>
    simp only [List.cons_append, consDigit]
    split <;> rfl
  | _ => rfl

/-- A digit starts a literal, and what comes behind that literal is not touched. -/
theorem exists_consDigit_eq (digit : Char) (position : Nat) (following : List Placed) :
    ∃ more rest, consDigit digit position following = ⟨.literal digit more, position⟩ :: rest ∧
      ∀ p ∈ rest, p ∈ following := by
  unfold consDigit
  split
  · rename_i first more next rest
    split
    · exact ⟨first :: more, rest, rfl, fun p hp => List.mem_cons_of_mem _ hp⟩
    · exact ⟨[], _, rfl, fun p hp => hp⟩
  · exact ⟨[], _, rfl, fun p hp => hp⟩

/-- A lexeme at a position comes before those at later positions. -/
theorem le_position_cons {lexeme : Lexeme} {position : Nat} {rest : List Placed}
    (h : ∀ p ∈ rest, position + 1 ≤ p.position) :
    ∀ p ∈ (⟨lexeme, position⟩ : Placed) :: rest, position ≤ p.position := by
  intro p hp
  rcases List.mem_cons.1 hp with rfl | hp
  · exact Nat.le_refl _
  · exact Nat.le_of_succ_le (h p hp)

/-- The lexemes of a text lie at or behind its first character. -/
theorem le_position_consChar {c : Char} {position : Nat} {following : List Placed}
    (h : ∀ p ∈ following, position + 1 ≤ p.position) :
    ∀ p ∈ consChar c position following, position ≤ p.position := by
  unfold consChar
  split
  case h_1 => exact fun p hp => Nat.le_of_succ_le (h p hp)
  case h_2 =>
    obtain ⟨more, rest, heq, hrest⟩ := exists_consDigit_eq c position following
    rw [heq]
    exact le_position_cons fun p hp => h p (hrest p hp)
  all_goals exact le_position_cons h

end Placed

namespace Lexeme

/-- No lexeme starts before the text. -/
theorem le_position_of_mem_readFrom {position : Nat} {text : List Char} :
    ∀ p ∈ readFrom position text, position ≤ p.position := by
  induction text generalizing position with
  | nil => intro p hp; cases hp
  | cons c text ih =>
    rw [readFrom_cons]
    exact Placed.le_position_consChar ih

/-- A text that does not start with a digit does not start with a literal. -/
theorem readFrom_ne_literal {position : Nat} {text : List Char}
    (h : ∀ c ∈ text.head?, ¬ c.isDigit) (first : Char) (more : List Char) (rest : List Placed) :
    readFrom position text ≠ ⟨.literal first more, position⟩ :: rest := by
  intro heq
  cases text with
  | nil => cases heq
  | cons c text =>
    rw [readFrom_cons] at heq
    unfold Placed.consChar at heq
    split at heq
    case h_1 =>
      have hle : ∀ p ∈ readFrom (position + 1) text, position + 1 ≤ p.position :=
        le_position_of_mem_readFrom
      rw [heq] at hle
      exact absurd (hle _ List.mem_cons_self) (Nat.not_succ_le_self position)
    case h_2 hc => exact h c rfl (CharClass.of_eq_digit_iff.1 hc)
    all_goals cases heq

/-- **Reading may be cut** where the first part does not end in a digit, or the second does not
start with one. -/
theorem readFrom_append {position : Nat} {first second : List Char}
    (h : (∀ c ∈ first.getLast?, ¬ c.isDigit) ∨ ∀ c ∈ second.head?, ¬ c.isDigit) :
    readFrom position (first ++ second) =
      readFrom position first ++ readFrom (position + first.length) second := by
  induction first generalizing position with
  | nil => rfl
  | cons c first ih =>
    have hfirst : (∀ d ∈ first.getLast?, ¬ d.isDigit) ∨ ∀ d ∈ second.head?, ¬ d.isDigit := by
      refine h.imp_left fun hc d hd => hc d ?_
      cases first with
      | nil => cases hd
      | cons e first => rwa [List.getLast?_cons_cons]
    rw [List.cons_append, readFrom_cons, readFrom_cons, ih hfirst, List.length_cons,
      show position + (first.length + 1) = position + 1 + first.length by omega]
    generalize hA : readFrom (position + 1) first = following
    unfold Placed.consChar
    split
    case h_2 hc =>
      by_cases hne : following = []
      · subst hne
        rw [List.nil_append, Placed.consDigit_of_apart]
        · rfl
        -- the second part starts no literal right after the digit
        · intro d more rest heq
          rcases h with hlast | hhead
          · cases first with
            | nil => exact hlast c rfl (CharClass.of_eq_digit_iff.1 hc)
            | cons e first =>
              have hle := le_position_of_mem_readFrom _ (heq ▸ List.mem_cons_self)
              simp only [List.length_cons] at hle
              omega
          · cases first with
            | nil => exact readFrom_ne_literal hhead d more rest heq
            | cons e first =>
              have hle := le_position_of_mem_readFrom _ (heq ▸ List.mem_cons_self)
              simp only [List.length_cons] at hle
              omega
      · exact Placed.consDigit_append following _ hne
    all_goals rfl

/-- **Two texts are read one after the other** unless a literal goes across. -/
theorem read_append {first second : List Char}
    (h : (∀ c ∈ first.getLast?, ¬ c.isDigit) ∨ ∀ c ∈ second.head?, ¬ c.isDigit) :
    read (first ++ second) = read first ++ readFrom first.length second := by
  rw [read, readFrom_append h, Nat.zero_add]
  rfl

/-- **A run of digits is one literal** when no digit follows it. -/
theorem readFrom_digits {position : Nat} {first : Char} {more after : List Char}
    (hdigits : ∀ c ∈ first :: more, c.isDigit) (hafter : ∀ c ∈ after.head?, ¬ c.isDigit) :
    readFrom position (first :: more ++ after) =
      ⟨.literal first more, position⟩ :: readFrom (position + (more.length + 1)) after := by
  induction more generalizing position first with
  | nil =>
    rw [List.cons_append, readFrom_cons, Placed.consChar,
      CharClass.of_eq_digit_iff.2 (hdigits first List.mem_cons_self)]
    exact Placed.consDigit_of_apart (readFrom_ne_literal hafter)
  | cons second more ih =>
    rw [List.cons_append, readFrom_cons, Placed.consChar,
      CharClass.of_eq_digit_iff.2 (hdigits first List.mem_cons_self),
      ih fun c hc => hdigits c (List.mem_cons_of_mem _ hc)]
    simp only [Placed.consDigit, if_true, List.length_cons]
    rw [show position + 1 + (more.length + 1) = position + (more.length + 1 + 1) by omega]

/-- A text that ends in a digit ends in a run of digits with no digit before it. -/
theorem exists_last_digits {text : List Char} {c : Char} (hc : c ∈ text.getLast?)
    (hd : c.isDigit) :
    ∃ before first more, text = before ++ first :: more ∧
      (∀ d ∈ first :: more, d.isDigit) ∧ ∀ d ∈ before.getLast?, ¬ d.isDigit := by
  induction text with
  | nil => cases hc
  | cons e text ih =>
    cases text with
    | nil =>
      obtain rfl : e = c := Option.some.inj hc
      exact ⟨[], e, [], rfl, by simpa using hd, fun d hd => by cases hd⟩
    | cons f text =>
      rw [List.getLast?_cons_cons] at hc
      obtain ⟨before, first, more, heq, hdigits, hbefore⟩ := ih hc
      -- where the run of the rest starts at its front, it may take in one digit more
      cases before with
      | cons b before =>
        exact ⟨e :: b :: before, first, more, by rw [heq]; rfl, hdigits,
          by rwa [List.getLast?_cons_cons]⟩
      | nil =>
        by_cases he : e.isDigit
        · refine ⟨[], e, first :: more, by rw [heq]; rfl, ?_, fun d hd => by cases hd⟩
          intro d hd
          rcases List.mem_cons.1 hd with rfl | hd
          · exact he
          · exact hdigits d hd
        · refine ⟨[e], first, more, by rw [heq]; rfl, hdigits, ?_⟩
          intro d hd
          obtain rfl : e = d := Option.some.inj hd
          exact he

/-- No digit comes after all the digits at the start of a text. -/
theorem not_isDigit_of_mem_head?_dropWhile (text : List Char) :
    ∀ c ∈ (text.dropWhile Char.isDigit).head?, ¬ c.isDigit := by
  intro c hc
  have h := List.head?_dropWhile_not Char.isDigit text
  rw [Option.mem_def.1 hc] at h
  simpa using h

/-- A text that starts with no digit has none in front. -/
theorem not_isDigit_of_mem_head?_cons {d : Char} (hd : ¬ d.isDigit) (rest : List Char) :
    ∀ c ∈ (d :: rest).head?, ¬ c.isDigit :=
  fun _ hc => Option.some.inj hc ▸ hd

/-- A text that starts with a digit starts with a literal. -/
theorem exists_readFrom_digit {c : Char} (hc : c.isDigit) (position : Nat) (text : List Char) :
    ∃ more rest, readFrom position (c :: text) = ⟨.literal c more, position⟩ :: rest := by
  obtain ⟨more, rest, heq, -⟩ :=
    Placed.exists_consDigit_eq c position (readFrom (position + 1) text)
  refine ⟨more, rest, ?_⟩
  rw [readFrom_cons, Placed.consChar, CharClass.of_eq_digit_iff.2 hc]
  exact heq

/-- The place between two digits is inside a run of digits that is as long as possible.  Here `d`
is the digit behind the place, and `after` is what comes behind it. -/
theorem exists_digits_across {before : List Char} {c d : Char} (hc : c ∈ before.getLast?)
    (hcd : c.isDigit) (hd : d.isDigit) (after : List Char) :
    ∃ front first more run rest, before = front ++ first :: more ∧ after = run ++ rest ∧
      (∀ e ∈ first :: (more ++ d :: run), e.isDigit) ∧ (∀ e ∈ front.getLast?, ¬ e.isDigit) ∧
      ∀ e ∈ rest.head?, ¬ e.isDigit := by
  obtain ⟨front, first, more, rfl, hdigits, hfront⟩ := exists_last_digits hc hcd
  refine ⟨front, first, more, after.takeWhile Char.isDigit, after.dropWhile Char.isDigit, rfl,
    List.takeWhile_append_dropWhile.symm, ?_, hfront, not_isDigit_of_mem_head?_dropWhile after⟩
  intro e he
  rw [← List.cons_append] at he
  rcases List.mem_append.1 he with he | he
  · exact hdigits e he
  · rcases List.mem_cons.1 he with rfl | he
    · exact hd
    · exact List.all_eq_true.1 List.all_takeWhile e he

/-- **A group is read in parts:** its parentheses, what is inside, and what comes behind it. -/
theorem readFrom_group (position : Nat) (inner after : List Char) :
    readFrom position ('(' :: (inner ++ ')' :: after)) =
      ⟨.openParen, position⟩ :: (readFrom (position + 1) inner ++
        ⟨.closeParen, position + 1 + inner.length⟩ ::
          readFrom (position + 1 + inner.length + 1) after) := by
  have hclose : ∀ c ∈ (')' :: after).head?, ¬ c.isDigit :=
    not_isDigit_of_mem_head?_cons (by decide) after
  rw [readFrom_cons, readFrom_append (.inr hclose), readFrom_cons, Placed.consChar,
    Placed.consChar, CharClass.of_eq_openParen_iff.2 rfl, CharClass.of_eq_closeParen_iff.2 rfl]

/-- A maximal run of digits within a text is one of its lexemes. -/
theorem read_digits {before : List Char} {first : Char} {more after : List Char}
    (hdigits : ∀ c ∈ first :: more, c.isDigit) (hbefore : ∀ c ∈ before.getLast?, ¬ c.isDigit)
    (hafter : ∀ c ∈ after.head?, ¬ c.isDigit) :
    read (before ++ (first :: more ++ after)) =
      read before ++ ⟨.literal first more, before.length⟩ ::
        readFrom (before.length + (more.length + 1)) after := by
  rw [read_append (.inl hbefore), readFrom_digits hdigits hafter]

end Lexeme
end InfixCalc
