/-
# The texts of a JSON value

A value has many texts.  Each is the lexemes of the value in order, every lexeme in one of its
spellings, with any blanks before, between and after them (`Json.IsText`).  All of them are read as
the value (`Json.IsText.ofText?_eq`).

That a number ends where it does needs no condition on the blanks: in a value one of two lexemes in
a row is a mark (`Json.isChain_lexemes`), so a number is followed by a blank, a mark or nothing.

A string denotes a text if each character of the text stands there as it is or as `\u` escapes of
its UTF-16 code units (`Json.Denotes`).  Half of a surrogate pair denotes nothing.
-/

import InfixCalc.Proofs.JsonWriting
import Mathlib.Data.List.Chain
import Mathlib.Data.List.TakeWhile

namespace InfixCalc
namespace Json

/-- The text is the pieces in order, with blanks before, between and after them. -/
inductive Spaced : List (List Char) → List Char → Prop
  | nil {spaces : List Char} (hspaces : ∀ c ∈ spaces, isSpace c) : Spaced [] spaces
  | cons {spaces piece rest : List Char} {pieces : List (List Char)}
      (hspaces : ∀ c ∈ spaces, isSpace c) (h : Spaced pieces rest) :
      Spaced (piece :: pieces) (spaces ++ (piece ++ rest))

/-- The text is the pieces with blanks, as a check: before each piece all blanks are taken off. -/
def isSpaced : List (List Char) → List Char → Bool
  | [], text => text.all isSpace
  | piece :: pieces, text =>
    piece.isPrefixOf (text.dropWhile isSpace) &&
      isSpaced pieces ((text.dropWhile isSpace).drop piece.length)

/-- The check of a spacing is sound. -/
theorem spaced_of_isSpaced {pieces : List (List Char)} {text : List Char}
    (h : isSpaced pieces text) : Spaced pieces text := by
  induction pieces generalizing text with
  | nil => exact .nil (List.all_eq_true.1 h)
  | cons piece pieces ih =>
    obtain ⟨hpiece, hrest⟩ := Bool.and_eq_true_iff.1 h
    obtain ⟨rest, hdrop⟩ := List.isPrefixOf_iff_prefix.1 hpiece
    rw [← hdrop, List.drop_left] at hrest
    rw [← text.takeWhile_append_dropWhile, ← hdrop]
    exact .cons (fun c hc => List.mem_takeWhile_imp hc) (ih hrest)

/-- The text is one of the texts of the value. -/
def IsText (json : Json) (text : List Char) : Prop :=
  ∃ pieces, List.Forall₂ Lexeme.SpelledAs json.lexemes pieces ∧ Spaced pieces text

section Marks

/-- One of the two lexemes is a mark. -/
def Lexeme.Separated (first second : Lexeme) : Prop :=
  (∀ leaf, first ≠ .scalar leaf) ∨ ∀ leaf, second ≠ .scalar leaf

variable {mark : Lexeme} {lexemes more : List Lexeme}

/-- A mark may stand before any lexemes. -/
theorem isChain_mark_cons (hmark : ∀ leaf, mark ≠ .scalar leaf)
    (h : lexemes.IsChain Lexeme.Separated) : (mark :: lexemes).IsChain Lexeme.Separated :=
  List.isChain_cons.2 ⟨fun _ _ => .inl hmark, h⟩

/-- A mark may stand between any lexemes. -/
theorem isChain_append_mark (hmark : ∀ leaf, mark ≠ .scalar leaf)
    (h : lexemes.IsChain Lexeme.Separated) (hmore : more.IsChain Lexeme.Separated) :
    (lexemes ++ mark :: more).IsChain Lexeme.Separated := by
  refine List.isChain_append.2 ⟨h, isChain_mark_cons hmark hmore, ?_⟩
  rintro _ - _ ⟨⟩
  exact .inr hmark

/-- Commas keep apart what they stand between. -/
theorem isChain_intercalate {α : Type} {piece : α → List Lexeme} {items : List α}
    (h : ∀ item ∈ items, (piece item).IsChain Lexeme.Separated) :
    ([Lexeme.comma].intercalate (items.map piece)).IsChain Lexeme.Separated := by
  induction items with
  | nil => exact .nil
  | cons item items ih =>
    obtain ⟨hitem, hitems⟩ := List.forall_mem_cons.1 h
    cases items with
    | nil => rwa [List.map_singleton, List.intercalate_singleton]
    | cons next items =>
      rw [List.map_cons, List.map_cons, List.intercalate_cons_cons, List.append_assoc,
        ← List.map_cons]
      exact isChain_append_mark nofun hitem (ih hitems)

/-- **In a value one of two lexemes in a row is a mark.** -/
theorem isChain_lexemes (json : Json) : json.lexemes.IsChain Lexeme.Separated := by
  induction json using induction with
  | hscalar leaf =>
    rw [lexemes_scalar]
    exact .singleton _
  | harray items ih =>
    rw [lexemes_array]
    exact isChain_append_mark nofun (isChain_mark_cons nofun (isChain_intercalate ih)) .nil
  | hobject members ih =>
    have hcolon : ∀ leaf, Lexeme.colon ≠ .scalar leaf := nofun
    have hmember : ∀ member ∈ members, (memberLexemes member).IsChain Lexeme.Separated := by
      intro member hmem
      exact isChain_append_mark hcolon (.singleton _) (ih member hmem)
    rw [lexemes_object]
    exact isChain_append_mark nofun (isChain_mark_cons nofun (isChain_intercalate hmember)) .nil

end Marks

section Reading

/-- A number ends before a space. -/
theorem endsNumber_of_isSpace {c : Char} (h : isSpace c) (rest : List Char) :
    EndsNumber (c :: rest) := by
  simp only [isSpace, Bool.or_eq_true, beq_iff_eq] at h
  rcases h with ((rfl | rfl) | rfl) | rfl <;> exact endsNumber_cons rfl rest

/-- A mark ends a number. -/
theorem endsNumber_of_readFirst? {text rest : List Char} {mark : Lexeme}
    (hmark : ∀ leaf, mark ≠ .scalar leaf) (h : Lexeme.readFirst? text = some (mark, rest)) :
    EndsNumber text := by
  unfold Lexeme.readFirst? at h
  split at h
  iterate 6 exact endsNumber_cons rfl _
  · obtain ⟨_, -, heq⟩ := Option.map_eq_some_iff.1 h
    exact absurd (Prod.mk.inj heq).1.symm (hmark _)
  · obtain ⟨_, -, heq⟩ := Option.map_eq_some_iff.1 h
    exact absurd (Prod.mk.inj heq).1.symm (hmark _)

variable {lexemes : List Lexeme} {pieces : List (List Char)}

/-- Blanks, a mark and the end of the text all end a number. -/
theorem Spaced.endsNumber {text : List Char} (h : Spaced pieces text)
    (hread : List.Forall₂ Lexeme.ReadsAs lexemes pieces)
    (hmark : ∀ next ∈ lexemes.head?, ∀ leaf, next ≠ .scalar leaf) : EndsNumber text := by
  cases h with
  | nil hspaces =>
    cases text with
    | nil => nofun
    | cons c spaces => exact endsNumber_of_isSpace (hspaces c List.mem_cons_self) spaces
  | @cons spaces piece rest pieces hspaces h =>
    cases spaces with
    | cons c spaces => exact endsNumber_of_isSpace (hspaces c List.mem_cons_self) _
    | nil =>
      cases hread with
      | @cons next _ _ _ hnext _ =>
        have hnot := hmark next rfl
        exact endsNumber_of_readFirst? hnot (hnext rest (Lexeme.apart_of_mark hnot rest))

/-- The pieces of a text are read as lexemes, whatever blanks are between them. -/
theorem Spaced.readAllAfter?_eq {text : List Char} (h : Spaced pieces text)
    (hread : List.Forall₂ Lexeme.ReadsAs lexemes pieces)
    (hchain : lexemes.IsChain Lexeme.Separated) (before : List Lexeme) :
    Lexeme.readAllAfter? before text = some (before.reverse ++ lexemes) := by
  induction h generalizing lexemes before with
  | nil hspaces =>
    cases hread
    rw [Lexeme.readAllAfter?_spaces hspaces, List.append_nil]
  | @cons spaces piece rest pieces hspaces hrest ih =>
    cases hread with
    | @cons lexeme _ lexemes _ hlexeme hread =>
      obtain ⟨hnext, hchain⟩ := List.isChain_cons.1 hchain
      -- Only a number asks for an end, and behind a number there is no other scalar.
      have hapart : lexeme.Apart rest := by
        by_cases hmark : ∀ leaf, lexeme ≠ .scalar leaf
        · exact Lexeme.apart_of_mark hmark rest
        · have hends := hrest.endsNumber hread fun next hmem =>
            (hnext next hmem).resolve_left hmark
          exact Lexeme.apart_of_endsNumber hends lexeme
      rw [Lexeme.readAllAfter?_spaces_append hspaces (hlexeme rest hapart), ih hread hchain,
        List.reverse_cons, List.append_assoc]
      rfl

/-- A text is read as a value if its pieces are read as the lexemes of the value. -/
theorem Spaced.ofText?_eq {text : String} (h : Spaced pieces text.toList) {json : Json}
    (hread : List.Forall₂ Lexeme.ReadsAs json.lexemes pieces) : ofText? text = some json := by
  have hall : Lexeme.readAll? text.toList = some json.lexemes :=
    h.readAllAfter?_eq hread json.isChain_lexemes []
  rw [ofText?, hall]
  exact ofLexemes?_lexemes json

/-- **Every text of a value is read as the value.** -/
theorem IsText.ofText?_eq {json : Json} {text : String} (h : json.IsText text.toList) :
    ofText? text = some json := by
  obtain ⟨pieces, hspelled, hspaced⟩ := h
  exact hspaced.ofText?_eq (hspelled.imp fun _ _ h => h.readsAs)

/-- Blanks may be put between the lexemes that were written. -/
theorem Written.ofText?_spaced {json : Json} (h : json.Written) {text : String}
    (hspaced : Spaced (json.lexemes.map Lexeme.chars) text.toList) : ofText? text = some json := by
  refine hspaced.ofText?_eq ?_
  rw [List.forall₂_map_right_iff, List.forall₂_same]
  exact h

end Reading

section Strings

/-- The first half of the surrogate pair of a character. -/
def highHalf (c : Char) : UInt16 := UInt16.ofNat (0xD800 + (c.toNat - 0x10000) / 0x400)

/-- The second half of the surrogate pair of a character. -/
def lowHalf (c : Char) : UInt16 := UInt16.ofNat (0xDC00 + (c.toNat - 0x10000) % 0x400)

/-- The UTF-16 code units of a character: one, or a surrogate pair. -/
def utf16 (c : Char) : List UInt16 :=
  if c.toNat < 0x10000 then [UInt16.ofNat c.toNat] else [highHalf c, lowHalf c]

/-- The string denotes the text: each character as it is or by the escapes of its code units. -/
inductive Denotes : List StringUnit → List Char → Prop
  | nil : Denotes [] []
  | char (c : Char) {units : List StringUnit} {text : List Char} (h : Denotes units text) :
      Denotes (.char c :: units) (c :: text)
  | escape (c : Char) {units : List StringUnit} {text : List Char} (h : Denotes units text) :
      Denotes ((utf16 c).map .code ++ units) (c :: text)

/-- The first halves of pairs are one range of code units. -/
theorem isHighSurrogate_iff {bits : UInt16} :
    isHighSurrogate bits ↔ 0xD800 ≤ bits.toNat ∧ bits.toNat ≤ 0xDBFF := by
  simp only [isHighSurrogate, Bool.and_eq_true, decide_eq_true_eq, UInt16.le_iff_toNat_le]
  rfl

/-- The second halves of pairs are another one. -/
theorem isLowSurrogate_iff {bits : UInt16} :
    isLowSurrogate bits ↔ 0xDC00 ≤ bits.toNat ∧ bits.toNat ≤ 0xDFFF := by
  simp only [isLowSurrogate, Bool.and_eq_true, decide_eq_true_eq, UInt16.le_iff_toNat_le]
  rfl

/-- The first half holds the upper ten bits. -/
theorem toNat_highHalf (c : Char) :
    (highHalf c).toNat = 0xD800 + (c.toNat - 0x10000) / 0x400 := by
  have hvalid : c.toNat < 0xD800 ∨ 0xDFFF < c.toNat ∧ c.toNat < 0x110000 := c.valid
  refine UInt16.toNat_ofNat_of_lt' ?_
  show _ < 65536
  omega

/-- The second half holds the lower ten bits. -/
theorem toNat_lowHalf (c : Char) :
    (lowHalf c).toNat = 0xDC00 + (c.toNat - 0x10000) % 0x400 := by
  refine UInt16.toNat_ofNat_of_lt' ?_
  show _ < 65536
  omega

/-- The two halves of a character make up the character. -/
theorem charOfPair_halves {c : Char} (h : ¬ c.toNat < 0x10000) :
    charOfPair (highHalf c) (lowHalf c) = c := by
  have hvalue : 0x10000 + ((highHalf c).toNat - 0xD800) * 0x400 +
      ((lowHalf c).toNat - 0xDC00) = c.toNat := by
    rw [toNat_highHalf, toNat_lowHalf]
    omega
  rw [charOfPair, hvalue, Char.ofNat_toNat]

/-- An escape that is no half of a pair is decoded by itself. -/
theorem decodeAfter_code {bits : UInt16} (hhigh : ¬ isHighSurrogate bits)
    (hlow : ¬ isLowSurrogate bits) (before : List Char) (units : List StringUnit) :
    decodeAfter before (.code bits :: units) =
      decodeAfter (Char.ofNat bits.toNat :: before) units := by
  have hneither : ¬ (isHighSurrogate bits || isLowSurrogate bits) := by simp [hhigh, hlow]
  conv => lhs; unfold decodeAfter
  split <;> rename_i heq <;> cases heq
  · rw [if_neg hhigh, if_neg hlow]
  · rw [if_neg hneither]

/-- The code units of a character are decoded as the character. -/
theorem decodeAfter_utf16 (c : Char) (before : List Char) (units : List StringUnit) :
    decodeAfter before ((utf16 c).map .code ++ units) = decodeAfter (c :: before) units := by
  have hvalid : c.toNat < 0xD800 ∨ 0xDFFF < c.toNat ∧ c.toNat < 0x110000 := c.valid
  unfold utf16
  -- one unit that is no surrogate, or a pair of them
  split
  · rename_i hsmall
    have hbits : (UInt16.ofNat c.toNat).toNat = c.toNat := UInt16.toNat_ofNat_of_lt' hsmall
    have hhigh : ¬ isHighSurrogate (UInt16.ofNat c.toNat) := by
      rw [isHighSurrogate_iff, hbits]
      omega
    have hlow : ¬ isLowSurrogate (UInt16.ofNat c.toNat) := by
      rw [isLowSurrogate_iff, hbits]
      omega
    rw [List.map_singleton, List.singleton_append, decodeAfter_code hhigh hlow, hbits,
      Char.ofNat_toNat]
  · rename_i hlarge
    have hhigh : isHighSurrogate (highHalf c) := by
      rw [isHighSurrogate_iff, toNat_highHalf]
      omega
    have hlow : isLowSurrogate (lowHalf c) := by
      rw [isLowSurrogate_iff, toNat_lowHalf]
      omega
    simp only [List.map_cons, List.map_nil, List.cons_append, List.nil_append]
    rw [decodeAfter, if_pos hhigh, if_pos hlow, charOfPair_halves hlarge]

/-- Units are decoded to the text that they stand for, after what has been decoded before. -/
theorem Denotes.decodeAfter_eq {units : List StringUnit} {text : List Char} (h : Denotes units text)
    (before : List Char) : decodeAfter before units = some (before.reverse ++ text) := by
  induction h generalizing before with
  | nil => rw [decodeAfter, List.append_nil]
  | char c _ ih =>
    rw [decodeAfter, ih, List.reverse_cons, List.append_assoc]
    rfl
  | escape c _ ih =>
    rw [decodeAfter_utf16, ih, List.reverse_cons, List.append_assoc]
    rfl

/-- **A string that denotes a text is decoded as the text.** -/
theorem Denotes.decode?_eq {units : List StringUnit} {text : String}
    (h : Denotes units text.toList) : decode? units = some text := by
  rw [decode?, h.decodeAfter_eq, Option.map_some, List.reverse_nil, List.nil_append,
    String.ofList_toList]

/-- Characters that are written as themselves stand for themselves. -/
theorem denotes_map_char (text : List Char) : Denotes (text.map .char) text := by
  induction text with
  | nil => exact .nil
  | cons c text ih => exact .char c ih

/-- A text is read back from its units. -/
theorem decode?_unitsOf (text : String) : decode? (unitsOf text) = some text :=
  (denotes_map_char text.toList).decode?_eq

end Strings

end Json
end InfixCalc
