/-
# Reading what was written

The lexemes of a JSON value are read as that value (`Json.ofLexemes?_lexemes`), however deeply it
is nested: on its first lexeme the reader begins a value, and after its last one that value is
complete, whatever was open before and whatever follows (`Json.isRead`).

Both written forms spell the lexemes of the value, so both are read back
(`Json.Written.ofText?_compact`, `Json.Written.ofText?_prettyObject`).
-/

import InfixCalc.Proofs.JsonSpelling

namespace InfixCalc
namespace Json

/-- Induction on a value: on the items of a list, and on the values of the members of an object. -/
@[elab_as_elim]
theorem induction {motive : Json → Prop} (hscalar : ∀ leaf, motive (scalar leaf))
    (harray : ∀ items, (∀ item ∈ items, motive item) → motive (array items))
    (hobject : ∀ members : Members, (∀ member ∈ members, motive member.2) →
      motive (object members)) (json : Json) : motive json := by
  match json with
  | .scalar leaf => exact hscalar leaf
  | .array items => exact harray items fun item _ => induction hscalar harray hobject item
  | .object members =>
    exact hobject members fun member _ => induction hscalar harray hobject member.2
termination_by sizeOf json
decreasing_by
  · rename_i h
    have := List.sizeOf_lt_of_mem h
    simp only [array.sizeOf_spec]
    omega
  · rename_i h
    have h₁ := List.sizeOf_lt_of_mem h
    have h₂ : sizeOf member.2 < sizeOf member := by
      cases member
      simp only [Prod.mk.sizeOf_spec]
      omega
    simp only [object.sizeOf_spec]
    omega

section Lexemes

/-- A value without parts is one lexeme. -/
theorem lexemes_scalar (value : Scalar) : (scalar value).lexemes = [.scalar value] := by
  rw [lexemes]

/-- The lexemes of an array are those of its items, between brackets and with commas. -/
theorem lexemes_array (items : List Json) :
    (array items).lexemes =
      .openBracket :: [Lexeme.comma].intercalate (items.map lexemes) ++ [.closeBracket] := by
  rw [lexemes]

/-- The lexemes of a member of an object. -/
def memberLexemes (member : List StringUnit × Json) : List Lexeme :=
  .scalar (.string member.1) :: .colon :: member.2.lexemes

/-- The lexemes of an object are those of its members, between braces and with commas. -/
theorem lexemes_object (members : Members) :
    (object members).lexemes =
      .openBrace :: [Lexeme.comma].intercalate (members.map memberLexemes) ++ [.closeBrace] := by
  rw [lexemes]
  rfl

/-- A value does not begin with a closing mark. -/
theorem exists_lexemes_eq (json : Json) :
    ∃ first more, json.lexemes = first :: more ∧ first ≠ .closeBracket := by
  cases json with
  | scalar value => exact ⟨_, _, lexemes_scalar value, nofun⟩
  | array items => exact ⟨_, _, lexemes_array items, nofun⟩
  | object members => exact ⟨_, _, lexemes_object members, nofun⟩

end Lexemes

/-- The lexemes of the value are read as the value, with anything open and anything behind. -/
def IsRead (json : Json) : Prop :=
  ∀ (frames : List Frame) (rest : List Lexeme),
    (State.value frames).run? (json.lexemes ++ rest) = (State.complete json frames).run? rest

section Reading

/-- A value without parts is read from its lexeme. -/
theorem isRead_scalar (leaf : Scalar) : (scalar leaf).IsRead := by
  intro frames rest
  rw [lexemes_scalar]
  rfl

/-- The items of a list are read one after another. -/
theorem run?_items {item : Json} {items : List Json} (h : ∀ json ∈ item :: items, json.IsRead)
    (before : List Json) (frames : List Frame) (rest : List Lexeme) :
    (State.value (.item before :: frames)).run?
        ([Lexeme.comma].intercalate ((item :: items).map lexemes) ++ .closeBracket :: rest) =
      (State.complete (.array (before.reverse ++ item :: items)) frames).run? rest := by
  induction items generalizing before item with
  | nil =>
    rw [List.map_singleton, List.intercalate_singleton, h item List.mem_cons_self]
    simp only [State.run?, State.step?, State.continue?, List.reverse_cons]
  | cons next items ih =>
    obtain ⟨hitem, hitems⟩ := List.forall_mem_cons.1 h
    rw [List.map_cons, List.map_cons, List.intercalate_cons_cons, List.append_assoc,
      List.append_assoc, hitem, ← List.map_cons]
    simp only [List.cons_append, List.nil_append, State.run?, State.step?, State.continue?]
    rw [ih hitems, List.reverse_cons, List.append_assoc]
    rfl

/-- The key of a member and its value are read. -/
theorem run?_member {member : List StringUnit × Json} (h : member.2.IsRead) (before : Members)
    (frames : List Frame) (rest : List Lexeme) :
    (State.key before frames).run? (memberLexemes member ++ rest) =
      (State.complete member.2 (.member before member.1 :: frames)).run? rest := by
  simp only [memberLexemes, List.cons_append, State.run?, State.step?, State.beginMember?]
  exact h _ rest

/-- The members of an object are read one after another. -/
theorem run?_members {member : List StringUnit × Json} {members : Members}
    (h : ∀ member' ∈ member :: members, member'.2.IsRead) (before : Members) (frames : List Frame)
    (rest : List Lexeme) :
    (State.key before frames).run?
        ([Lexeme.comma].intercalate ((member :: members).map memberLexemes) ++
          .closeBrace :: rest) =
      (State.complete (.object (before.reverse ++ member :: members)) frames).run? rest := by
  induction members generalizing before member with
  | nil =>
    rw [List.map_singleton, List.intercalate_singleton, run?_member (h member List.mem_cons_self)]
    simp only [State.run?, State.step?, State.continue?, List.reverse_cons]
  | cons next members ih =>
    obtain ⟨hmember, hmembers⟩ := List.forall_mem_cons.1 h
    rw [List.map_cons, List.map_cons, List.intercalate_cons_cons, List.append_assoc,
      List.append_assoc, run?_member hmember, ← List.map_cons]
    simp only [List.cons_append, List.nil_append, State.run?, State.step?, State.continue?]
    rw [ih hmembers, List.reverse_cons, List.append_assoc]
    rfl

/-- In a list without items yet, a value is read as in any list. -/
theorem run?_firstItem {first : Lexeme} (h : first ≠ .closeBracket) (frames : List Frame)
    (more : List Lexeme) :
    (State.firstItem frames).run? (first :: more) =
      (State.value (.item [] :: frames)).run? (first :: more) := by
  cases first with
  | closeBracket => exact absurd rfl h
  | openBrace | closeBrace | openBracket | comma | colon | scalar => rfl

/-- An array is read from its lexemes if its items are. -/
theorem isRead_array {items : List Json} (h : ∀ item ∈ items, item.IsRead) :
    (array items).IsRead := by
  intro frames rest
  rw [lexemes_array, List.cons_append, List.cons_append, List.append_assoc]
  match items with
  | [] => rfl
  | item :: items =>
    have hitems := run?_items h [] frames rest
    obtain ⟨first, more, hfirst, hne⟩ := exists_lexemes_eq item
    rw [List.map_cons, hfirst, List.intercalate_cons_cons_left] at hitems ⊢
    exact (run?_firstItem hne frames _).trans hitems

/-- An object is read from its lexemes if its members are. -/
theorem isRead_object {members : Members} (h : ∀ member ∈ members, member.2.IsRead) :
    (object members).IsRead := by
  intro frames rest
  rw [lexemes_object, List.cons_append, List.cons_append, List.append_assoc]
  match members with
  | [] => rfl
  | member :: members =>
    have hmembers := run?_members h [] frames rest
    -- the first member is read as any other, since it begins with a key
    rw [List.map_cons, memberLexemes, List.intercalate_cons_cons_left] at hmembers ⊢
    exact hmembers

/-- **Every value is read from its lexemes.** -/
theorem isRead (json : Json) : json.IsRead := by
  induction json using induction with
  | hscalar leaf => exact isRead_scalar leaf
  | harray items ih => exact isRead_array ih
  | hobject members ih => exact isRead_object ih

/-- **Reading the lexemes of a value** gives the value. -/
theorem ofLexemes?_lexemes (json : Json) : ofLexemes? json.lexemes = some json := by
  have hrun := json.isRead [] []
  rw [List.append_nil] at hrun
  rw [ofLexemes?, hrun]
  rfl

end Reading

section Texts

/-- The text spells the lexemes in front of any text that spells more and cannot be taken for the
end of a number. -/
def SpellsBefore (text : List Char) (piece : List Lexeme) : Prop :=
  ∀ (rest : List Char) (lexemes : List Lexeme), EndsNumber rest → Spells rest lexemes →
    Spells (text ++ rest) (piece ++ lexemes)

/-- A lexeme that is read back is spelled by its characters. -/
theorem spellsBefore_lexeme {lexeme : Lexeme} (h : lexeme.ReadsBack) :
    SpellsBefore lexeme.chars [lexeme] :=
  fun _ _ hends hrest =>
    .cons (List.forall_mem_nil _) h (lexeme.apart_of_endsNumber hends) hrest

/-- Texts with commas between them, and blanks behind the commas. -/
theorem spellsBefore_intercalate {α : Type} {text : α → List Char} {piece : α → List Lexeme}
    {spaces : List Char} (hspaces : ∀ c ∈ spaces, isSpace c) {items : List α}
    (h : ∀ item ∈ items, SpellsBefore (text item) (piece item)) :
    SpellsBefore ((',' :: spaces).intercalate (items.map text))
      ([Lexeme.comma].intercalate (items.map piece)) := by
  intro rest lexemes hends hrest
  induction items with
  | nil => exact hrest
  | cons item items ih =>
    obtain ⟨hitem, hitems⟩ := List.forall_mem_cons.1 h
    cases items with
    | nil =>
      rw [List.map_singleton, List.map_singleton, List.intercalate_singleton,
        List.intercalate_singleton]
      exact hitem _ _ hends hrest
    | cons next items =>
      have hmore := Spells.mark .comma nofun ((ih hitems).spaces_append hspaces)
      rw [List.map_cons, List.map_cons, List.map_cons, List.map_cons, List.intercalate_cons_cons,
        List.intercalate_cons_cons]
      simp only [List.append_assoc]
      exact hitem _ _ (endsNumber_cons rfl _) hmore

/-- A member is spelled by its key, a colon and its value. -/
theorem spellsBefore_member {member : List StringUnit × Json} {spaces text : List Char}
    (hkey : Lexeme.ReadsBack (.scalar (.string member.1))) (hspaces : ∀ c ∈ spaces, isSpace c)
    (hvalue : SpellsBefore text member.2.lexemes) :
    SpellsBefore ((Scalar.string member.1).chars ++ ':' :: (spaces ++ text))
      (memberLexemes member) := by
  intro rest lexemes hends hrest
  have hcolon := Spells.mark .colon nofun ((hvalue _ _ hends hrest).spaces_append hspaces)
  rw [List.append_assoc, List.cons_append, List.append_assoc]
  exact .cons (List.forall_mem_nil _) hkey trivial hcolon

/-- Marks around a text, with blanks within them. -/
theorem spellsBefore_enclosed (first last : Lexeme) {before after text : List Char}
    {piece : List Lexeme} (hfirst : ∀ leaf, first ≠ .scalar leaf)
    (hlast : ∀ leaf, last ≠ .scalar leaf) (hbefore : ∀ c ∈ before, isSpace c)
    (hafter : ∀ c ∈ after, isSpace c) (hends : ∀ rest, EndsNumber (after ++ (last.chars ++ rest)))
    (h : SpellsBefore text piece) :
    SpellsBefore (first.chars ++ (before ++ (text ++ (after ++ last.chars))))
      (first :: piece ++ [last]) := by
  intro rest lexemes _ hrest
  have hclose := (Spells.mark last hlast hrest).spaces_append hafter
  have hinner := (h _ _ (hends rest) hclose).spaces_append hbefore
  have houter := Spells.mark first hfirst hinner
  simpa only [List.append_assoc, List.cons_append, List.nil_append] using houter

/-- Lexemes with commas between them are written with commas between them. -/
theorem flatMap_intercalate_comma {α : Type} (piece : α → List Lexeme) (items : List α) :
    ([Lexeme.comma].intercalate (items.map piece)).flatMap Lexeme.chars =
      [','].intercalate (items.map fun item => (piece item).flatMap Lexeme.chars) := by
  induction items with
  | nil => rfl
  | cons item items ih =>
    cases items with
    | nil => simp only [List.map_cons, List.map_nil, List.intercalate_singleton]
    | cons next items =>
      rw [List.map_cons, List.map_cons, List.intercalate_cons_cons, List.map_cons, List.map_cons,
        List.intercalate_cons_cons, List.flatMap_append, List.flatMap_append, ← List.map_cons, ih]
      rfl

/-- The lexemes of the value are read back as they are written. -/
def Written (json : Json) : Prop := ∀ lexeme ∈ json.lexemes, lexeme.ReadsBack

/-- A value without parts can be written if its lexeme is read back. -/
theorem written_scalar {leaf : Scalar} :
    (scalar leaf).Written ↔ Lexeme.ReadsBack (.scalar leaf) := by
  rw [Written, lexemes_scalar, List.forall_mem_singleton]

/-- What holds of the separator holds of the whole exactly if it holds of the pieces. -/
theorem forall_mem_intercalate {α : Type} {P : α → Prop} {sep : List α}
    (hsep : ∀ a ∈ sep, P a) (pieces : List (List α)) :
    (∀ a ∈ sep.intercalate pieces, P a) ↔ ∀ piece ∈ pieces, ∀ a ∈ piece, P a := by
  induction pieces with
  | nil => exact ⟨fun _ => List.forall_mem_nil _, fun _ => List.forall_mem_nil _⟩
  | cons piece pieces ih =>
    cases pieces with
    | nil => rw [List.intercalate_singleton, List.forall_mem_singleton]
    | cons next pieces =>
      rw [List.intercalate_cons_cons, List.forall_mem_append, List.forall_mem_append,
        and_iff_left hsep, ih]
      exact (List.forall_mem_cons (p := fun piece => ∀ a ∈ piece, P a)).symm

/-- What is between marks is read back if each item is. -/
theorem forall_readsBack_enclosed (first last : Lexeme) (hfirst : ∀ leaf, first ≠ .scalar leaf)
    (hlast : ∀ leaf, last ≠ .scalar leaf) {α : Type} (piece : α → List Lexeme) (items : List α) :
    (∀ lexeme ∈ first :: [Lexeme.comma].intercalate (items.map piece) ++ [last],
        lexeme.ReadsBack) ↔
      ∀ item ∈ items, ∀ lexeme ∈ piece item, lexeme.ReadsBack := by
  have hcomma : ∀ lexeme ∈ [Lexeme.comma], lexeme.ReadsBack :=
    List.forall_mem_singleton.2 (Lexeme.readsBack_of_mark nofun)
  rw [List.forall_mem_append, List.forall_mem_cons, List.forall_mem_singleton,
    and_iff_left (Lexeme.readsBack_of_mark hlast), and_iff_right (Lexeme.readsBack_of_mark hfirst),
    forall_mem_intercalate hcomma, List.forall_mem_map]

/-- A list is read back if its items are. -/
theorem written_array {items : List Json} :
    (array items).Written ↔ ∀ item ∈ items, item.Written := by
  rw [Written, lexemes_array]
  exact forall_readsBack_enclosed .openBracket .closeBracket nofun nofun lexemes items

/-- An object is read back if its keys and values are. -/
theorem written_object {members : Members} :
    (object members).Written ↔ ∀ member ∈ members,
      Lexeme.ReadsBack (.scalar (.string member.1)) ∧ member.2.Written := by
  rw [Written, lexemes_object, forall_readsBack_enclosed .openBrace .closeBrace nofun nofun]
  refine forall₂_congr fun member _ => ?_
  have hcolon : Lexeme.ReadsBack .colon := Lexeme.readsBack_of_mark nofun
  rw [memberLexemes, List.forall_mem_cons, List.forall_mem_cons, and_iff_right hcolon]
  rfl

/-- **The compact form** spells the lexemes of the value. -/
theorem Written.spellsBefore {json : Json} (h : json.Written) :
    SpellsBefore (json.lexemes.flatMap Lexeme.chars) json.lexemes := by
  induction json using induction with
  | hscalar leaf =>
    rw [lexemes_scalar, List.flatMap_singleton]
    exact spellsBefore_lexeme (written_scalar.1 h)
  | harray items ih =>
    have hitems := spellsBefore_intercalate (List.forall_mem_nil _) fun item hitem =>
      ih item hitem (written_array.1 h item hitem)
    have hlist := spellsBefore_enclosed .openBracket .closeBracket nofun nofun
      (List.forall_mem_nil _) (List.forall_mem_nil _) (endsNumber_cons rfl) hitems
    rw [lexemes_array, List.cons_append, List.flatMap_cons, List.flatMap_append,
      flatMap_intercalate_comma]
    exact hlist
  | hobject members ih =>
    have hmembers := spellsBefore_intercalate (List.forall_mem_nil _) fun member hmember =>
      have hmember' := written_object.1 h member hmember
      spellsBefore_member hmember'.1 (List.forall_mem_nil _) (ih member hmember hmember'.2)
    have hobject := spellsBefore_enclosed .openBrace .closeBrace nofun nofun
      (List.forall_mem_nil _) (List.forall_mem_nil _) (endsNumber_cons rfl) hmembers
    rw [lexemes_object, List.cons_append, List.flatMap_cons, List.flatMap_append,
      flatMap_intercalate_comma]
    exact hobject

/-- What spells lexemes before a mark spells them at the end of a text. -/
theorem SpellsBefore.spells {text : List Char} {piece : List Lexeme} (h : SpellsBefore text piece) :
    Spells text piece := by
  have hspells := h [] [] nofun (.nil (List.forall_mem_nil _))
  rwa [List.append_nil, List.append_nil] at hspells

/-- A text that spells the lexemes of a value is read as the value. -/
theorem Spells.ofText?_eq {text : String} {json : Json} (h : Spells text.toList json.lexemes) :
    ofText? text = some json := by
  rw [ofText?, h.readAll?_eq]
  exact ofLexemes?_lexemes json

/-- **The compact form is read back.** -/
theorem Written.ofText?_compact {json : Json} (h : json.Written) :
    ofText? json.compact = some json := by
  refine Spells.ofText?_eq ?_
  rw [compact, String.toList_ofList]
  exact h.spellsBefore.spells

/-- How an object is spelled with its members on lines of their own. -/
theorem toList_prettyObject (member : List StringUnit × Json) (members : Members) :
    (prettyObject (member :: members)).toList =
      Lexeme.openBrace.chars ++ (['\n', ' ', ' '] ++
        ([',', '\n', ' ', ' '].intercalate ((member :: members).map fun member =>
          (Scalar.string member.1).chars ++ ':' :: ([' '] ++
            member.2.lexemes.flatMap Lexeme.chars)) ++ (['\n'] ++ Lexeme.closeBrace.chars))) := by
  have hmember : ∀ member : List StringUnit × Json,
      ((scalar (.string member.1)).compact ++ ": " ++ member.2.compact).toList =
        (Scalar.string member.1).chars ++ ':' :: ([' '] ++
          member.2.lexemes.flatMap Lexeme.chars) := by
    intro member
    simp only [compact, lexemes_scalar, List.flatMap_singleton, String.toList_append,
      String.toList_ofList, List.append_assoc]
    rfl
  simp only [prettyObject, String.toList_append, String.toList_intercalate, List.map_map,
    Function.comp_def, hmember, List.append_assoc]
  rfl

/-- **The form with a line for each member is read back.** -/
theorem Written.ofText?_prettyObject {members : Members} (h : (object members).Written) :
    ofText? (prettyObject members) = some (.object members) := by
  refine Spells.ofText?_eq (SpellsBefore.spells ?_)
  cases members with
  | nil =>
    have hcompact := h.spellsBefore
    rwa [lexemes_object] at hcompact ⊢
  | cons member members =>
    have hindent : ∀ c ∈ ['\n', ' ', ' '], isSpace c := List.all_eq_true.1 rfl
    have hspace : ∀ c ∈ [' '], isSpace c := List.all_eq_true.1 rfl
    have hbreak : ∀ c ∈ ['\n'], isSpace c := List.all_eq_true.1 rfl
    have hmembers := spellsBefore_intercalate hindent fun member hmember =>
      have hmember' := written_object.1 h member hmember
      spellsBefore_member hmember'.1 hspace hmember'.2.spellsBefore
    have hobject := spellsBefore_enclosed .openBrace .closeBrace nofun nofun hindent hbreak
      (endsNumber_cons rfl) hmembers
    rw [toList_prettyObject, lexemes_object]
    exact hobject

end Texts

end Json
end InfixCalc
