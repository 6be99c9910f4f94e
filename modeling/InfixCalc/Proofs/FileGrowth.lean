/-
# What stays in a file tree

A tree only grows: directories are made and files are written, but nothing is removed.  To write a
file changes no other file, and to make directories changes none (`FileTree.Keeps`).  So a path that
leads somewhere leads there ever after (`FileTree.Grows.follow`), and a place that a path gave for a
file is where the path leads once there is a file (`FileTree.locate_of_placeFor`).
-/

import InfixCalc.FileTree
import Mathlib.Tactic.SplitIfs

namespace InfixCalc
namespace FileTree

variable {tree after new : FileTree} {location names : List FileName} {name : FileName}
variable {path : Path} {entries : List (FileName × FileTree)} {bytes : ByteArray}

/-- There is a directory at a location. -/
def HasDirectory (tree : FileTree) (location : List FileName) : Prop :=
  ∃ entries, tree.at? location = some (directory entries)

/-- There is nothing below a location. -/
def IsBare (tree : FileTree) (location : List FileName) : Prop :=
  ∀ more, more ≠ [] → tree.at? (location ++ more) = none

section Locations

/-- A location is followed name by name. -/
theorem at?_cons (tree : FileTree) (name : FileName) (names : List FileName) :
    tree.at? (name :: names) = (tree.child? name).bind (·.at? names) := by
  rw [at?]
  cases tree.child? name <;> rfl

/-- What is at a location in two parts is found in the subtree at the first. -/
theorem at?_append (tree : FileTree) (first second : List FileName) :
    tree.at? (first ++ second) = (tree.at? first).bind (·.at? second) := by
  induction first generalizing tree with
  | nil => rfl
  | cons name names ih =>
    rw [List.cons_append, at?_cons, at?_cons]
    cases tree.child? name with
    | none => rfl
    | some child => exact ih child

/-- What lies in a subtree lies in the tree. -/
theorem at?_child {found : FileTree} (h : tree.at? location = some found) (name : FileName) :
    tree.at? (location ++ [name]) = found.child? name := by
  rw [at?_append, h, Option.bind_some, at?_cons]
  cases found.child? name <;> rfl

/-- Nothing is below a location if nothing is in the subtree there. -/
theorem isBare_iff :
    IsBare tree location ↔ ∀ found, tree.at? location = some found → IsBare found [] := by
  simp only [IsBare, at?_append, List.nil_append]
  cases tree.at? location with
  | none => simp
  | some found => simp

/-- Nothing is below a file. -/
theorem isBare_file (bytes : ByteArray) : IsBare (file bytes) []
  | [], h => absurd rfl h
  | _ :: _, _ => rfl

/-- Nothing is below an empty directory. -/
theorem isBare_directory_nil : IsBare (directory []) []
  | [], h => absurd rfl h
  | _ :: _, _ => rfl

/-- What is nothing or a file has nothing below it. -/
theorem isBare_of_not_hasDirectory (h : ¬ HasDirectory tree location) : IsBare tree location := by
  refine isBare_iff.2 fun found hfound => ?_
  cases found with
  | file bytes => exact isBare_file bytes
  | directory entries => exact absurd ⟨entries, hfound⟩ h

end Locations

section Putting

/-- The entries of a directory after one of them is put. -/
theorem child?_putEntry (name other : FileName) (change : Option FileTree → FileTree)
    (entries : List (FileName × FileTree)) :
    (directory (putEntry name change entries)).child? other =
      if other = name then some (change ((directory entries).child? name))
      else (directory entries).child? other := by
  simp only [child?, putEntry]
  split
  · -- the name is there: every entry keeps its name, so the same one is found
    rename_i hany
    have hsame : ((fun entry : FileName × FileTree => entry.1 == other) ∘ fun entry =>
        if entry.1 == name then (name, change (some entry.2)) else entry) =
        fun entry => entry.1 == other := by
      funext entry
      by_cases hentry : entry.1 = name <;> simp [Function.comp, hentry]
    rw [List.find?_map, hsame]
    split
    · rename_i heq
      subst heq
      obtain ⟨entry, hmem, hentry⟩ := List.any_eq_true.1 hany
      cases hfind : entries.find? fun entry => entry.1 == other with
      | none => exact absurd hentry (List.find?_eq_none.1 hfind entry hmem)
      | some found =>
        have hfound := List.find?_some hfind
        simp [eq_of_beq hfound]
    · rename_i hne
      cases hfind : entries.find? fun entry => entry.1 == other with
      | none => rfl
      | some found =>
        have hfound := List.find?_some hfind
        simp [eq_of_beq hfound, hne]
  · rename_i hany
    have hnone : entries.find? (fun entry => entry.1 == name) = none :=
      List.find?_eq_none.2 fun entry hmem hentry => hany (List.any_eq_true.2 ⟨entry, hmem, hentry⟩)
    rw [List.find?_append]
    split
    · rename_i heq
      subst heq
      simp [hnone]
    · rename_i hne
      have hlast : ([(name, change none)].find? fun entry => entry.1 == other) = none := by
        simp [Ne.symm hne]
      rw [hlast, Option.or_none]

/-- The entries of a directory after something is put below it. -/
theorem child?_put (entries : List (FileName × FileTree)) (name other : FileName)
    (names : List FileName) (new : FileTree) :
    ((directory entries).put (name :: names) new).child? other =
      if other = name then
        some ((((directory entries).child? name).getD (directory [])).put names new)
      else (directory entries).child? other := child?_putEntry name other _ entries

/-- Where nothing lies below the location, to put something there leaves every other place as it
is, but for a directory on the way where there was nothing. -/
theorem at?_put (hbare : IsBare tree location) (hnew : IsBare new []) (names : List FileName) :
    (tree.put location new).at? names = tree.at? names ∨
      (HasDirectory (tree.put location new) names ∧ ∀ bytes, tree.at? names ≠ some (file bytes)) ∨
      (names = location ∧ (tree.put location new).at? names = some new) := by
  induction location generalizing tree names with
  | nil =>
    by_cases hnames : names = []
    · subst hnames
      exact .inr (.inr ⟨rfl, rfl⟩)
    · exact .inl ((hnew names hnames).trans (hbare names hnames).symm)
  | cons name location ih =>
    cases tree with
    | file bytes => exact .inl rfl
    | directory entries =>
      cases names with
      | nil => exact .inr (.inl ⟨⟨_, rfl⟩, fun bytes h => by cases h⟩)
      | cons other names =>
        simp only [HasDirectory, at?_cons, child?_put]
        split
        · rename_i heq
          subst heq
          simp only [List.cons.injEq, true_and]
          cases hchild : (directory entries).child? other with
          | some child =>
            refine ih (fun more hmore => ?_) names
            have hbare := hbare more hmore
            rwa [List.cons_append, at?_cons, hchild] at hbare
          | none =>
            -- an empty directory is made there, and the rest is put in it
            have hempty : IsBare (directory []) location :=
              fun more hmore => isBare_directory_nil _ (List.append_ne_nil_of_right_ne_nil _ hmore)
            obtain hsame | ⟨hdir, -⟩ | hput := ih hempty names
            · cases names with
              | nil => exact .inr (.inl ⟨⟨[], hsame⟩, fun bytes h => by cases h⟩)
              | cons next names => exact .inl hsame
            · exact .inr (.inl ⟨hdir, fun bytes h => by cases h⟩)
            · exact .inr (.inr hput)
        · exact .inl rfl

/-- What is put in a directory is there. -/
theorem at?_put_self {parent : List FileName} (h : HasDirectory tree parent) :
    (tree.put (parent ++ [name]) new).at? (parent ++ [name]) = some new := by
  obtain ⟨entries, h⟩ := h
  induction parent generalizing tree with
  | nil =>
    cases h
    rw [List.nil_append, at?_cons, child?_put, if_pos rfl]
    rfl
  | cons next parent ih =>
    rw [at?_cons] at h
    cases tree with
    | file bytes => cases h
    | directory siblings =>
      rw [List.cons_append, at?_cons, child?_put, if_pos rfl]
      cases hchild : (directory siblings).child? next with
      | none =>
        rw [hchild] at h
        cases h
      | some child =>
        rw [hchild] at h
        exact ih h

end Putting

section Growing

/-- Directories stay directories and files stay files, whatever is in them. -/
structure Grows (tree after : FileTree) : Prop where
  hasDirectory : ∀ {location}, HasDirectory tree location → HasDirectory after location
  at?_file : ∀ {location bytes}, tree.at? location = some (file bytes) →
    ∃ bytes, after.at? location = some (file bytes)

/-- Nothing is lost, and no file is new or different but the one that is written, if one is. -/
structure Keeps (written : Option (List FileName)) (tree after : FileTree) : Prop where
  hasDirectory : ∀ {location}, HasDirectory tree location → HasDirectory after location
  at?_file_iff : ∀ {location bytes}, written ≠ some location →
    (after.at? location = some (file bytes) ↔ tree.at? location = some (file bytes))
  at?_written : ∀ {location}, written = some location →
    ∃ bytes, after.at? location = some (file bytes)

/-- A tree grows into itself. -/
theorem Grows.refl (tree : FileTree) : Grows tree tree := ⟨id, fun h => ⟨_, h⟩⟩

/-- What is there stays there. -/
theorem Grows.isSome_at? (h : Grows tree after) (hsome : (tree.at? location).isSome) :
    (after.at? location).isSome := by
  obtain ⟨found, hfound⟩ := Option.isSome_iff_exists.1 hsome
  cases found with
  | file bytes =>
    obtain ⟨bytes, hfile⟩ := h.at?_file hfound
    exact Option.isSome_iff_exists.2 ⟨_, hfile⟩
  | directory entries =>
    obtain ⟨entries, hdir⟩ := h.hasDirectory ⟨entries, hfound⟩
    exact Option.isSome_iff_exists.2 ⟨_, hdir⟩

/-- A tree that grows and grows again has grown. -/
theorem Grows.trans {later : FileTree} (first : Grows tree after) (second : Grows after later) :
    Grows tree later where
  hasDirectory h := second.hasDirectory (first.hasDirectory h)
  at?_file h := by
    obtain ⟨bytes, h⟩ := first.at?_file h
    exact second.at?_file h

/-- A tree that stays as it is keeps its files. -/
theorem Keeps.refl (tree : FileTree) : Keeps none tree tree := ⟨id, fun _ => Iff.rfl, nofun⟩

/-- What changes no file before a file is written changes no other file either. -/
theorem Keeps.trans {later : FileTree} {written : Option (List FileName)}
    (first : Keeps none tree after) (second : Keeps written after later) :
    Keeps written tree later where
  hasDirectory h := second.hasDirectory (first.hasDirectory h)
  at?_file_iff h := (second.at?_file_iff h).trans (first.at?_file_iff nofun)
  at?_written := second.at?_written

/-- A tree that keeps its files has grown. -/
theorem Keeps.grows {written : Option (List FileName)} (h : Keeps written tree after) :
    Grows tree after where
  hasDirectory := h.hasDirectory
  at?_file {location bytes} hfile := by
    by_cases hwritten : written = some location
    · exact h.at?_written hwritten
    · exact ⟨bytes, (h.at?_file_iff hwritten).2 hfile⟩

/-- Directories stay when something is put beside them. -/
theorem HasDirectory.put (h : HasDirectory tree names) (hfree : ¬ HasDirectory tree location)
    (hnew : IsBare new []) : HasDirectory (tree.put location new) names := by
  obtain hsame | ⟨hdir, -⟩ | ⟨rfl, -⟩ := at?_put (isBare_of_not_hasDirectory hfree) hnew names
  · rwa [HasDirectory, hsame]
  · exact hdir
  · exact absurd h hfree

/-- The files are the same after something is put, if no file is put and none is replaced. -/
theorem at?_file_put (hfree : ¬ HasDirectory tree location) (hnew : IsBare new [])
    (hother : names = location →
      new ≠ file bytes ∧ tree.at? location ≠ some (file bytes)) :
    (tree.put location new).at? names = some (file bytes) ↔
      tree.at? names = some (file bytes) := by
  obtain hsame | ⟨⟨entries, hdir⟩, hfile⟩ | ⟨rfl, hput⟩ :=
    at?_put (isBare_of_not_hasDirectory hfree) hnew names
  · rw [hsame]
  · rw [hdir]
    exact iff_of_false nofun (hfile bytes)
  · rw [hput, Option.some.injEq]
    exact iff_of_false (hother rfl).1 (hother rfl).2

/-- A directory that is made where there is nothing changes no file. -/
theorem keeps_put_directory (hnone : tree.at? location = none) :
    Keeps none tree (tree.put location (directory [])) := by
  have hfree : ¬ HasDirectory tree location := by
    rintro ⟨entries, hdir⟩
    rw [hnone] at hdir
    cases hdir
  refine ⟨fun h => h.put hfree isBare_directory_nil,
    fun _ => at?_file_put hfree isBare_directory_nil fun _ => ⟨nofun, ?_⟩, nofun⟩
  rw [hnone]
  exact nofun

/-- A file that is put in a directory changes no other file. -/
theorem keeps_put_file {parent : List FileName} (hparent : HasDirectory tree parent)
    (hfree : ¬ HasDirectory tree (parent ++ [name])) :
    Keeps (some (parent ++ [name])) tree (tree.put (parent ++ [name]) (file bytes)) where
  hasDirectory h := h.put hfree (isBare_file bytes)
  at?_file_iff hne :=
    at?_file_put hfree (isBare_file bytes) fun heq => absurd (congrArg some heq.symm) hne
  at?_written heq := ⟨bytes, Option.some.inj heq ▸ at?_put_self hparent⟩

/-- To make directories changes no file. -/
theorem keeps_makeDirectories (tree : FileTree) (location components : List FileName) :
    Keeps none tree (tree.makeDirectories location components).1 := by
  induction components generalizing tree location with
  | nil => exact .refl tree
  | cons component components ih =>
    rw [makeDirectories]
    split
    · exact ih tree location
    · split
      · exact ih tree location.tail
      · dsimp only
        cases hat : tree.at? (component :: location).reverse with
        | some found => exact ih tree (component :: location)
        | none => exact (keeps_put_directory hat).trans (ih _ (component :: location))

end Growing

section Following

/-- Components in two parts are followed one part after the other. -/
theorem follow_append (tree : FileTree) (location first second : List FileName) :
    tree.follow location (first ++ second) =
      (tree.follow location first).bind (tree.follow · second) := by
  induction first generalizing location with
  | nil => rfl
  | cons component components ih =>
    rw [List.cons_append, follow, follow]
    cases tree.at? location.reverse with
    | none => rfl
    | some found =>
      cases found with
      | file bytes => rfl
      | directory entries =>
        dsimp only
        split
        · exact ih _
        · split
          · exact ih _
          · split
            · exact ih _
            · split <;> rfl

/-- How a component is followed from a directory. -/
theorem follow_cons (hat : tree.at? location.reverse = some (directory entries))
    (component : FileName) (components : List FileName) :
    tree.follow location (component :: components) =
      if Path.stays component then tree.follow location components
      else if component == Path.above then tree.follow location.tail components
      else if (tree.at? (component :: location).reverse).isSome then
        tree.follow (component :: location) components
      else if Path.maxNameBytes < component.length then .error .tooLong
      else .error .notFound := by
  rw [FileTree.follow, hat, List.reverse_cons, at?_child hat]

/-- Only from a directory is there a way on. -/
theorem hasDirectory_of_follow {component : FileName} {components target : List FileName}
    (h : tree.follow location (component :: components) = .ok target) :
    HasDirectory tree location.reverse := by
  rw [FileTree.follow] at h
  cases hat : tree.at? location.reverse with
  | none =>
    rw [hat] at h
    cases h
  | some found =>
    cases found with
    | file bytes =>
      rw [hat] at h
      cases h
    | directory entries => exact ⟨entries, hat⟩

/-- Components that are followed by a dot lead to a directory. -/
theorem follow_append_dot {origin components : List FileName}
    (h : tree.follow origin (components ++ [Path.here]) = .ok location) :
    tree.follow origin components = .ok location ∧ HasDirectory tree location.reverse := by
  rw [follow_append] at h
  cases hfollow : tree.follow origin components with
  | error e =>
    rw [hfollow] at h
    cases h
  | ok reached =>
    rw [hfollow, Except.bind] at h
    obtain ⟨entries, hat⟩ := hasDirectory_of_follow h
    rw [follow_cons hat] at h
    cases h
    exact ⟨rfl, entries, hat⟩

/-- Components that lead somewhere lead there ever after. -/
theorem Grows.follow {components origin : List FileName} (hgrows : Grows tree after)
    (h : tree.follow origin components = .ok location) :
    after.follow origin components = .ok location := by
  induction components generalizing origin with
  | nil => exact h
  | cons component components ih =>
    obtain ⟨entries, hat⟩ := hasDirectory_of_follow h
    obtain ⟨entries', hat'⟩ := hgrows.hasDirectory ⟨entries, hat⟩
    rw [follow_cons hat] at h
    rw [follow_cons hat']
    split_ifs at h with hstays habove hsome
    · rw [if_pos hstays]
      exact ih h
    · rw [if_neg hstays, if_pos habove]
      exact ih h
    · rw [if_neg hstays, if_neg habove, if_pos (hgrows.isSome_at? hsome)]
      exact ih h

end Following

section Places

/-- A place for a file that a path gives: the components before the last lead to a directory, and
the last one is the name in it of a file or of nothing. -/
structure IsPlace (tree : FileTree) (path : Path) (location parent : List FileName)
    (name : FileName) : Prop where
  fault? : Path.fault? path = none
  components : Path.components path = parent ++ [name]
  follow : tree.follow (Path.origin path) parent = .ok location
  hasDirectory : HasDirectory tree location.reverse
  not_stays : ¬ Path.stays name = true
  ne_above : ¬ (name == Path.above) = true
  not_hasDirectory : ¬ HasDirectory tree (name :: location).reverse

/-- Every path has a last component. -/
theorem exists_components (path : Path) :
    ∃ parent name, Path.components path = parent ++ [name] := by
  have hne : Path.components path ≠ [] := List.splitOn_ne_nil _ _
  exact ⟨_, _, (List.dropLast_concat_getLast hne).symm⟩

/-- The place that a path gives for a file is the last component in the directory before it. -/
theorem isPlace_of_placeFor {place : List FileName} (h : tree.placeFor path = .ok place) :
    ∃ location parent name, IsPlace tree path location parent name ∧
      place = (name :: location).reverse := by
  obtain ⟨parent, name, hcomponents⟩ := exists_components path
  simp only [placeFor, hcomponents, List.reverse_append, List.reverse_singleton,
    List.singleton_append] at h
  split at h
  · cases h
  · rename_i hfault
    by_cases hname : name = []
    · -- a path that ends in a slash gives no place
      subst hname
      split at h <;> cases h
    · rw [List.dropWhile_cons_of_neg (by simpa using hname), List.tail_cons, List.reverse_reverse,
        List.headD_cons, List.head?_cons] at h
      split at h
      · cases h
      · rename_i location hfollow
        obtain ⟨hfollow, hdirectory⟩ := follow_append_dot hfollow
        split_ifs at h with hlast hlong
        split at h
        · cases h
        · rename_i hfree
          cases h
          have hlast : ¬ Path.stays name = true ∧ ¬ (name == Path.above) = true := by
            simpa [not_or, hname] using hlast
          exact ⟨location, parent, name, ⟨hfault, hcomponents, hfollow, hdirectory, hlast.1,
            hlast.2, fun ⟨entries, hdir⟩ => hfree entries hdir⟩, rfl⟩

variable {place parent : List FileName}

/-- A path leads where its last component leads from the directory before it. -/
theorem IsPlace.locate_eq (h : IsPlace tree path location parent name) (hgrows : Grows tree after) :
    after.locate path = (after.follow location [name]).map List.reverse := by
  rw [locate, h.fault?, h.components, follow_append, hgrows.follow h.follow]
  rfl

/-- Where a path gave a place for a file, it leads once there is a file. -/
theorem IsPlace.locate_of_file (h : IsPlace tree path location parent name)
    (hgrows : Grows tree after)
    (hfile : after.at? (name :: location).reverse = some (file bytes)) :
    after.locate path = .ok (name :: location).reverse := by
  obtain ⟨entries, hat⟩ := hgrows.hasDirectory h.hasDirectory
  rw [h.locate_eq hgrows, follow_cons hat, if_neg h.not_stays, if_neg h.ne_above,
    if_pos (by rw [hfile]; rfl)]
  rfl

/-- A path that gives a place for a file leads to no directory. -/
theorem IsPlace.lookup_ne (h : IsPlace tree path location parent name) :
    tree.lookup path ≠ .ok (directory entries) := by
  obtain ⟨siblings, hat⟩ := h.hasDirectory
  intro hlookup
  rw [lookup] at hlookup
  split at hlookup
  · cases hlookup
  · rename_i target htarget
    split at hlookup
    · rename_i found hfound
      cases hlookup
      rw [h.locate_eq (.refl tree), follow_cons hat, if_neg h.not_stays, if_neg h.ne_above]
        at htarget
      split_ifs at htarget <;> cases htarget
      exact h.not_hasDirectory ⟨entries, hfound⟩
    · cases hlookup

/-- **A place for a file** that a path gives is where the path leads ever after, once there is a
file. -/
theorem locate_of_placeFor (hplace : tree.placeFor path = .ok place) (hgrows : Grows tree after)
    (hfile : after.at? place = some (file bytes)) : after.locate path = .ok place := by
  obtain ⟨location, parent, name, h, rfl⟩ := isPlace_of_placeFor hplace
  exact h.locate_of_file hgrows hfile

/-- There is no place for a file where a path leads to a directory, or where the components before
its last one lead nowhere. -/
theorem placeFor_error (h : (∃ entries, tree.lookup path = .ok (directory entries)) ∨
    ∃ e, tree.follow (Path.origin path) (Path.components path).dropLast = .error e) :
    ∃ e, tree.placeFor path = .error e := by
  cases hplace : tree.placeFor path with
  | error e => exact ⟨e, rfl⟩
  | ok place =>
    obtain ⟨location, parent, name, hisPlace, rfl⟩ := isPlace_of_placeFor hplace
    obtain ⟨entries, hlookup⟩ | ⟨e, hfollow⟩ := h
    · exact absurd hlookup hisPlace.lookup_ne
    · rw [hisPlace.components, List.dropLast_concat, hisPlace.follow] at hfollow
      cases hfollow

/-- **To write a file** puts it at the place that its path gives, and changes no other. -/
theorem keeps_write (h : tree.write path bytes = .ok after) :
    ∃ place, tree.placeFor path = .ok place ∧ Keeps (some place) tree after ∧
      after.at? place = some (file bytes) := by
  rw [write] at h
  cases hplace : tree.placeFor path with
  | error e =>
    rw [hplace] at h
    cases h
  | ok place =>
    rw [hplace] at h
    cases h
    obtain ⟨location, parent, name, hisPlace, rfl⟩ := isPlace_of_placeFor hplace
    have hfree := hisPlace.not_hasDirectory
    rw [List.reverse_cons] at hfree ⊢
    exact ⟨_, rfl, keeps_put_file hisPlace.hasDirectory hfree,
      at?_put_self hisPlace.hasDirectory⟩

end Places

section Reading

/-- There is a text file where a path leads. -/
def HoldsText (tree : FileTree) (path : Path) (text : String) : Prop :=
  ∃ location, tree.locate path = .ok location ∧ tree.at? location = some (file text.toUTF8)

/-- Bytes are the UTF-8 form of one text at most. -/
theorem decodeUtf8_eq_ok_iff {text : String} :
    decodeUtf8 bytes = .ok text ↔ bytes = text.toUTF8 := by
  rw [decodeUtf8, String.fromUTF8?]
  split
  · rename_i found hfound
    split at hfound <;> cases hfound
    rw [Except.ok.injEq]
    constructor
    · rintro rfl
      rfl
    · rintro rfl
      rfl
  · rename_i hnone
    split at hnone
    · cases hnone
    · rename_i hinvalid
      refine ⟨nofun, fun h => absurd ?_ hinvalid⟩
      rw [h]
      exact text.isValidUTF8

/-- **The text that is read** is that of the file where the path leads. -/
theorem readText_eq_ok_iff {text : String} :
    tree.readText path = .ok text ↔ HoldsText tree path text := by
  simp only [readText, lookup, HoldsText]
  cases tree.locate path with
  | error e => exact ⟨nofun, nofun⟩
  | ok location =>
    simp only [Except.ok.injEq, exists_eq_left']
    cases hat : tree.at? location with
    | none => exact ⟨nofun, nofun⟩
    | some found =>
      cases found with
      | file bytes => simpa [FileTree.bytes] using decodeUtf8_eq_ok_iff
      | directory entries => simp [FileTree.bytes]

end Reading

end FileTree
end InfixCalc
