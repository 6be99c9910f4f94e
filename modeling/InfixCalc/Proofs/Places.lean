/-
# What a file tree holds

`FileTree.Holds` says what stands where in a tree by the entries of its directories alone, without
an order.  The walk through a tree lists exactly that (`FileTree.mem_places`), so the files and the
directories that it finds are those of the tree (`FileTree.mem_files`, `FileTree.mem_directories`).
A path whose components all stay where they are leads to where it starts
(`FileTree.follow_of_stays`).
-/

import InfixCalc.FileTree

namespace InfixCalc
namespace FileTree

/-- Names lead from a tree down to what it holds there. -/
inductive Holds : FileTree → List FileName → FileTree → Prop
  | here (tree : FileTree) : Holds tree [] tree
  | entry {entries : List (FileName × FileTree)} {name : FileName} {child place : FileTree}
      {names : List FileName} (hmem : (name, child) ∈ entries) (hbelow : Holds child names place) :
      Holds (directory entries) (name :: names) place

/-- Sorting keeps all entries, and adds none. -/
theorem mem_sortByName {α : Type} {entries : List (FileName × α)} {entry : FileName × α} :
    entry ∈ sortByName entries ↔ entry ∈ entries := List.mem_mergeSort

/-- A file is the only place in itself. -/
theorem places_file (bytes : ByteArray) : (file bytes).places = [([], file bytes)] := by
  rw [places]

/-- The places in a directory are the directory itself and the places in its entries. -/
theorem mem_places_directory {entries : List (FileName × FileTree)} {names : List FileName}
    {place : FileTree} :
    (names, place) ∈ (directory entries).places ↔
      (names = [] ∧ place = directory entries) ∨
        ∃ name child below, (name, child) ∈ entries ∧ (below, place) ∈ child.places ∧
          names = name :: below := by
  rw [places, List.mem_cons, List.mem_flatMap, Prod.mk.injEq]
  refine or_congr Iff.rfl ⟨?_, ?_⟩
  · rintro ⟨found, hsorted, hfound⟩
    obtain ⟨⟨name, child⟩, hmem, rfl⟩ := List.mem_map.1 (mem_sortByName.1 hsorted)
    obtain ⟨⟨below, place'⟩, hbelow, heq⟩ := List.mem_map.1 hfound
    cases heq
    exact ⟨name, child, below, hmem, hbelow, rfl⟩
  · rintro ⟨name, child, below, hmem, hbelow, rfl⟩
    exact ⟨(name, child.places), mem_sortByName.2 (List.mem_map.2 ⟨(name, child), hmem, rfl⟩),
      List.mem_map.2 ⟨(below, place), hbelow, rfl⟩⟩

/-- **The walk lists what a tree holds,** and where. -/
theorem mem_places {tree place : FileTree} {names : List FileName} :
    (names, place) ∈ tree.places ↔ tree.Holds names place := by
  constructor
  · intro h
    -- each name of the location leads one directory down
    induction names generalizing tree with
    | nil =>
      cases tree with
      | file bytes =>
        rw [places_file, List.mem_singleton] at h
        cases h
        exact .here _
      | directory entries =>
        obtain ⟨-, rfl⟩ | ⟨name, child, below, -, -, hnames⟩ := mem_places_directory.1 h
        · exact .here _
        · cases hnames
    | cons name names ih =>
      cases tree with
      | file bytes =>
        rw [places_file, List.mem_singleton] at h
        cases h
      | directory entries =>
        obtain ⟨hnames, -⟩ | ⟨name, child, below, hmem, hbelow, hnames⟩ :=
          mem_places_directory.1 h
        · cases hnames
        · cases hnames
          exact .entry hmem (ih hbelow)
  · intro h
    induction h with
    | here tree =>
      cases tree with
      | file bytes => rw [places_file]; exact List.mem_singleton_self _
      | directory entries => exact mem_places_directory.2 (.inl ⟨rfl, rfl⟩)
    | entry hmem _ ih => exact mem_places_directory.2 (.inr ⟨_, _, _, hmem, ih, rfl⟩)

/-- The files that are found are those of the tree. -/
theorem mem_files {tree : FileTree} {names : List FileName} {bytes : ByteArray} :
    (names, bytes) ∈ tree.files ↔ tree.Holds names (file bytes) := by
  rw [files, List.mem_filterMap, ← mem_places]
  constructor
  · rintro ⟨⟨names', bytes' | entries⟩, hmem, heq⟩
    · cases heq
      exact hmem
    · cases heq
  · exact fun hmem => ⟨(names, file bytes), hmem, rfl⟩

/-- The directories that are found are those of the tree. -/
theorem mem_directories {tree : FileTree} {names : List FileName} :
    names ∈ tree.directories ↔ ∃ entries, tree.Holds names (directory entries) := by
  rw [directories, List.mem_filterMap]
  constructor
  · rintro ⟨⟨names', bytes | entries⟩, hmem, heq⟩
    · cases heq
    · cases heq
      exact ⟨entries, mem_places.1 hmem⟩
  · rintro ⟨entries, hholds⟩
    exact ⟨(names, directory entries), mem_places.2 hholds, rfl⟩

/-- Components that stay lead from a directory to itself. -/
theorem follow_of_stays {tree : FileTree} {location : List FileName}
    {entries : List (FileName × FileTree)}
    (hat : tree.at? location.reverse = some (directory entries))
    {components : List FileName} (hstays : ∀ component ∈ components, Path.stays component = true) :
    tree.follow location components = .ok location := by
  induction components with
  | nil => rfl
  | cons component components ih =>
    obtain ⟨hstays, hrest⟩ := List.forall_mem_cons.1 hstays
    simp only [follow, hat, hstays, if_true, ih hrest]

end FileTree
end InfixCalc
