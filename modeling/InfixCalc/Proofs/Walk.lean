/-
# In which order corpora are found

The walk goes through a tree depth first and sorts the entries of each directory by the bytes of
their names.  That is one order on the paths below the root: their names are compared one by one,
and each name as a byte string (`FileTree.Before`).  It is not the order of the paths as texts, in
which `a.expr` comes before `a/b.expr`.

As the names in a directory are different, the walk lists every place once, in increasing order
(`FileTree.pairwise_places`).  A list that is increasing is known by its members, so the corpus
files of a tree depend on what files it holds and on nothing else (`CheckCommand.collect_eq`).
The walk fails if the path to a directory is too long for the directory to be opened, whatever is
in it.
-/

import InfixCalc.Proofs.FileGrowth
import InfixCalc.Proofs.Verdict
import Mathlib.Data.List.Sort

namespace InfixCalc
namespace FileTree

/-- The entries of each directory of the tree have different names. -/
inductive NamesApart : FileTree → Prop
  | file (bytes : ByteArray) : NamesApart (file bytes)
  | directory {entries : List (FileName × FileTree)} (hnodup : (entries.map Prod.fst).Nodup)
      (hbelow : ∀ entry ∈ entries, NamesApart entry.2) : NamesApart (directory entries)

/-- The names on the way to one place come before those on the way to another: name by name, and
each name as a byte string. -/
def Before (first second : List FileName) : Prop := first < second

section Order

/-- A directory comes before what is in it. -/
theorem nil_before_cons (name : FileName) (names : List FileName) : Before [] (name :: names) :=
  List.nil_lt_cons _ _

/-- The first name decides, unless it is the same. -/
theorem before_cons_iff {name other : FileName} {first second : List FileName} :
    Before (name :: first) (other :: second) ↔
      name < other ∨ name = other ∧ Before first second := by
  rw [Before, List.cons_lt_cons_iff]
  rfl

/-- Nothing comes before itself. -/
theorem not_before_self (names : List FileName) : ¬ Before names names := List.lt_irrefl _

/-- No two places come before each other. -/
theorem Before.asymm {first second : List FileName} (h : Before first second) :
    ¬ Before second first := List.lt_asymm h

/-- **Sorting entries with different names** puts them in strictly increasing order. -/
theorem pairwise_sortByName {α : Type} {entries : List (FileName × α)}
    (h : (entries.map Prod.fst).Nodup) :
    (sortByName entries).Pairwise fun a b => a.1 < b.1 := by
  have hsorted : (sortByName entries).Pairwise fun a b =>
      decide (a.1 ≤ b.1) = true := by
    refine List.pairwise_mergeSort (fun a b c hab hbc => ?_) (fun a b => ?_) entries
    · exact decide_eq_true (List.le_trans (of_decide_eq_true hab) (of_decide_eq_true hbc))
    · rw [Bool.or_eq_true, decide_eq_true_iff, decide_eq_true_iff]
      exact List.le_total _ _
  have hapart : (sortByName entries).Pairwise fun a b => a.1 ≠ b.1 := by
    refine List.pairwise_map.1 (?_ : ((sortByName entries).map Prod.fst).Nodup)
    exact ((List.mergeSort_perm entries _).map Prod.fst).nodup_iff.2 h
  refine (List.pairwise_and_iff.2 ⟨hsorted, hapart⟩).imp fun {a b} hab => ?_
  refine Decidable.not_not.1 fun hnot => hab.2 ?_
  exact List.le_antisymm (of_decide_eq_true hab.1) (List.not_lt.1 hnot)

/-- **The walk lists the places of a tree in strictly increasing order.** -/
theorem pairwise_places {tree : FileTree} (h : tree.NamesApart) :
    tree.places.Pairwise fun a b => Before a.1 b.1 := by
  induction h with
  | file bytes =>
    rw [places_file]
    exact List.pairwise_singleton _ _
  | @directory entries hnodup hbelow ih =>
    rw [places]
    refine List.pairwise_cons.2 ⟨?_, List.pairwise_flatMap.2 ⟨?_, ?_⟩⟩
    · -- the directory itself comes before everything in it
      intro place hplace
      obtain ⟨entry, -, hentry⟩ := List.mem_flatMap.1 hplace
      obtain ⟨below, -, rfl⟩ := List.mem_map.1 hentry
      exact nil_before_cons _ _
    · -- in one entry, the name is the same and the rest increases
      intro entry hentry
      obtain ⟨⟨name, child⟩, hmem, rfl⟩ := List.mem_map.1 (mem_sortByName.1 hentry)
      refine List.pairwise_map.2 ((ih _ hmem).imp fun {a b} hab => ?_)
      exact before_cons_iff.2 (.inr ⟨rfl, hab⟩)
    · -- from one entry to a later one, the name increases
      have hkeys : ((entries.map fun entry => (entry.1, places entry.2)).map Prod.fst).Nodup := by
        rw [List.map_map]
        exact hnodup
      refine (pairwise_sortByName hkeys).imp fun {a b} hab first hfirst second hsecond => ?_
      obtain ⟨below, -, rfl⟩ := List.mem_map.1 hfirst
      obtain ⟨below', -, rfl⟩ := List.mem_map.1 hsecond
      exact before_cons_iff.2 (.inl hab)

/-- The files are listed in the same order as all places. -/
theorem pairwise_files {tree : FileTree} (h : tree.NamesApart) :
    tree.files.Pairwise fun a b => Before a.1 b.1 := by
  refine List.pairwise_filterMap.2 ((pairwise_places h).imp ?_)
  rintro ⟨names, bytes | entries⟩ ⟨names', bytes' | entries'⟩ hbefore file hfile file' hfile'
  · cases hfile
    cases hfile'
    exact hbefore
  · cases hfile'
  · cases hfile
  · cases hfile

end Order

section Locations

variable {tree new place : FileTree} {names location : List FileName} {name : FileName}
  {entries : List (FileName × FileTree)}

/-- A file holds itself and nothing else. -/
theorem holds_file_iff {bytes : ByteArray} :
    (file bytes).Holds names place ↔ names = [] ∧ place = file bytes := by
  constructor
  · rintro ⟨⟩
    exact ⟨rfl, rfl⟩
  · rintro ⟨rfl, rfl⟩
    exact .here _

/-- A directory holds itself and what its entries hold. -/
theorem holds_directory_iff :
    (directory entries).Holds names place ↔
      (names = [] ∧ place = directory entries) ∨
        ∃ entry ∈ entries, ∃ below, entry.2.Holds below place ∧ names = entry.1 :: below := by
  constructor
  · rintro (_ | ⟨hmem, hbelow⟩)
    · exact .inl ⟨rfl, rfl⟩
    · exact .inr ⟨_, hmem, _, hbelow, rfl⟩
  · rintro (⟨rfl, rfl⟩ | ⟨entry, hmem, below, hbelow, rfl⟩)
    · exact .here _
    · exact .entry hmem hbelow

/-- Where names are apart, an entry is the one that is found under its name. -/
theorem child?_eq_some_iff (h : (entries.map Prod.fst).Nodup) {child : FileTree} :
    (directory entries).child? name = some child ↔ (name, child) ∈ entries := by
  rw [child?, Option.map_eq_some_iff]
  constructor
  · rintro ⟨⟨found, child'⟩, hfind, rfl⟩
    have hname := List.find?_some hfind
    obtain rfl : found = name := eq_of_beq hname
    exact List.mem_of_find?_eq_some hfind
  · intro hmem
    have hsome : (entries.find? fun entry => entry.1 == name).isSome := by
      rw [List.find?_isSome]
      exact ⟨(name, child), hmem, beq_self_eq_true name⟩
    obtain ⟨found, hfind⟩ := Option.isSome_iff_exists.1 hsome
    have hname := List.find?_some hfind
    have hsame : found = (name, child) :=
      List.inj_on_of_nodup_map h (List.mem_of_find?_eq_some hfind) hmem (eq_of_beq hname)
    exact ⟨found, hfind, by rw [hsame]⟩

/-- **What a tree holds is what is found at the location.** -/
theorem holds_iff_at? (h : tree.NamesApart) :
    tree.Holds names place ↔ tree.at? names = some place := by
  induction h generalizing names with
  | file bytes =>
    rw [holds_file_iff]
    match names with
    | [] => simp [at?, eq_comm]
    | name :: names => simp [at?_cons, child?]
  | @directory entries hnodup hbelow ih =>
    rw [holds_directory_iff]
    match names with
    | [] => simp [at?, eq_comm]
    | name :: names =>
      rw [at?_cons, Option.bind_eq_some_iff]
      constructor
      · rintro (⟨hnames, -⟩ | ⟨entry, hmem, below, hholds, hnames⟩)
        · cases hnames
        · obtain ⟨rfl, rfl⟩ := List.cons.inj hnames
          exact ⟨entry.2, (child?_eq_some_iff hnodup).2 hmem, (ih entry hmem).1 hholds⟩
      · rintro ⟨child, hchild, hat⟩
        have hmem := (child?_eq_some_iff hnodup).1 hchild
        exact .inr ⟨(name, child), hmem, names, (ih _ hmem).2 hat, rfl⟩

variable {change : Option FileTree → FileTree}

/-- Putting an entry adds no name but its own. -/
theorem nodup_putEntry (h : (entries.map Prod.fst).Nodup) :
    ((putEntry name change entries).map Prod.fst).Nodup := by
  rw [putEntry]
  split
  · have hsame : (Prod.fst ∘ fun entry : FileName × FileTree =>
        if entry.1 == name then (name, change (some entry.2)) else entry) = Prod.fst := by
      funext entry
      by_cases hentry : entry.1 = name <;> simp [hentry]
    rwa [List.map_map, hsame]
  · rename_i hany
    have hnew : name ∉ entries.map Prod.fst := by
      intro hmem
      obtain ⟨entry, hentry, hname⟩ := List.mem_map.1 hmem
      exact hany (List.any_eq_true.2 ⟨entry, hentry, beq_iff_eq.2 hname⟩)
    rw [List.map_append, List.map_singleton]
    exact List.nodup_append_comm.1 (List.nodup_cons.2 ⟨hnew, h⟩)

/-- An entry after something is put was there before, or it is what was put. -/
theorem mem_putEntry {entry : FileName × FileTree} (h : entry ∈ putEntry name change entries) :
    entry ∈ entries ∨ entry.2 = change none ∨ ∃ old ∈ entries, entry.2 = change (some old.2) := by
  rw [putEntry] at h
  split at h
  · obtain ⟨old, hmem, rfl⟩ := List.mem_map.1 h
    split
    · exact .inr (.inr ⟨old, hmem, rfl⟩)
    · exact .inl hmem
  · rcases List.mem_append.1 h with hmem | hnew
    · exact .inl hmem
    · rw [List.mem_singleton.1 hnew]
      exact .inr (.inl rfl)

/-- In an empty directory, there are no names that could be the same. -/
theorem namesApart_directory_nil : NamesApart (directory []) :=
  .directory List.nodup_nil fun _ hmem => absurd hmem List.not_mem_nil

/-- **Names stay apart** when something is put in a tree. -/
theorem NamesApart.put (h : tree.NamesApart) (hnew : new.NamesApart) :
    (tree.put location new).NamesApart := by
  induction location generalizing tree with
  | nil =>
    rw [FileTree.put]
    exact hnew
  | cons name location ih =>
    match h with
    | .file bytes => exact .file bytes
    | .directory hnodup hbelow =>
      rw [FileTree.put]
      refine .directory (nodup_putEntry hnodup) fun entry hentry => ?_
      obtain hmem | heq | ⟨old, hmem, heq⟩ := mem_putEntry hentry
      · exact hbelow entry hmem
      · rw [heq]
        exact ih namesApart_directory_nil
      · rw [heq]
        exact ih (hbelow old hmem)

end Locations
end FileTree

namespace CheckCommand

/-- The name has the extension `expr`: something comes before it. -/
def HasExtension (name : FileName) : Prop := ∃ stem, stem ≠ [] ∧ name = stem ++ Path.ofText ".expr"

/-- The path to each directory is short enough for the directory to be opened. -/
def Openable (path : Path) (tree : FileTree) : Prop :=
  ∀ below entries, tree.Holds below (.directory entries) →
    (pathTo path below).length ≤ Path.maxBytes

/-- The corpus files that a run finds, unless some directory cannot be opened. -/
def collect (path : Path) (tree : FileTree) :
    Except CommandError (List (List FileName × ByteArray)) :=
  match unopened? path tree with
  | some place => .error (.unopened place .tooLong)
  | none => .ok (corpusFiles path tree)

/-- A run collects the files and then goes through them. -/
theorem runOn_eq_collect (settings : Settings) (path : Path) (tree : FileTree) :
    runOn settings path tree =
      match collect path tree with
      | .error cause => failure "" cause
      | .ok [] => ⟨0, "未找到用例集文件（.expr）\n"⟩
      | .ok files =>
        match reportAfter ⟨settings⟩ path {} files with
        | .error cause => failure "" (.unreadable cause)
        | .ok report =>
          if Diagnostic.hasErrors report.diagnostics then failure (reportText report) .corpusErrors
          else ⟨0, reportText report⟩ := by
  rw [runOn, collect]
  cases unopened? path tree with
  | some place => rfl
  | none => cases corpusFiles path tree <;> rfl

/-- The names of corpora are those with the extension. -/
theorem isCorpusName_iff {name : FileName} : isCorpusName name = true ↔ HasExtension name := by
  rw [isCorpusName, Bool.and_eq_true, List.isSuffixOf_iff_suffix, decide_eq_true_iff]
  constructor
  · rintro ⟨⟨stem, rfl⟩, hlength⟩
    rw [List.length_append, Nat.lt_add_left_iff_pos, List.length_pos_iff] at hlength
    exact ⟨stem, hlength, rfl⟩
  · rintro ⟨stem, hstem, rfl⟩
    refine ⟨⟨stem, rfl⟩, ?_⟩
    rw [extension, List.length_append, Nat.lt_add_left_iff_pos, List.length_pos_iff]
    exact hstem

variable {path : Path} {tree tree' : FileTree}

/-- A corpus is a file whose last name has the extension. -/
theorem hasCorpus_iff {below : List FileName} {bytes : ByteArray} :
    HasCorpus path tree below bytes ↔
      tree.Holds below (.file bytes) ∧ HasExtension (lastName path below) := by
  rw [HasCorpus, isCorpusName_iff]

/-- Where every directory can be opened, all corpus files are found. -/
theorem collect_of_openable (h : Openable path tree) :
    collect path tree = .ok (corpusFiles path tree) := by
  rw [collect, unopened?_eq_none_iff.2 h]

/-- **Collecting fails** where some directory cannot be opened. -/
theorem collect_of_not_openable (h : ¬ Openable path tree) :
    ∃ place, Path.maxBytes < place.length ∧
      collect path tree = .error (.unopened place .tooLong) := by
  match hunopened : unopened? path tree with
  | none => exact absurd (unopened?_eq_none_iff.1 hunopened) h
  | some place =>
    have hlong := List.find?_some hunopened
    refine ⟨place, of_decide_eq_true hlong, ?_⟩
    rw [collect, hunopened]

/-- **The corpus files are found in strictly increasing order.** -/
theorem pairwise_corpusFiles (h : tree.NamesApart) :
    (corpusFiles path tree).Pairwise fun a b => FileTree.Before a.1 b.1 :=
  (FileTree.pairwise_files h).filter _

/-- An increasing list of files is known by its members. -/
theorem eq_of_pairwise_before {files files' : List (List FileName × ByteArray)}
    (h : files.Pairwise fun a b => FileTree.Before a.1 b.1)
    (h' : files'.Pairwise fun a b => FileTree.Before a.1 b.1)
    (hmem : ∀ file, file ∈ files ↔ file ∈ files') : files = files' := by
  have : Std.Irrefl fun a b : List FileName × ByteArray => FileTree.Before a.1 b.1 :=
    ⟨fun a => FileTree.not_before_self a.1⟩
  have : Std.Antisymm fun a b : List FileName × ByteArray => FileTree.Before a.1 b.1 :=
    ⟨fun a b hab hba => absurd hba hab.asymm⟩
  exact h.eq_of_mem_iff h' hmem

/-- **The corpus files depend on the files of a tree only.** -/
theorem collect_eq (h : tree.NamesApart) (h' : tree'.NamesApart) (hopen : Openable path tree)
    (hopen' : Openable path tree')
    (hsame : ∀ below bytes, HasCorpus path tree below bytes ↔ HasCorpus path tree' below bytes) :
    collect path tree = collect path tree' := by
  rw [collect_of_openable hopen, collect_of_openable hopen', Except.ok.injEq]
  refine eq_of_pairwise_before (pairwise_corpusFiles h) (pairwise_corpusFiles h') ?_
  rintro ⟨below, bytes⟩
  rw [mem_corpusFiles, mem_corpusFiles]
  exact hsame below bytes

section Adding

variable {location : List FileName} {new : FileTree}

/-- What is added at a location is no corpus: an empty directory, or a file with another
extension. -/
def Idle (path : Path) (location : List FileName) (new : FileTree) : Prop :=
  new = .directory [] ∨ ∃ bytes, new = .file bytes ∧ ¬ HasExtension (lastName path location)

/-- What is idle has no two entries of one name. -/
theorem Idle.namesApart (h : Idle path location new) : new.NamesApart := by
  obtain rfl | ⟨bytes, rfl, -⟩ := h
  · exact FileTree.namesApart_directory_nil
  · exact .file bytes

/-- Nothing is below what is idle. -/
theorem Idle.isBare (h : Idle path location new) : FileTree.IsBare new [] := by
  obtain rfl | ⟨bytes, rfl, -⟩ := h
  · exact FileTree.isBare_directory_nil
  · exact FileTree.isBare_file bytes

/-- Where there is nothing, there is no directory. -/
theorem not_hasDirectory_of_none (h : tree.at? location = none) :
    ¬ FileTree.HasDirectory tree location := by
  rintro ⟨entries, hat⟩
  cases h.symm.trans hat

/-- What is opened after something is added could be opened before. -/
theorem openable_of_put (h : tree.NamesApart) (hidle : Idle path location new)
    (hnone : tree.at? location = none) (hopen : Openable path (tree.put location new)) :
    Openable path tree := by
  intro below entries hholds
  have hdirectory : FileTree.HasDirectory tree below :=
    ⟨entries, (FileTree.holds_iff_at? h).1 hholds⟩
  obtain ⟨entries', hat⟩ := hdirectory.put (not_hasDirectory_of_none hnone) hidle.isBare
  exact hopen below entries' ((FileTree.holds_iff_at? (h.put hidle.namesApart)).2 hat)

/-- **No corpus comes or goes** when something idle is added. -/
theorem hasCorpus_put_iff (h : tree.NamesApart) (hidle : Idle path location new)
    (hnone : tree.at? location = none) {below : List FileName} {bytes : ByteArray} :
    HasCorpus path (tree.put location new) below bytes ↔ HasCorpus path tree below bytes := by
  rw [hasCorpus_iff, hasCorpus_iff, FileTree.holds_iff_at? h,
    FileTree.holds_iff_at? (h.put hidle.namesApart)]
  refine and_congr_left fun hextension => FileTree.at?_file_put (not_hasDirectory_of_none hnone)
    hidle.isBare fun heq => ⟨?_, ?_⟩
  · rintro rfl
    obtain hdirectory | ⟨bytes, -, hother⟩ := hidle
    · cases hdirectory
    · exact hother (heq ▸ hextension)
  · rw [hnone]
    intro heq
    cases heq

end Adding

/-- **Corpora are found in the order of their paths.**  If every directory can be opened, the files
with the extension `expr` at and below the root are found, each once, in strictly increasing order
of the names that lead to them, and nothing else is.  So trees that hold the same files give the
same, and it makes no difference whether there is also an empty directory or a file with another
extension.  If some directory cannot be opened, nothing is found. -/
theorem collect_in_order (path : Path) {tree : FileTree} (h : tree.NamesApart) :
    (Openable path tree → ∃ files, collect path tree = .ok files ∧
      (∀ below bytes, (below, bytes) ∈ files ↔
        tree.Holds below (.file bytes) ∧ HasExtension (lastName path below)) ∧
      (files.map Prod.fst).Nodup ∧
      files.Pairwise fun a b => FileTree.Before a.1 b.1) ∧
    (¬ Openable path tree → ∃ place, Path.maxBytes < place.length ∧
      collect path tree = .error (.unopened place .tooLong)) ∧
    (∀ tree' : FileTree, tree'.NamesApart → Openable path tree → Openable path tree' →
      (∀ below bytes, HasExtension (lastName path below) →
        (tree.Holds below (.file bytes) ↔ tree'.Holds below (.file bytes))) →
      collect path tree = collect path tree') ∧
    ∀ location new, Idle path location new → tree.at? location = none →
      Openable path (tree.put location new) →
      collect path (tree.put location new) = collect path tree := by
  refine ⟨fun hopen => ?_, collect_of_not_openable, fun tree' h' hopen hopen' hsame => ?_,
    fun location new hidle hnone hopen => ?_⟩
  · have hsorted : (corpusFiles path tree).Pairwise fun a b => FileTree.Before a.1 b.1 :=
      pairwise_corpusFiles h
    refine ⟨corpusFiles path tree, collect_of_openable hopen, fun below bytes => ?_, ?_, hsorted⟩
    · rw [mem_corpusFiles, hasCorpus_iff]
    -- names that increase strictly cannot repeat
    · refine List.pairwise_map.2 (hsorted.imp fun {a b} hbefore heq => ?_)
      rw [heq] at hbefore
      exact FileTree.not_before_self _ hbefore
  · refine collect_eq h h' hopen hopen' fun below bytes => ?_
    rw [hasCorpus_iff, hasCorpus_iff]
    exact and_congr_left (hsame below bytes)
  · exact collect_eq (h.put hidle.namesApart) h hopen (openable_of_put h hidle hnone hopen)
      fun below bytes => hasCorpus_put_iff h hidle hnone

/-- Below `corpus` are `a.expr` and `a/b.expr` and a file that is only called `.expr`.  The names
`a` and `b.expr` come before the name `a.expr`, though the texts of the paths are the other way
round. -/
theorem collect_directory_before_extension :
    let tree := FileTree.directory
      [("a.expr", .file "1 => 1\n".toUTF8),
        ("a", .directory [("b.expr", .file "2 => 2\n".toUTF8), (".expr", .file "3".toUTF8)])]
    tree.NamesApart ∧ Openable "corpus" tree ∧
      collect "corpus" tree =
        .ok [(["a", "b.expr"], "2 => 2\n".toUTF8), (["a.expr"], "1 => 1\n".toUTF8)] := by
  intro tree
  have hnames : tree.NamesApart := by
    refine .directory (by decide)
      (List.forall_mem_cons.2 ⟨.file _, List.forall_mem_cons.2 ⟨?_, List.forall_mem_nil _⟩⟩)
    exact .directory (by decide)
      (List.forall_mem_cons.2 ⟨.file _, List.forall_mem_cons.2 ⟨.file _, List.forall_mem_nil _⟩⟩)
  have hopen : Openable "corpus" tree := by
    intro below entries hholds
    simp only [tree, FileTree.holds_directory_iff, FileTree.holds_file_iff, List.mem_cons,
      List.not_mem_nil, or_false, exists_eq_or_imp, reduceCtorEq, and_false, false_and,
      exists_const, ↓existsAndEq, or_self, true_and, false_or] at hholds
    obtain ⟨rfl, -⟩ | ⟨-, rfl⟩ := hholds
    · decide
    · decide
  obtain ⟨hfound, -⟩ := collect_in_order "corpus" hnames
  obtain ⟨files, hfiles, hmem, -, hsorted⟩ := hfound hopen
  refine ⟨hnames, hopen, ?_⟩
  rw [hfiles, Except.ok.injEq]
  -- a sorted list is known by its members
  refine eq_of_pairwise_before hsorted ?_ ?_
  · refine List.pairwise_pair.2 (FileTree.before_cons_iff.2 (.inl ?_))
    decide
  · rintro ⟨below, bytes⟩
    rw [hmem, ← isCorpusName_iff]
    simp only [tree, FileTree.holds_directory_iff, FileTree.holds_file_iff, FileTree.file.injEq,
      List.mem_cons, List.not_mem_nil, or_false, exists_eq_or_imp, reduceCtorEq, and_false,
      ↓existsAndEq, true_and, false_or, Prod.mk.injEq]
    constructor
    · rintro ⟨⟨rfl, rfl⟩ | ⟨_, ⟨rfl, rfl⟩ | ⟨rfl, rfl⟩, rfl⟩, hname⟩
      · exact .inr ⟨rfl, rfl⟩
      · exact .inl ⟨rfl, rfl⟩
      · exact absurd hname (by decide)
    · rintro (⟨rfl, rfl⟩ | ⟨rfl, rfl⟩)
      · exact ⟨.inr ⟨["b.expr"], .inl ⟨rfl, rfl⟩, rfl⟩, by decide⟩
      · exact ⟨.inl ⟨rfl, rfl⟩, by decide⟩

/-- The path to the root has 4080 bytes, and that to an empty directory in it would have 4100, too
many for the directory to be opened.  So adding the directory makes the walk fail. -/
theorem collect_fails_beyond_limit :
    let path := dots 2040
    let tree := FileTree.directory [("a.expr", .file "1 => 1\n".toUTF8)]
    let after := tree.put ["drafts-of-cases-0001"] (.directory [])
    tree.NamesApart ∧ tree.at? ["drafts-of-cases-0001"] = none ∧
      collect path tree = .ok (corpusFiles path tree) ∧
      ¬ (∃ files, collect path after = .ok files) ∧ collect path after ≠ collect path tree := by
  intro path tree after
  have hnames : tree.NamesApart :=
    .directory (by decide) (List.forall_mem_cons.2 ⟨.file _, List.forall_mem_nil _⟩)
  have hopen : Openable path tree := by
    intro below entries hholds
    simp only [tree, FileTree.holds_directory_iff, FileTree.holds_file_iff, List.mem_cons,
      List.not_mem_nil, or_false, exists_eq_left, reduceCtorEq, and_false, false_and,
      exists_const] at hholds
    rw [hholds.1, pathTo, length_dots]
    decide
  have hclosed : ¬ Openable path after := by
    intro hopen
    have hsize := hopen ["drafts-of-cases-0001"] []
      (.entry (List.mem_cons_of_mem _ (List.mem_singleton_self _)) (.here _))
    rw [pathTo_dots, List.length_append, length_dots] at hsize
    exact absurd hsize (by decide)
  obtain ⟨place, -, hfails⟩ := collect_of_not_openable hclosed
  refine ⟨hnames, rfl, collect_of_openable hopen, ?_, ?_⟩
  · rintro ⟨files, hfiles⟩
    cases hfails.symm.trans hfiles
  · rw [hfails, collect_of_openable hopen]
    intro heq
    cases heq

end CheckCommand
end InfixCalc
