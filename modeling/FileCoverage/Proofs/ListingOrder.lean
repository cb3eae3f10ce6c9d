import FileCoverage.FileTree.Listing
import FileCoverage.Proofs.CanonicalPath
import FileCoverage.Proofs.FileFrame
import Mathlib.Data.Char
import Mathlib.Data.List.Lex
import Mathlib.Data.List.Pairwise
import Mathlib.Data.List.Perm.Basic

/-!
# What a listing names, and in which order

A directory as a file system holds it has one entry for a name, and every entry has a name that may
stand in a path.  The listing of such a directory names every file once that is in no folder to be
skipped.  Of two files the one is listed before the other that is in the folder where the ways to
them part, and else the one whose name, or the name of whose folder there, comes first in code-point
order.  So the listing is the same however the entries are stored.
-/

namespace FileCoverage

/-! ### Lists in strict order -/

section StrictOrder

variable {α : Type} {r : α → α → Prop} {l l' : List α}

theorem nodup_of_strict (asymm : ∀ a b, r a b → ¬ r b a) (strict : l.Pairwise r) : l.Nodup := by
  refine strict.imp ?_
  rintro a _ before rfl
  exact asymm a a before before

/-- A list in strict order is known by its members. -/
theorem eq_of_strict (asymm : ∀ a b, r a b → ¬ r b a) (strict : l.Pairwise r)
    (strict' : l'.Pairwise r) (same : ∀ a, a ∈ l ↔ a ∈ l') : l = l' := by
  refine List.Perm.eq_of_pairwise (fun a b _ _ before after => ?_) strict strict' ?_
  · exact absurd after (asymm a b before)
  · rw [List.perm_ext_iff_of_nodup (nodup_of_strict asymm strict) (nodup_of_strict asymm strict')]
    exact same

end StrictOrder

/-! ### Code-point order -/

namespace Text

theorem precedes_iff (a b : Text) : precedes a b = true ↔ a ≤ b := by
  rw [precedes, Bool.not_eq_true', decide_eq_false_iff_not, not_lt]

/-- Things sorted by texts that are all different are in strict order. -/
theorem pairwise_lt_mergeSort {α : Type} (key : α → Text) {l : List α}
    (distinct : (l.map key).Nodup) :
    (l.mergeSort fun a b => precedes (key a) (key b)).Pairwise fun a b => key a < key b := by
  have sorted : (l.mergeSort fun a b => precedes (key a) (key b)).Pairwise
      fun a b => precedes (key a) (key b) = true :=
    List.pairwise_mergeSort (fun a b c => by simpa only [precedes_iff] using le_trans)
      (fun a b => by simpa only [Bool.or_eq_true, precedes_iff] using le_total _ _) l
  have apart : (l.mergeSort fun a b => precedes (key a) (key b)).Pairwise
      fun a b => key a ≠ key b := by
    rw [← List.pairwise_map]
    exact ((List.mergeSort_perm l _).map key).nodup_iff.2 distinct
  exact sorted.imp₂ (fun a b le ne => lt_of_le_of_ne ((precedes_iff _ _).1 le) ne) apart

theorem pairwise_lt_sorted {ts : List Text} (distinct : ts.Nodup) :
    (sorted ts).Pairwise (· < ·) :=
  pairwise_lt_mergeSort id (by rwa [List.map_id])

theorem mem_sorted_iff {t : Text} {ts : List Text} : t ∈ sorted ts ↔ t ∈ ts :=
  List.mem_mergeSort

end Text

namespace Directory

variable {d inside : Directory} {name : Text} {names : List Text} {skip : Text → Bool}

/-! ### Entries -/

/-- The names of the entries. -/
def entryNames : Directory → List Text
  | empty => []
  | file name _ rest => name :: entryNames rest
  | folder name _ rest => name :: entryNames rest

def fileNames : Directory → List Text
  | empty => []
  | file name _ rest => name :: fileNames rest
  | folder _ _ rest => fileNames rest

/-- The folders, each with the directory inside. -/
def folders : Directory → List (Text × Directory)
  | empty => []
  | file _ _ rest => folders rest
  | folder name inside rest => (name, inside) :: folders rest

/-- A name that may stand in a path. -/
structure IsEntryName (name : Text) : Prop where
  isName : Path.isName name = true
  slash : '/' ∉ name

instance (name : Text) : Decidable (IsEntryName name) :=
  decidable_of_iff (Path.isName name = true ∧ '/' ∉ name)
    ⟨fun ⟨isName, slash⟩ => ⟨isName, slash⟩, fun name => ⟨name.isName, name.slash⟩⟩

/-- As a file system holds it: in every directory each entry has a name of its own. -/
def IsProper : Directory → Prop
  | empty => True
  | file name _ rest => IsEntryName name ∧ name ∉ rest.entryNames ∧ IsProper rest
  | folder name inside rest =>
    IsEntryName name ∧ name ∉ rest.entryNames ∧ IsProper inside ∧ IsProper rest

instance decidableIsProper : (d : Directory) → Decidable d.IsProper
  | empty => inferInstanceAs (Decidable True)
  | file _ _ rest =>
    have := decidableIsProper rest
    inferInstanceAs (Decidable (_ ∧ _ ∧ _))
  | folder _ inside rest =>
    have := decidableIsProper inside
    have := decidableIsProper rest
    inferInstanceAs (Decidable (_ ∧ _ ∧ _ ∧ _))

theorem fileNames_sublist (d : Directory) : d.fileNames.Sublist d.entryNames := by
  induction d with
  | empty => exact List.Sublist.slnil
  | file name _ rest ih => exact ih.cons_cons name
  | folder name _ rest _ ih => exact ih.cons name

theorem map_folders_sublist (d : Directory) : (d.folders.map (·.1)).Sublist d.entryNames := by
  induction d with
  | empty => exact List.Sublist.slnil
  | file name _ rest ih => exact ih.cons name
  | folder name _ rest _ ih => exact ih.cons_cons name

theorem mem_fileNames_of_find? {content : Bytes} (found : d.find? name = some (.file content)) :
    name ∈ d.fileNames := by
  induction d with
  | empty => cases found
  | file n content rest ih =>
      rw [find?] at found
      split at found
      · next same => exact List.mem_cons.2 (.inl same.symm)
      · exact List.mem_cons_of_mem _ (ih found)
  | folder n inside rest _ ih =>
      rw [find?] at found
      split at found
      · cases found
      · exact ih found

theorem mem_folders_of_find? (found : d.find? name = some (.folder inside)) :
    (name, inside) ∈ d.folders := by
  induction d with
  | empty => cases found
  | file n content rest ih =>
      rw [find?] at found
      split at found
      · cases found
      · exact ih found
  | folder n inside' rest _ ih =>
      rw [find?] at found
      split at found
      · next same =>
          obtain rfl := Entry.folder.inj (Option.some.inj found)
          exact List.mem_cons.2 (.inl (by rw [same]))
      · exact List.mem_cons_of_mem _ (ih found)

theorem mem_entryNames_of_mem_folders (mem : (name, inside) ∈ d.folders) : name ∈ d.entryNames :=
  (map_folders_sublist d).subset (List.mem_map.2 ⟨_, mem, rfl⟩)

theorem mem_entryNames_of_find? {entry : Entry} (found : d.find? name = some entry) :
    name ∈ d.entryNames := by
  cases entry with
  | file => exact (fileNames_sublist d).subset (mem_fileNames_of_find? found)
  | folder => exact mem_entryNames_of_mem_folders (mem_folders_of_find? found)

namespace IsProper

theorem nodup_entryNames (proper : d.IsProper) : d.entryNames.Nodup := by
  induction d with
  | empty => exact List.nodup_nil
  | file name _ rest ih => exact List.nodup_cons.2 ⟨proper.2.1, ih proper.2.2⟩
  | folder name _ rest _ ih => exact List.nodup_cons.2 ⟨proper.2.1, ih proper.2.2.2⟩

theorem isEntryName (proper : d.IsProper) (mem : name ∈ d.entryNames) : IsEntryName name := by
  induction d with
  | empty => cases mem
  | file n _ rest ih =>
      rcases List.mem_cons.1 mem with rfl | mem
      · exact proper.1
      · exact ih proper.2.2 mem
  | folder n _ rest _ ih =>
      rcases List.mem_cons.1 mem with rfl | mem
      · exact proper.1
      · exact ih proper.2.2.2 mem

theorem find?_eq_file_iff (proper : d.IsProper) :
    (∃ content, d.find? name = some (.file content)) ↔ name ∈ d.fileNames := by
  refine ⟨fun ⟨_, found⟩ => mem_fileNames_of_find? found, fun mem => ?_⟩
  induction d with
  | empty => cases mem
  | file n content rest ih =>
      rcases List.mem_cons.1 mem with rfl | later
      · exact ⟨content, if_pos rfl⟩
      · have other : n ≠ name := by
          rintro rfl
          exact proper.2.1 ((fileNames_sublist rest).subset later)
        obtain ⟨content', found⟩ := ih proper.2.2 later
        exact ⟨content', by rw [find?, if_neg other, found]⟩
  | folder n inside rest _ ih =>
      have other : n ≠ name := by
        rintro rfl
        exact proper.2.1 ((fileNames_sublist rest).subset mem)
      obtain ⟨content, found⟩ := ih proper.2.2.2 mem
      exact ⟨content, by rw [find?, if_neg other, found]⟩

theorem find?_eq_folder_iff (proper : d.IsProper) :
    d.find? name = some (.folder inside) ↔ (name, inside) ∈ d.folders := by
  refine ⟨mem_folders_of_find?, fun mem => ?_⟩
  induction d with
  | empty => cases mem
  | file n content rest ih =>
      have other : n ≠ name := by
        rintro rfl
        exact proper.2.1 (mem_entryNames_of_mem_folders mem)
      rw [find?, if_neg other, ih proper.2.2 mem]
  | folder n inside' rest _ ih =>
      rcases List.mem_cons.1 mem with same | later
      · obtain ⟨rfl, rfl⟩ := Prod.mk.inj same
        exact if_pos rfl
      · have other : n ≠ name := by
          rintro rfl
          exact proper.2.1 (mem_entryNames_of_mem_folders later)
        rw [find?, if_neg other, ih proper.2.2.2 later]

theorem of_mem_folders (proper : d.IsProper) (mem : (name, inside) ∈ d.folders) :
    inside.IsProper := by
  induction d with
  | empty => cases mem
  | file n content rest ih => exact ih proper.2.2 mem
  | folder n inside' rest _ ih =>
      rcases List.mem_cons.1 mem with same | later
      · obtain ⟨rfl, rfl⟩ := Prod.mk.inj same
        exact proper.2.2.1
      · exact ih proper.2.2.2 later

end IsProper

/-! ### Which files are listed -/

/-- There is a file at the end of the way that the names tell. -/
def HoldsFile (d : Directory) (names : List Text) : Prop :=
  ∃ content, d.at? names = some (.file content)

@[simp]
theorem not_holdsFile_empty (names : List Text) : ¬ empty.HoldsFile names := by
  rintro ⟨content, found⟩
  cases names <;> cases found

@[simp]
theorem not_holdsFile_nil (d : Directory) : ¬ d.HoldsFile [] := by
  rintro ⟨content, found⟩
  cases found

theorem holdsFile_singleton_iff :
    d.HoldsFile [name] ↔ ∃ content, d.find? name = some (.file content) := by
  refine exists_congr fun content => ?_
  rw [at?_cons]
  rcases d.find? name with _ | _ | _ <;> simp [Entry.at?]

theorem holdsFile_cons_cons_iff {next : Text} {rest : List Text} :
    d.HoldsFile (name :: next :: rest) ↔
      ∃ inside, d.find? name = some (.folder inside) ∧ inside.HoldsFile (next :: rest) := by
  constructor
  · rintro ⟨content, found⟩
    rw [at?_cons, Option.bind_eq_some_iff] at found
    obtain ⟨entry, found, below⟩ := found
    cases entry with
    | file => cases below
    | folder inside => exact ⟨inside, found, content, below⟩
  · rintro ⟨inside, found, content, below⟩
    exact ⟨content, by rw [at?_cons, found]; exact below⟩

theorem mem_entryNames_of_holdsFile {rest : List Text} (isFile : d.HoldsFile (name :: rest)) :
    name ∈ d.entryNames := by
  obtain ⟨content, found⟩ := isFile
  rw [at?_cons, Option.bind_eq_some_iff] at found
  obtain ⟨entry, found, _⟩ := found
  exact mem_entryNames_of_find? found

theorem holdsFile_file_iff {content : Bytes} (new : name ∉ d.entryNames) :
    (file name content d).HoldsFile names ↔ names = [name] ∨ d.HoldsFile names := by
  cases names with
  | nil => simp
  | cons first rest =>
      rw [HoldsFile, at?_cons, find?]
      by_cases same : name = first
      · subst same
        rw [if_pos rfl, or_iff_left (mt mem_entryNames_of_holdsFile new)]
        cases rest <;> simp [Entry.at?]
      · rw [if_neg same, HoldsFile, at?_cons]
        simp [Ne.symm same]

theorem holdsFile_folder_iff (new : name ∉ d.entryNames) :
    (folder name inside d).HoldsFile names ↔
      (∃ more, names = name :: more ∧ inside.HoldsFile more) ∨ d.HoldsFile names := by
  cases names with
  | nil => simp
  | cons first rest =>
      rw [HoldsFile, at?_cons, find?]
      by_cases same : name = first
      · subst same
        rw [if_pos rfl, or_iff_left (mt mem_entryNames_of_holdsFile new)]
        simp [Entry.at?, HoldsFile]
      · rw [if_neg same, HoldsFile, at?_cons]
        simp [Ne.symm same]

/-- Only what the names stand for matters, not how the entries are stored. -/
theorem holdsFile_congr {d' : Directory} (same : ∀ name, d'.find? name = d.find? name) :
    d'.HoldsFile names ↔ d.HoldsFile names := by
  cases names with
  | nil => exact iff_of_false (not_holdsFile_nil d') (not_holdsFile_nil d)
  | cons name rest => rw [HoldsFile, HoldsFile, at?_cons, at?_cons, same]

theorem find?_file_folder {other : Text} {content : Bytes} (ne : name ≠ other)
    (rest : Directory) (wanted : Text) :
    (file name content (.folder other inside rest)).find? wanted =
      (folder other inside (.file name content rest)).find? wanted := by
  rw [find?, find?, find?, find?]
  by_cases first : name = wanted
  · rw [if_pos first, if_neg fun second => ne (first.trans second.symm), if_pos first]
  · rw [if_neg first, if_neg first]

/-- The listings of the folders that are not skipped. -/
def listedFolders (skip : Text → Bool) (d : Directory) : List (Text × List (List Text)) :=
  (d.folders.filter (!skip ·.1)).map fun folder => (folder.1, folder.2.listing skip)

theorem contents_eq (skip : Text → Bool) (d : Directory) :
    contents skip d = (d.fileNames, d.listedFolders skip) := by
  induction d with
  | empty => rfl
  | file name _ rest ih => rw [contents, ih]; rfl
  | folder name inside rest _ ih =>
      rw [contents, ih]
      simp only [listedFolders, folders, List.filter_cons]
      cases skip name <;> rfl

theorem listing_eq (skip : Text → Bool) (d : Directory) :
    d.listing skip = assemble d.fileNames (d.listedFolders skip) := by
  rw [listing, contents_eq]

theorem mem_listedFolders_iff {folder : Text × List (List Text)} :
    folder ∈ d.listedFolders skip ↔
      ∃ inside, (folder.1, inside) ∈ d.folders ∧ skip folder.1 = false ∧
        folder.2 = inside.listing skip := by
  rw [listedFolders, List.mem_map]
  constructor
  · rintro ⟨⟨name, inside⟩, mem, rfl⟩
    obtain ⟨mem, kept⟩ := List.mem_filter.1 mem
    exact ⟨inside, mem, by simpa using kept, rfl⟩
  · rintro ⟨inside, mem, kept, eq⟩
    exact ⟨_, List.mem_filter.2 ⟨mem, by simpa using kept⟩, Prod.ext rfl eq.symm⟩

theorem mem_listing_iff_or : names ∈ d.listing skip ↔
    (∃ name ∈ d.fileNames, names = [name]) ∨ ∃ name inside more, (name, inside) ∈ d.folders ∧
      skip name = false ∧ more ∈ inside.listing skip ∧ names = name :: more := by
  rw [listing_eq, assemble, List.mem_append, List.mem_map, List.mem_flatMap]
  refine or_congr ?_ ?_
  · simp only [Text.mem_sorted_iff, eq_comm]
  · constructor
    · rintro ⟨folder, mem, below⟩
      obtain ⟨inside, mem, kept, eq⟩ := mem_listedFolders_iff.1 (List.mem_mergeSort.1 mem)
      obtain ⟨more, mem', rfl⟩ := List.mem_map.1 below
      exact ⟨folder.1, inside, more, mem, kept, eq ▸ mem', rfl⟩
    · rintro ⟨name, inside, more, mem, kept, mem', rfl⟩
      refine ⟨(name, inside.listing skip), List.mem_mergeSort.2 ?_, List.mem_map_of_mem mem'⟩
      exact mem_listedFolders_iff.2 ⟨inside, mem, kept, rfl⟩

theorem ne_nil_of_mem_listing (mem : names ∈ d.listing skip) : names ≠ [] := by
  rcases mem_listing_iff_or.1 mem with ⟨name, _, rfl⟩ | ⟨name, _, more, _, _, _, rfl⟩
  · exact List.cons_ne_nil _ _
  · exact List.cons_ne_nil _ _

/-- A file is listed if no folder on the way to it is skipped. -/
theorem mem_listing_of_holdsFile (isFile : d.HoldsFile names)
    (kept : ∀ folder ∈ names.dropLast, skip folder = false) : names ∈ d.listing skip := by
  induction names generalizing d with
  | nil => exact absurd isFile (not_holdsFile_nil d)
  | cons name rest ih =>
      rw [mem_listing_iff_or]
      cases rest with
      | nil =>
          obtain ⟨content, found⟩ := holdsFile_singleton_iff.1 isFile
          exact .inl ⟨name, mem_fileNames_of_find? found, rfl⟩
      | cons next rest =>
          obtain ⟨inside, found, below⟩ := holdsFile_cons_cons_iff.1 isFile
          rw [List.dropLast_cons_cons, List.forall_mem_cons] at kept
          exact .inr ⟨name, inside, _, mem_folders_of_find? found, kept.1, ih below kept.2, rfl⟩

/-- Nothing else is listed. -/
theorem IsProper.mem_listing_iff (proper : d.IsProper) : names ∈ d.listing skip ↔
    d.HoldsFile names ∧ ∀ folder ∈ names.dropLast, skip folder = false := by
  refine ⟨fun mem => ?_, fun ⟨isFile, kept⟩ => mem_listing_of_holdsFile isFile kept⟩
  induction names generalizing d with
  | nil => exact absurd rfl (ne_nil_of_mem_listing mem)
  | cons name rest ih =>
      rcases mem_listing_iff_or.1 mem with
        ⟨_, isName, eq⟩ | ⟨_, inside, more, isFolder, kept, mem', eq⟩
      · obtain ⟨rfl, rfl⟩ := List.cons.inj eq
        exact ⟨holdsFile_singleton_iff.2 (proper.find?_eq_file_iff.2 isName), by simp⟩
      · obtain ⟨rfl, rfl⟩ := List.cons.inj eq
        obtain ⟨next, rest, rfl⟩ := List.exists_cons_of_ne_nil (ne_nil_of_mem_listing mem')
        obtain ⟨below, kept'⟩ := ih (proper.of_mem_folders isFolder) mem'
        rw [List.dropLast_cons_cons, List.forall_mem_cons]
        exact ⟨holdsFile_cons_cons_iff.2 ⟨inside, proper.find?_eq_folder_iff.2 isFolder, below⟩,
          kept, kept'⟩

theorem IsProper.isEntryName_of_holdsFile (proper : d.IsProper) (isFile : d.HoldsFile names) :
    ∀ name ∈ names, IsEntryName name := by
  induction names generalizing d with
  | nil => simp
  | cons name rest ih =>
      rw [List.forall_mem_cons]
      refine ⟨proper.isEntryName (mem_entryNames_of_holdsFile isFile), ?_⟩
      cases rest with
      | nil => simp
      | cons next rest =>
          obtain ⟨inside, found, below⟩ := holdsFile_cons_cons_iff.1 isFile
          exact ih (proper.of_mem_folders (mem_folders_of_find? found)) below

/-! ### The order -/

/-- The one file is listed before the other, each told by its names. -/
inductive ListedBefore : List Text → List Text → Prop where
  | files {a b : Text} (lt : a < b) : ListedBefore [a] [b]
  /-- A file of a folder is listed before those of the folders in it. -/
  | fileFirst (a b next : Text) (rest : List Text) : ListedBefore [a] (b :: next :: rest)
  | folders {a b : Text} (lt : a < b) (next next' : Text) (rest rest' : List Text) :
      ListedBefore (a :: next :: rest) (b :: next' :: rest')
  | inside {names names' : List Text} (folder : Text) (before : ListedBefore names names') :
      ListedBefore (folder :: names) (folder :: names')

theorem ListedBefore.ne_nil {a b : List Text} (before : ListedBefore a b) : a ≠ [] ∧ b ≠ [] := by
  cases before <;> simp

theorem ListedBefore.asymm {a b : List Text} (before : ListedBefore a b) : ¬ ListedBefore b a := by
  induction before with
  | files lt =>
      intro after
      cases after with
      | files lt' => exact lt_asymm lt lt'
      | inside _ after => exact after.ne_nil.1 rfl
  | fileFirst a b next rest =>
      intro after
      cases after with
      | inside _ after => exact after.ne_nil.2 rfl
  | folders lt next next' rest rest' =>
      intro after
      cases after with
      | folders lt' => exact lt_asymm lt lt'
      | inside _ after => exact lt_irrefl _ lt
  | inside folder before ih =>
      intro after
      cases after with
      | files => exact before.ne_nil.1 rfl
      | fileFirst => exact before.ne_nil.2 rfl
      | folders lt => exact lt_irrefl _ lt
      | inside _ after => exact ih after

theorem pairwise_assemble {files : List Text} {folders : List (Text × List (List Text))}
    (distinct : files.Nodup) (distinct' : (folders.map (·.1)).Nodup)
    (each : ∀ folder ∈ folders, folder.2.Pairwise ListedBefore ∧ ∀ names ∈ folder.2, names ≠ []) :
    (assemble files folders).Pairwise ListedBefore := by
  have each' : ∀ folder ∈ sortFolders folders,
      folder.2.Pairwise ListedBefore ∧ ∀ names ∈ folder.2, names ≠ [] :=
    fun folder mem => each folder (List.mem_mergeSort.1 mem)
  rw [assemble, List.pairwise_append, List.pairwise_flatMap]
  refine ⟨?_, ⟨fun folder mem => ?_, ?_⟩, ?_⟩
  · exact List.pairwise_map.2 ((Text.pairwise_lt_sorted distinct).imp .files)
  · exact List.pairwise_map.2 ((each' folder mem).1.imp (.inside folder.1))
  · refine (Text.pairwise_lt_mergeSort Prod.fst distinct').imp_of_mem ?_
    rintro folder folder' mem mem' lt _ below _ below'
    obtain ⟨names, mem'', rfl⟩ := List.mem_map.1 below
    obtain ⟨names', mem''', rfl⟩ := List.mem_map.1 below'
    obtain ⟨next, rest, rfl⟩ := List.exists_cons_of_ne_nil ((each' folder mem).2 names mem'')
    obtain ⟨next', rest', rfl⟩ := List.exists_cons_of_ne_nil ((each' folder' mem').2 names' mem''')
    exact .folders lt next next' rest rest'
  · rintro _ isFile _ below
    obtain ⟨name, _, rfl⟩ := List.mem_map.1 isFile
    obtain ⟨folder, mem, below⟩ := List.mem_flatMap.1 below
    obtain ⟨names, mem', rfl⟩ := List.mem_map.1 below
    obtain ⟨next, rest, rfl⟩ := List.exists_cons_of_ne_nil ((each' folder mem).2 names mem')
    exact .fileFirst name folder.1 next rest

/-- What holds of a directory if it holds inside all of its folders holds of every directory. -/
theorem induction_on_folders {motive : Directory → Prop}
    (step : ∀ d, (∀ folder ∈ d.folders, motive folder.2) → motive d) (d : Directory) :
    motive d := by
  suffices ∀ folder ∈ d.folders, motive folder.2 from step d this
  induction d with
  | empty => exact fun folder mem => absurd mem List.not_mem_nil
  | file name content rest ih => exact ih
  | folder name inside rest ih ih' =>
      intro folder mem
      rcases List.mem_cons.1 mem with rfl | later
      · exact step inside ih
      · exact ih' folder later

theorem IsProper.pairwise_listing (proper : d.IsProper) :
    (d.listing skip).Pairwise ListedBefore := by
  induction d using induction_on_folders with
  | step d ih =>
      have distinct := proper.nodup_entryNames
      rw [listing_eq]
      refine pairwise_assemble ((fileNames_sublist d).nodup distinct) ?_ ?_
      · rw [listedFolders, List.map_map]
        exact ((List.filter_sublist.map _).trans (map_folders_sublist d)).nodup distinct
      · intro folder mem
        obtain ⟨inside, mem, _, eq⟩ := mem_listedFolders_iff.1 mem
        rw [eq]
        exact ⟨ih _ mem (proper.of_mem_folders mem), fun names => ne_nil_of_mem_listing⟩

end Directory

end FileCoverage
