import FileCoverage.PresenceCheck
import FileCoverage.Proofs.ListingOrder
import Mathlib.Data.List.Nodup

/-!
# Which files are searched

A file is searched if its name ends with the extension, none of the folders on the way to it is
skipped, and its path is not exempt.  Each such file is searched once, in the order of the listing,
and how the entries are stored does not matter.
-/

namespace FileCoverage.PresenceCheck

open FileCoverage.Directory

variable {d d' : Directory} {names names' folders : List Text} {reports extension name : Text}
  {exempted : List Text} {file : Text} {ws : Workspace} {root : Path} {registry : Registry}

/-- A folder that is searched, with all the folders above it. -/
def IsSearchedFolder (reports name : Text) : Prop :=
  ¬ ['.'] <+: name ∧ ¬ buildFolderMark <+: name ∧ name ≠ reports

instance (reports name : Text) : Decidable (IsSearchedFolder reports name) :=
  inferInstanceAs (Decidable (_ ∧ _ ∧ _))

theorem skipsFolder_eq_false_iff : skipsFolder reports name = false ↔
    IsSearchedFolder reports name := by
  rw [skipsFolder, IsSearchedFolder, Bool.or_eq_false_iff, Bool.or_eq_false_iff,
    ← List.isPrefixOf_iff_prefix, ← List.isPrefixOf_iff_prefix, and_assoc]
  simp only [Bool.not_eq_true, beq_eq_false_iff_ne]

/-- The names of a file that is searched, from the root on. -/
structure IsSearched (reports extension : Text) (exempted names : List Text) : Prop where
  extension : extension <:+ names.getLastD []
  folders : ∀ folder ∈ names.dropLast, IsSearchedFolder reports folder
  listed : Text.join "/" names ∉ exempted

/-- The files that are searched, each by its names, in order. -/
def searchedNames (reports extension : Text) (exempted : List Text) (d : Directory) :
    List (List Text) :=
  (d.listing (skipsFolder reports)).filter fun names =>
    extension.isSuffixOf (names.getLastD []) && !exempted.contains (Text.join "/" names)

theorem searchedFiles_eq (reports extension : Text) (exempted : List Text) (d : Directory) :
    searchedFiles reports extension exempted d =
      (searchedNames reports extension exempted d).map (Text.join "/") := by
  rw [searchedFiles, searchedNames, List.filter_map, List.filter_filter]
  simp only [Function.comp_def, Bool.and_comm]

theorem mem_searchedNames_of_isSearched (isFile : d.HoldsFile names)
    (searched : IsSearched reports extension exempted names) :
    names ∈ searchedNames reports extension exempted d := by
  refine List.mem_filter.2 ⟨mem_listing_of_holdsFile isFile fun folder mem => ?_, ?_⟩
  · exact skipsFolder_eq_false_iff.2 (searched.folders folder mem)
  · simpa using And.intro searched.extension searched.listed

theorem mem_search_of_isSearched (isFile : (directoryAt ws root).HoldsFile names)
    (searched : IsSearched reports extension registry.paths names) :
    Text.join "/" names ∈ search ws root reports extension registry := by
  rw [search, searchedFiles_eq]
  exact List.mem_map_of_mem (mem_searchedNames_of_isSearched isFile searched)

theorem mem_searchedNames_iff (proper : d.IsProper) :
    names ∈ searchedNames reports extension exempted d ↔
      d.HoldsFile names ∧ IsSearched reports extension exempted names := by
  refine ⟨fun mem => ?_, fun ⟨isFile, searched⟩ => mem_searchedNames_of_isSearched isFile searched⟩
  obtain ⟨mem, counts⟩ := List.mem_filter.1 mem
  obtain ⟨isFile, kept⟩ := proper.mem_listing_iff.1 mem
  obtain ⟨ends, listed⟩ : extension <:+ names.getLastD [] ∧ Text.join "/" names ∉ exempted := by
    simpa using counts
  exact ⟨isFile, ends, fun folder mem => skipsFolder_eq_false_iff.1 (kept folder mem), listed⟩

theorem pairwise_searchedNames (proper : d.IsProper) :
    (searchedNames reports extension exempted d).Pairwise ListedBefore :=
  proper.pairwise_listing.filter _

theorem nodup_searchedNames (proper : d.IsProper) :
    (searchedNames reports extension exempted d).Nodup :=
  nodup_of_strict (fun _ _ => ListedBefore.asymm) (pairwise_searchedNames proper)

/-- Different files of a directory have different paths. -/
theorem join_injective_of_holdsFile (proper : d.IsProper) (isFile : d.HoldsFile names)
    (isFile' : d.HoldsFile names') (same : Text.join "/" names = Text.join "/" names') :
    names = names' := by
  have cut {names : List Text} (isFile : d.HoldsFile names) :
      Text.splitOn '/' (Text.join "/" names) = names := by
    refine Text.splitOn_join ?_ fun name mem =>
      (proper.isEntryName_of_holdsFile isFile name mem).slash
    rintro rfl
    exact not_holdsFile_nil d isFile
  rw [← cut isFile, same, cut isFile']

theorem mem_searchedFiles_iff (proper : d.IsProper) :
    file ∈ searchedFiles reports extension exempted d ↔
      ∃ names, d.HoldsFile names ∧ IsSearched reports extension exempted names ∧
        Text.join "/" names = file := by
  rw [searchedFiles_eq, List.mem_map]
  simp only [mem_searchedNames_iff proper, and_assoc]

theorem nodup_searchedFiles (proper : d.IsProper) :
    (searchedFiles reports extension exempted d).Nodup := by
  rw [searchedFiles_eq]
  refine List.Nodup.map_on (fun names mem names' mem' same => ?_) (nodup_searchedNames proper)
  exact join_injective_of_holdsFile proper ((mem_searchedNames_iff proper).1 mem).1
    ((mem_searchedNames_iff proper).1 mem').1 same

/-- Of a directory only matters which files it holds that are searched. -/
theorem searchedNames_congr_of_isSearched (proper : d.IsProper) (proper' : d'.IsProper)
    (same : ∀ names, IsSearched reports extension exempted names →
      (d'.HoldsFile names ↔ d.HoldsFile names)) :
    searchedNames reports extension exempted d' = searchedNames reports extension exempted d := by
  refine eq_of_strict (fun _ _ => ListedBefore.asymm) (pairwise_searchedNames proper')
    (pairwise_searchedNames proper) fun names => ?_
  rw [mem_searchedNames_iff proper', mem_searchedNames_iff proper]
  exact and_congr_left (same names)

theorem searchedNames_congr (proper : d.IsProper) (proper' : d'.IsProper)
    (same : ∀ names, d'.HoldsFile names ↔ d.HoldsFile names) :
    searchedNames reports extension exempted d' = searchedNames reports extension exempted d :=
  searchedNames_congr_of_isSearched proper proper' fun names _ => same names

/--
A file is searched exactly if its name ends with the extension, all folders on the way to it are
searched and its path is not exempt.  The files are searched in the order in which a listing has
them, and each is searched once: none comes twice, and different files have different paths.  A
directory that holds the same files gives the same list, however its entries are stored.
-/
theorem searchedFiles_each_once (proper : d.IsProper) (reports extension : Text)
    (exempted : List Text) :
    (∀ names, d.HoldsFile names →
      (Text.join "/" names ∈ searchedFiles reports extension exempted d ↔
        extension <:+ names.getLastD [] ∧
        (∀ folder ∈ names.dropLast,
          ¬ ['.'] <+: folder ∧ ¬ ("bazel-" : Text) <+: folder ∧ folder ≠ reports) ∧
        Text.join "/" names ∉ exempted)) ∧
    (∃ order : List (List Text), order.Pairwise ListedBefore ∧
      (∀ names ∈ order, d.HoldsFile names) ∧
      searchedFiles reports extension exempted d = order.map (Text.join "/")) ∧
    (searchedFiles reports extension exempted d).Nodup ∧
    (∀ names names', d.HoldsFile names → d.HoldsFile names' →
      Text.join "/" names = Text.join "/" names' → names = names') ∧
    ∀ d' : Directory, d'.IsProper → (∀ names, d'.HoldsFile names ↔ d.HoldsFile names) →
      searchedFiles reports extension exempted d' = searchedFiles reports extension exempted d := by
  refine ⟨fun names isFile => ?_, ?_, nodup_searchedFiles proper, ?_, ?_⟩
  · rw [mem_searchedFiles_iff proper]
    constructor
    · rintro ⟨names', isFile', searched, same⟩
      obtain rfl := join_injective_of_holdsFile proper isFile' isFile same
      exact ⟨searched.extension, searched.folders, searched.listed⟩
    · rintro ⟨ends, folders, listed⟩
      exact ⟨names, isFile, ⟨ends, folders, listed⟩, rfl⟩
  · exact ⟨searchedNames reports extension exempted d, pairwise_searchedNames proper,
      fun names mem => ((mem_searchedNames_iff proper).1 mem).1, searchedFiles_eq _ _ _ _⟩
  · exact fun names names' => join_injective_of_holdsFile proper
  · intro d' proper' same
    rw [searchedFiles_eq, searchedFiles_eq, searchedNames_congr proper proper' same]

/-- A file of the root and a folder, with a file and a hidden folder in it. -/
def folderFirst : Directory :=
  .folder "b" (.file "Z.kt" [] (.folder ".git" (.file "A.kt" [] .empty) .empty))
    (.file "bazel-A.kt" [] .empty)

/-- The same entries, stored the other way round. -/
def fileFirst : Directory :=
  .file "bazel-A.kt" []
    (.folder "b" (.file "Z.kt" [] (.folder ".git" (.file "A.kt" [] .empty) .empty)) .empty)

/-- Skipped is what is in a hidden folder, but no file for its own name. -/
theorem searchedFiles_of_folderFirst :
    Text.join "/" ["b", "Z.kt"] ∈ searchedFiles "reports" ".kt" [] folderFirst ∧
    Text.join "/" ["bazel-A.kt"] ∈ searchedFiles "reports" ".kt" [] folderFirst ∧
    Text.join "/" ["b", ".git", "A.kt"] ∉ searchedFiles "reports" ".kt" [] folderFirst ∧
    Text.join "/" ["b", "Z.kt"] ∉ searchedFiles "reports" ".kt" ["b/Z.kt"] folderFirst ∧
    Text.join "/" ["b", "Z.kt"] ∉ searchedFiles "b" ".kt" [] folderFirst ∧
    searchedFiles "reports" ".kt" [] fileFirst = searchedFiles "reports" ".kt" [] folderFirst := by
  have proper : folderFirst.IsProper := by decide
  have inFolder : folderFirst.HoldsFile ["b", "Z.kt"] := ⟨[], by decide⟩
  have inRoot : folderFirst.HoldsFile ["bazel-A.kt"] := ⟨[], by decide⟩
  have hidden : folderFirst.HoldsFile ["b", ".git", "A.kt"] := ⟨[], by decide⟩
  obtain ⟨mem_iff, _, _, _, congr⟩ := searchedFiles_each_once proper "reports" ".kt" []
  obtain ⟨exempted_iff, _⟩ := searchedFiles_each_once proper "reports" ".kt" ["b/Z.kt"]
  obtain ⟨reports_iff, _⟩ := searchedFiles_each_once proper "b" ".kt" []
  refine ⟨(mem_iff _ inFolder).2 (by decide), (mem_iff _ inRoot).2 (by decide),
    mt (mem_iff _ hidden).1 (by decide), mt (exempted_iff _ inFolder).1 (by decide),
    mt (reports_iff _ inFolder).1 (by decide), ?_⟩
  have apart : ("bazel-A.kt" : Text) ≠ "b" := by decide
  exact congr fileFirst (by decide) fun names => holdsFile_congr (find?_file_folder apart .empty)

end FileCoverage.PresenceCheck
