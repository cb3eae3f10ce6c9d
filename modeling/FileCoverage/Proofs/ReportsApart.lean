import FileCoverage.Proofs.ProperWriting
import FileCoverage.Proofs.ReportPath
import FileCoverage.Proofs.SearchedFiles
import FileCoverage.Proofs.StablePath

/-!
# Reports and the search for tests

The setting for reports is read in two ways.  A report is written below the folder that it leads to
as a path, while the search for tests passes over the folders that have it for a name.  No folder
has a name with a slash in it, so a setting of several names, or of one with a slash after it, keeps
no report out of the search.  And a source path with `..` in it may lead out of the folder of
reports.

So a report is not searched exactly if a folder on the way to it is passed over for its name, and
then an analysis changes nothing for the search.  If the setting is one name and no `..` is in the
source path, there is such a folder.
-/

namespace FileCoverage

/-! ### What a path that is followed says -/

namespace Workspace

open Directory

variable {top : Directory} {place next names : List Text}

/-- The names of entries, and `..`, are all that can be followed. -/
theorem isEntryName_of_follow (proper : top.IsProper)
    (followed : follow top place names = .ok next) : ∀ name ∈ names, IsEntryName name := by
  induction names generalizing place with
  | nil => exact fun name mem => absurd mem List.not_mem_nil
  | cons name names ih =>
      obtain ⟨middle, stepped, later⟩ := follow_cons_iff.1 followed
      refine List.forall_mem_cons.2 ⟨?_, ih later⟩
      obtain ⟨isFolder, there⟩ := (step_eq_ok_iff top place middle name).1 stepped
      split at there
      · next up => rw [up]; decide
      · obtain ⟨inside, folder⟩ := (kindAt?_eq_folder_iff top place).1 isFolder
        obtain ⟨isThere, -⟩ := there
        rw [kindAt?, at?_append folder, at?_cons, Option.isSome_map] at isThere
        obtain ⟨entry, found, -⟩ := Option.bind_eq_some_iff.1 (Option.eq_some_of_isSome isThere)
        exact (proper.of_at? folder).isEntryName (mem_entryNames_of_find? found)

/-- There is something where a path leads that is followed further. -/
theorem isSome_at?_of_follow (followed : follow top place names = .ok next)
    (there : (top.at? next).isSome = true) : (top.at? place).isSome = true := by
  cases names with
  | nil =>
      obtain rfl := Except.ok.inj followed
      exact there
  | cons name names =>
      obtain ⟨middle, stepped, -⟩ := follow_cons_iff.1 followed
      obtain ⟨inside, folder⟩ := (kindAt?_eq_folder_iff top place).1
        ((step_eq_ok_iff top place middle name).1 stepped).1
      rw [folder]
      rfl

/-- Whatever is at the end of a path that has been followed can still be found there. -/
theorem ChangesAt.entry_eq_ok {ws after : Workspace} {p : Path} {there now : Entry}
    (changes : ws.ChangesAt place after) (isThere : ws.entry p = .ok there)
    (found : after.top.at? (ws.placeOf p) = some now) : after.entry p = .ok now := by
  obtain ⟨nul, followed, -⟩ := entry_eq_ok_iff.1 isThere
  rw [entry_eq_ok_iff, placeOf_congr changes.workingDirectory]
  exact ⟨nul, changes.follow followed, found⟩

theorem ChangesAt.exists_entry {ws after : Workspace} {p : Path} {there : Entry}
    (changes : ws.ChangesAt place after) (isThere : ws.entry p = .ok there) :
    ∃ now, after.entry p = .ok now := by
  obtain ⟨-, -, here⟩ := entry_eq_ok_iff.1 isThere
  have stays := changes.keeps.isSome (ws.placeOf p) (by rw [kindAt?, here]; rfl)
  rw [kindAt?, Option.isSome_map] at stays
  obtain ⟨now, found⟩ := Option.isSome_iff_exists.1 stays
  exact ⟨now, changes.entry_eq_ok isThere found⟩

end Workspace

theorem Path.isEntryName_ofText (t : Text) :
    ∀ name ∈ (ofText t).names, Directory.IsEntryName name := by
  intro name mem
  obtain ⟨piece, isName⟩ := List.mem_filter.1 mem
  exact ⟨isName, Text.notMem_of_mem_splitOn piece⟩

theorem Path.names_child_subset (p : Path) (t : Text) :
    (p.child t).names ⊆ p.names ++ (ofText t).names := by
  intro name mem
  rw [child, join] at mem
  split at mem
  · exact List.mem_append_right _ mem
  · exact mem

/-! ### A repository whose source file is found -/

namespace Repository

variable {repo : Repository} {ws : Workspace} {path : Text}

/-- A root below which a file is found has names of entries, and something is there. -/
theorem root_of_hasFile (proper : ws.top.IsProper) (start : path.head? ≠ some '/')
    (found : repo.hasFile ws path = true) :
    (∀ name ∈ repo.root.names, Directory.IsEntryName name) ∧
      ∃ there, ws.entry repo.root = .ok there := by
  rw [hasFile, repo.root.child_of_relative (Path.anchor_ofText start)] at found
  obtain ⟨content, isFile⟩ := Workspace.isFile_eq_true_iff.1 found
  obtain ⟨nul, followed, here⟩ := Workspace.entry_eq_ok_iff.1 isFile
  obtain ⟨middle, first, later⟩ := Workspace.follow_append_iff.1 followed
  obtain rfl : middle = ws.placeOf repo.root := Workspace.eq_walk_of_follow first
  have isThere := Workspace.isSome_at?_of_follow later (by rw [here]; rfl)
  obtain ⟨there, eq⟩ := Option.isSome_iff_exists.1 isThere
  rw [Workspace.hasNul, List.any_append, Bool.or_eq_false_iff] at nul
  exact ⟨Workspace.isEntryName_of_follow proper first, there,
    Workspace.entry_eq_ok_iff.2 ⟨nul.1, first, eq⟩⟩

end Repository

namespace Analysis

variable {request : AnalysisRequest} {repo : Repository} {ws : Workspace} {runner : Runner}
  {platform : Platform} {done : Analysis}

theorem Exits.isProper (exits : Exits request repo ws runner platform done)
    (proper : ws.top.IsProper)
    (named : repo.hasFile ws (RepositoryPath.normalize request.source) = true →
      ∀ name ∈ request.output.names, Directory.IsEntryName name) :
    done.workspace.top.IsProper := by
  rcases exits.workspace_cases with same | ⟨found, coverage, wrote⟩
  · rw [same]
    exact proper
  · rw [wrote]
    exact Workspace.isProper_writeText proper (named found) platform.storage _

/-- A report that has been written is at the place of its path. -/
theorem Exits.of_reported (exits : Exits request repo ws runner platform done) {coverage : Coverage}
    {output : Path} {failures : List RunFailure}
    (ended : done.outcome = .ok (.reported coverage output failures)) :
    repo.hasFile ws (RepositoryPath.normalize request.source) = true ∧
      ∃ content, done.workspace.top.at? (done.workspace.placeOf request.output) =
        some (.file content) := by
  constructor
  · cases exits with
    | concluded reached finished => exact reached.found
    | _ => simp [Analysis.idle] at ended
  · cases exits.effect with
    | idle files launches other => exact absurd ended (other coverage output failures)
    | stopped stopped other files => cases stopped.symm.trans ended
    | torn stopped late files => cases stopped.symm.trans ended
    | reported reported files =>
        obtain rfl := Workspace.eq_walk_of_follow files.follow
        exact ⟨_, files.file⟩

end Analysis

/-! ### What the search finds -/

namespace PresenceCheck

open Directory

variable {ws after : Workspace} {root : Path} {reports extension : Text} {registry : Registry}
  {place way : List Text} {d : Directory} {content : Bytes}

theorem directoryAt_eq (folder : ws.entry root = .ok (.folder d)) : directoryAt ws root = d := by
  rw [directoryAt, folder]

theorem directoryAt_eq_empty (file : ws.entry root = .ok (.file content)) :
    directoryAt ws root = .empty := by
  rw [directoryAt, file]

/-- A change at one place changes nothing for the search, if a folder on the way there is passed
over. -/
theorem search_of_changesAt (proper : ws.top.IsProper) (proper' : after.top.IsProper)
    (changes : ws.ChangesAt place after) {there : Entry} (isThere : ws.entry root = .ok there)
    (apart : ∀ way, place = ws.placeOf root ++ way →
      ∃ folder ∈ way.dropLast, ¬ IsSearchedFolder reports folder) :
    search after root reports extension registry = search ws root reports extension registry := by
  obtain ⟨-, -, here⟩ := Workspace.entry_eq_ok_iff.1 isThere
  cases there with
  | file content =>
      have ne : ws.placeOf root ≠ place := by
        rintro rfl
        obtain ⟨folder, mem, -⟩ := apart [] (List.append_nil _).symm
        cases mem
      have same := changes.entry_eq_ok isThere ((changes.files _ content ne).1 here)
      rw [search, search, directoryAt_eq_empty same, directoryAt_eq_empty isThere]
  | folder d =>
      obtain ⟨d', here'⟩ := (kindAt?_eq_folder_iff _ _).1
        (changes.keeps.folder _ ((kindAt?_eq_folder_iff _ _).2 ⟨d, here⟩))
      rw [search, search, directoryAt_eq (changes.entry_eq_ok isThere here'),
        directoryAt_eq isThere, searchedFiles_eq, searchedFiles_eq]
      congr 1
      refine searchedNames_congr_of_isSearched (proper.of_at? here) (proper'.of_at? here') ?_
      intro names searched
      -- What is searched is not behind a folder that is passed over, so it is at another place.
      have ne : ws.placeOf root ++ names ≠ place := by
        rintro rfl
        obtain ⟨folder, mem, skipped⟩ := apart names rfl
        exact skipped (searched.folders folder mem)
      refine exists_congr fun content => ?_
      rw [← at?_append here, ← at?_append here', changes.files _ content ne]

/-- A file below the root is among those that are searched by what its way from there tells. -/
theorem mem_search_iff_of_file (proper : ws.top.IsProper) {there : Entry}
    (isThere : ws.entry root = .ok there) (ne : way ≠ [])
    (file : ws.top.at? (ws.placeOf root ++ way) = some (.file content)) :
    Text.join "/" way ∈ search ws root reports extension registry ↔
      IsSearched reports extension registry.paths way := by
  obtain ⟨d, here⟩ := exists_folder_of_at?_append ne file
  obtain ⟨nul, followed, -⟩ := Workspace.entry_eq_ok_iff.1 isThere
  have isFile : d.HoldsFile way := ⟨content, by rw [← at?_append here, file]⟩
  have proper := proper.of_at? here
  rw [search, directoryAt_eq (Workspace.entry_eq_ok_iff.2 ⟨nul, followed, here⟩),
    mem_searchedFiles_iff proper]
  constructor
  · rintro ⟨names, isFile', searched, same⟩
    obtain rfl := join_injective_of_holdsFile proper isFile' isFile same
    exact searched
  · exact fun searched => ⟨way, isFile, searched, rfl⟩

end PresenceCheck

/-! ### Where reports are -/

namespace Report

open PresenceCheck RepositoryPath

/-- Every way from the root to a report goes through a folder that is passed over. -/
def IsApart (ws : Workspace) (root : Path) (reports : Text) (output : Path) : Prop :=
  ∀ way, ws.placeOf output = ws.placeOf root ++ way →
    ∃ folder ∈ way.dropLast, ¬ IsSearchedFolder reports folder

variable {ws : Workspace} {root : Path} {reports source : Text} {format : ReportFormat}

theorem isEntryName_folder (source : Text) :
    ∀ name ∈ (folder source).names, Directory.IsEntryName name := by
  intro name mem
  rw [folder_eq_filter] at mem
  obtain ⟨piece, isName⟩ := List.mem_filter.1 mem
  exact ⟨isName, slash_notMem_of_mem_pieces piece⟩

theorem isEntryName_path (named : ∀ name ∈ root.names, Directory.IsEntryName name)
    (reports source : Text) (format : ReportFormat) :
    ∀ name ∈ (path root reports source format).names, Directory.IsEntryName name := by
  intro name mem
  rw [path_eq_append, List.mem_append, List.mem_append, List.mem_singleton] at mem
  rcases mem with (outer | inner) | rfl
  · rcases List.mem_append.1 (root.names_child_subset reports outer) with above | below
    · exact named name above
    · exact Path.isEntryName_ofText reports name below
  · exact isEntryName_folder source name inner
  · cases format <;> decide

/-- A report has its name at the end of every way to it. -/
theorem getLastD_way {way : List Text} (ne : way ≠ [])
    (there : ws.placeOf (path root reports source format) = ws.placeOf root ++ way) :
    way.getLastD [] = fileName format := by
  have down : fileName format ≠ ".." := by cases format <;> decide
  rw [Workspace.placeOf, path_eq_append, Workspace.walk_append, Workspace.walk, if_neg down,
    Workspace.walk] at there
  have last := congrArg List.getLast? there
  rw [List.getLast?_concat, List.getLast?_append_of_ne_nil _ ne] at last
  rw [List.getLastD_eq_getLast?, ← last]
  rfl

theorem placeOf_path_of_relative (relative : (Path.ofText reports).anchor = .relative)
    (down : (".." : Text) ∉ (Path.ofText reports).names ++ (folder source).names)
    (ws : Workspace) (root : Path) (format : ReportFormat) :
    ws.placeOf (path root reports source format) = ws.placeOf root ++
      ((Path.ofText reports).names ++ (folder source).names ++ [fileName format]) := by
  have down' : (".." : Text) ∉ (Path.ofText reports).names ++ (folder source).names ++
      [fileName format] := by
    rw [List.mem_append, List.mem_singleton, not_or]
    exact ⟨down, by cases format <;> decide⟩
  have names : root.names ++ (Path.ofText reports).names ++ (folder source).names ++
      [fileName format] = root.names ++ ((Path.ofText reports).names ++ (folder source).names ++
        [fileName format]) := by
    simp only [List.append_assoc]
  rw [path_eq_append, root.child_of_relative relative, Workspace.placeOf, names,
    Workspace.walk_append, Workspace.walk_of_notMem down']
  rfl

/-- A setting that is among names is one name. -/
theorem isName_of_mem {names : List Text} (named : ∀ name ∈ names, Directory.IsEntryName name)
    (mem : reports ∈ names) : Path.isName reports = true ∧ '/' ∉ reports :=
  ⟨(named reports mem).isName, (named reports mem).slash⟩

theorem isApart_iff (relative : (Path.ofText reports).anchor = .relative)
    (down : (".." : Text) ∉ (Path.ofText reports).names ++ (folder source).names)
    (ws : Workspace) (root : Path) (format : ReportFormat) :
    IsApart ws root reports (path root reports source format) ↔
      (Path.isName reports = true ∧ '/' ∉ reports) ∨
        ∃ name ∈ (Path.ofText reports).names ++ (folder source).names,
          ['.'] <+: name ∨ buildFolderMark <+: name := by
  have way := placeOf_path_of_relative relative down ws root format
  have named : ∀ name ∈ (Path.ofText reports).names ++ (folder source).names,
      Directory.IsEntryName name := fun name mem =>
    (List.mem_append.1 mem).elim (Path.isEntryName_ofText reports name)
      (isEntryName_folder source name)
  constructor
  · intro apart
    obtain ⟨name, mem, skipped⟩ := apart _ way
    rw [List.dropLast_concat] at mem
    by_cases same : name = reports
    · exact .inl (isName_of_mem named (same ▸ mem))
    · refine .inr ⟨name, mem, ?_⟩
      by_contra searched
      obtain ⟨shown, plain⟩ := not_or.1 searched
      exact skipped ⟨shown, plain, same⟩
  · intro passed way' there
    obtain rfl := List.append_cancel_left (way.symm.trans there)
    rw [List.dropLast_concat]
    rcases passed with ⟨isName, slash⟩ | ⟨name, mem, hidden | build⟩
    · have names : (Path.ofText reports).names = [reports] := by
        rw [Path.ofText_of_notMem slash, List.filter_cons_of_pos isName, List.filter_nil]
      refine ⟨reports, ?_, fun searched => searched.2.2 rfl⟩
      rw [names]
      exact List.mem_cons_self
    · exact ⟨name, mem, fun searched => searched.1 hidden⟩
    · exact ⟨name, mem, fun searched => searched.2.1 build⟩

/--
If every way from the root to a report goes through a folder that is passed over, then the analysis
that writes the report changes nothing for the search, nor for the files that have no test.  A
report that has been written below the root is found by its way from there exactly if none of the
folders is passed over, its name ends with the extension and it is not exempt.

If no `..` is in the setting or in the folder of the report, the way is that of the setting and then
of the source file.  It goes through a folder that is passed over exactly if the setting is one name
or a name on the way is that of a hidden folder or one of a build.
-/
theorem search_after_report (proper : ws.top.IsProper) (repo : Repository) (runner : Runner)
    (platform : Platform) (reports source : Text) (format : ReportFormat) (timeout : Duration) :
    let output := path repo.root reports source format
    let done := (Analysis.run ⟨source, format, output, timeout⟩ repo ws runner platform).2
    (IsApart ws repo.root reports output → ∀ extension registry,
      search done.workspace repo.root reports extension registry =
        search ws repo.root reports extension registry ∧
      missingTests done.workspace repo.root reports extension registry =
        missingTests ws repo.root reports extension registry) ∧
    (∀ coverage written failures, done.outcome = .ok (.reported coverage written failures) →
      ∀ way, way ≠ [] → ws.placeOf output = ws.placeOf repo.root ++ way → ∀ extension registry,
        (Text.join "/" way ∈ search done.workspace repo.root reports extension registry ↔
          extension <:+ fileName format ∧
          (∀ name ∈ way.dropLast, IsSearchedFolder reports name) ∧
          Text.join "/" way ∉ registry.paths)) ∧
    ((Path.ofText reports).anchor = .relative →
      (".." : Text) ∉ (Path.ofText reports).names ++ (folder source).names →
        ws.placeOf output = ws.placeOf repo.root ++
          ((Path.ofText reports).names ++ (folder source).names ++ [fileName format]) ∧
        (IsApart ws repo.root reports output ↔
          (Path.isName reports = true ∧ '/' ∉ reports) ∨
            ∃ name ∈ (Path.ofText reports).names ++ (folder source).names,
              ['.'] <+: name ∨ buildFolderMark <+: name)) := by
  intro output done
  have exits := Analysis.run_exits ⟨source, format, output, timeout⟩ repo ws runner platform
  have changes := Analysis.changesAt_run ⟨source, format, output, timeout⟩ repo ws runner platform
  have root (found : repo.hasFile ws (normalize source) = true) :=
    repo.root_of_hasFile proper (head?_normalize_ne_slash source) found
  have proper' : done.workspace.top.IsProper := exits.isProper proper fun found =>
    isEntryName_path (root found).1 reports source format
  refine ⟨?_, ?_, fun relative down => ⟨placeOf_path_of_relative relative down ws _ format,
    isApart_iff relative down ws _ format⟩⟩
  · intro apart extension registry
    have same : search done.workspace repo.root reports extension registry =
        search ws repo.root reports extension registry := by
      rcases exits.workspace_cases with same | ⟨found, -⟩
      · exact congrArg (search · repo.root reports extension registry) same
      · obtain ⟨there, isThere⟩ := (root found).2
        exact search_of_changesAt proper proper' changes isThere apart
    exact ⟨same, congrArg (withoutTest extension) same⟩
  · intro coverage written failures ended way ne eq extension registry
    obtain ⟨found, content, file⟩ := exits.of_reported ended
    obtain ⟨-, there, isThere⟩ := root found
    obtain ⟨now, isThere'⟩ := changes.exists_entry isThere
    have placeOf (p : Path) : done.workspace.placeOf p = ws.placeOf p :=
      Workspace.placeOf_congr changes.workingDirectory p
    rw [placeOf, eq, ← placeOf] at file
    rw [mem_search_iff_of_file proper' isThere' ne file, ← getLastD_way ne eq]
    exact ⟨fun ⟨ends, folders, listed⟩ => ⟨ends, folders, listed⟩,
      fun ⟨ends, folders, listed⟩ => ⟨ends, folders, listed⟩⟩

end Report

open Report in
/-- The analysis of a file whose report is written below the folder of the setting. -/
def Sample.reportedIn (reports : Text) : Analysis :=
  (Analysis.run ⟨"main/A.kt", .markdown, path ⟨.root, []⟩ reports "main/A.kt" .markdown, .whole 60⟩
    repository (workspace tracefile) runner platform).2

open Report PresenceCheck Sample in
/-- One name keeps the report out of the search; two names let it in. -/
theorem search_after_report_of_settings :
    search (reportedIn "coverage_reports").workspace repository.root "coverage_reports" ".md"
        .empty =
      search (workspace tracefile) repository.root "coverage_reports" ".md" .empty ∧
    Text.join "/" ["build", "reports", "main", "A", "coverage.md"] ∈
      search (reportedIn "build/reports").workspace repository.root "build/reports" ".md"
        .empty := by
  have proper : (workspace tracefile).top.IsProper := by decide
  obtain ⟨unchanged, -, placed⟩ := search_after_report proper repository runner platform
    "coverage_reports" "main/A.kt" .markdown (.whole 60)
  obtain ⟨-, found, -⟩ := search_after_report proper repository runner platform
    "build/reports" "main/A.kt" .markdown (.whole 60)
  refine ⟨(unchanged ((placed rfl (by decide)).2.2 (.inl (by decide))) ".md" .empty).1, ?_⟩
  exact (found _ _ _ rfl _ (by decide) rfl ".md" .empty).2 (by decide)

open Report PresenceCheck Sample in
/-- Reports that the search finds: below two names, below one that has a slash after it, and below
one name that the path of the source file leads out of. -/
theorem reports_are_searched :
    (∀ reports ∈ (["build/reports", "reports/"] : List Text),
      ∃ coverage written failures,
        (reportedIn reports).outcome = .ok (.reported coverage written failures)) ∧
    Text.join "/" ["build", "reports", "main", "A", "coverage.md"] ∈
      search (reportedIn "build/reports").workspace repository.root "build/reports" ".md" .empty ∧
    Text.join "/" ["reports", "main", "A", "coverage.md"] ∈
      search (reportedIn "reports/").workspace repository.root "reports/" ".md" .empty ∧
    ¬ IsApart ⟨.empty, ["work"]⟩ ⟨.relative, ["repo"]⟩ "coverage_reports"
      (path ⟨.relative, ["repo"]⟩ "coverage_reports" "../repo/main/A.kt" .markdown) := by
  refine ⟨?_, ?_, ?_, ?_⟩
  · rintro reports (_ | ⟨_, _ | ⟨_, ⟨⟩⟩⟩)
    all_goals exact ⟨_, _, _, rfl⟩
  · exact mem_search_of_isSearched ⟨_, rfl⟩ ⟨by decide, by decide, by decide⟩
  · exact mem_search_of_isSearched ⟨_, rfl⟩ ⟨by decide, by decide, by decide⟩
  · exact fun apart => absurd (apart ["repo", "main", "A", "coverage.md"] (by decide)) (by decide)

end FileCoverage
