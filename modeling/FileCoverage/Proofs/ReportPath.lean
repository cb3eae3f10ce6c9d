import FileCoverage.Proofs.PathEnding
import FileCoverage.Proofs.ReportFrame
import FileCoverage.Proofs.TestName

/-!
# Which source files share a report

The report of a source file stands below the folder of all reports by the path of the file without
its suffix.  So two files have one report exactly if their paths are the same without the suffix, as
`A.kt` and `A.java` in one folder are.  A stem that is a dot names nothing, which gives `main/..kt`
the report of `main.kt`.

If the paths without suffix differ and hold no `..`, the reports stand at different places, and
writing one of them leaves the other as it was.  The stem of `main/...kt` is `..`, which leads back.
-/

namespace FileCoverage

/-! ### Places of paths -/

namespace Workspace

variable {ws : Workspace} {p q : Path} {content : Bytes}

/-- Where the names lead from a place, if they lead anywhere. -/
def walk : (place names : List Text) → List Text
  | place, [] => place
  | place, name :: names => walk (if name = ".." then place.dropLast else place ++ [name]) names

def placeOf (ws : Workspace) (p : Path) : List Text := walk (ws.start p) p.names

theorem eq_walk_of_follow {top : Directory} {place next names : List Text}
    (h : follow top place names = .ok next) : next = walk place names := by
  induction names generalizing place with
  | nil => exact (Except.ok.inj h).symm
  | cons name names ih =>
      obtain ⟨middle, stepped, later⟩ := follow_cons_iff.1 h
      have there := ((step_eq_ok_iff top place middle name).1 stepped).2
      have place_eq : middle = if name = ".." then place.dropLast else place ++ [name] := by
        split at there
        · next up => rw [if_pos up, there]
        · next down => rw [if_neg down, there.2]
      rw [walk, ← place_eq]
      exact ih later

theorem walk_append (place names more : List Text) :
    walk place (names ++ more) = walk (walk place names) more := by
  induction names generalizing place with
  | nil => rfl
  | cons name names ih => exact ih _

theorem walk_of_notMem {names : List Text} (down : (".." : Text) ∉ names) (place : List Text) :
    walk place names = place ++ names := by
  induction names generalizing place with
  | nil => rw [walk, List.append_nil]
  | cons name names ih =>
      obtain ⟨first, later⟩ := not_or.1 (mt List.mem_cons.2 down)
      rw [walk, if_neg (Ne.symm first), ih later, List.append_assoc, List.singleton_append]

theorem placeOf_congr {after : Workspace} (same : after.workingDirectory = ws.workingDirectory)
    (p : Path) : after.placeOf p = ws.placeOf p := by
  rw [placeOf, start, same, ← start, placeOf]

theorem entry_eq_ok_iff {found : Entry} : ws.entry p = .ok found ↔ hasNul p = false ∧
    follow ws.top (ws.start p) p.names = .ok (ws.placeOf p) ∧
      ws.top.at? (ws.placeOf p) = some found := by
  rw [entry]
  cases nul : hasNul p with
  | true => simp
  | false =>
      cases followed : follow ws.top (ws.start p) p.names with
      | error fault => simp [bind, Except.bind]
      | ok place =>
          obtain rfl : place = ws.placeOf p := eq_walk_of_follow followed
          cases there : ws.top.at? (ws.placeOf p) <;> simp [bind, Except.bind, there]

theorem readBytes_eq_ok_iff : ws.readBytes p = .ok content ↔ hasNul p = false ∧
    follow ws.top (ws.start p) p.names = .ok (ws.placeOf p) ∧
      ws.top.at? (ws.placeOf p) = some (.file content) := by
  rw [← entry_eq_ok_iff, readBytes]
  cases nul : hasNul p with
  | true => simp [entry, nul]
  | false => rcases ws.entry p with fault | (content' | inside) <;> simp

/-- The workspace `after` has every entry of `ws`, and the same files but for the one place. -/
structure ChangesAt (ws : Workspace) (place : List Text) (after : Workspace) : Prop where
  keeps : ws.top.Keeps after.top
  files : ws.top.SameFilesBut place after.top
  workingDirectory : after.workingDirectory = ws.workingDirectory

theorem ChangesAt.refl (ws : Workspace) (place : List Text) : ws.ChangesAt place ws :=
  ⟨.refl _, fun _ _ _ => Iff.rfl, rfl⟩

theorem AddsFolders.changesAt {made : Workspace} (adds : ws.AddsFolders made)
    (place : List Text) : ws.ChangesAt place made :=
  ⟨adds.keeps, fun names content _ => adds.files names content, adds.workingDirectory⟩

theorem AddsFolders.trans_changesAt {made written : Workspace} {place : List Text}
    (adds : ws.AddsFolders made) (changes : made.ChangesAt place written) :
    ws.ChangesAt place written :=
  ⟨adds.keeps.trans changes.keeps, adds.files.trans_but changes.files,
    changes.workingDirectory.trans adds.workingDirectory⟩

theorem changesAt_setContent {there : List Text} (h : ws.placeToWrite p = .ok there)
    (content : Bytes) : ws.ChangesAt (ws.placeOf p) (ws.setContent there content) := by
  obtain ⟨place, inside, name, split, down, followed, folder, file, rfl⟩ := placeToWrite_eq_ok h
  have place_eq : ws.placeOf p = place ++ [name] := by
    rw [placeOf, split, walk_append, ← eq_walk_of_follow followed, walk, if_neg down, walk]
  rw [place_eq]
  exact ⟨Directory.keeps_put_file folder file content,
    Directory.sameFilesBut_put_file folder file content, rfl⟩

/-- Writing a text changes a file at the place of its path only, even where it does not succeed. -/
theorem changesAt_writeText (ws : Workspace) (storage : Storage) (p : Path) (t : Text) :
    ws.ChangesAt (ws.placeOf p) (ws.writeText storage p t).1 := by
  have folders := ws.addsFolders_makeFolders p.parent
  rw [writeText]
  rcases made : ws.makeFolders p.parent with ⟨between, _ | fault⟩
  all_goals rw [made] at folders
  · rcases between.writeBytes_cases storage p (Utf8.encode t) with
      same | ⟨place, there, found, changed⟩
    · simpa only [same] using folders.changesAt _
    · have changes := changesAt_setContent there found
      rw [placeOf_congr folders.workingDirectory] at changes
      simpa only [changed] using folders.trans_changesAt changes
  · exact folders.changesAt _

theorem ChangesAt.follow {place next : List Text} {after : Workspace}
    (changes : ws.ChangesAt place after)
    (followed : follow ws.top (ws.start p) p.names = .ok next) :
    Workspace.follow after.top (after.start p) p.names = .ok next := by
  rw [start, changes.workingDirectory]
  exact follow_of_keeps changes.keeps followed

theorem ChangesAt.readBytes {place : List Text} {after : Workspace}
    (changes : ws.ChangesAt place after) (apart : ws.placeOf q ≠ place)
    (read : ws.readBytes q = .ok content) : after.readBytes q = .ok content := by
  obtain ⟨nul, followed, here⟩ := readBytes_eq_ok_iff.1 read
  rw [readBytes_eq_ok_iff, placeOf_congr changes.workingDirectory]
  exact ⟨nul, changes.follow followed, (changes.files _ _ apart).1 here⟩

end Workspace

namespace Analysis

variable {request : AnalysisRequest} {repo : Repository} {ws : Workspace} {runner : Runner}
  {platform : Platform} {done : Analysis}

theorem Exits.workspace_cases (exits : Exits request repo ws runner platform done) :
    done.workspace = ws ∨ repo.hasFile ws (RepositoryPath.normalize request.source) = true ∧
      ∃ coverage, done.workspace = (writeReport request ws platform.storage coverage).1 := by
  cases exits with
  | concluded reached finished =>
      rw [conclude]
      split
      · exact .inl rfl
      · next coverage _ =>
          refine .inr ⟨reached.found, coverage, ?_⟩
          rcases writeReport request ws platform.storage coverage with ⟨after, _ | fault⟩ <;> rfl
  | _ => exact .inl rfl

/-- An analysis changes a file at the place of its report only. -/
theorem changesAt_run (request : AnalysisRequest) (repo : Repository) (ws : Workspace)
    (runner : Runner) (platform : Platform) :
    ws.ChangesAt (ws.placeOf request.output) (run request repo ws runner platform).2.workspace := by
  rcases (run_exits request repo ws runner platform).workspace_cases with
    same | ⟨-, coverage, wrote⟩
  · rw [same]
    exact .refl ws _
  · rw [wrote]
    exact ws.changesAt_writeText platform.storage request.output _

theorem readBytes_run_elsewhere (request : AnalysisRequest) (repo : Repository) (runner : Runner)
    (platform : Platform) {q : Path} {content : Bytes}
    (apart : ws.placeOf q ≠ ws.placeOf request.output) (read : ws.readBytes q = .ok content) :
    (run request repo ws runner platform).2.workspace.readBytes q = .ok content :=
  (changesAt_run request repo ws runner platform).readBytes apart read

end Analysis

/-! ### Paths of reports -/

namespace Report

open FileCoverage.RepositoryPath

/-- The names of a file without its suffix, of which a stem that is a dot is none. -/
def withoutSuffix (source : Text) : List Text :=
  let p := RepositoryPath.path source
  p.names.dropLast ++ if p.stem = "." then [] else [p.stem]

theorem slash_notMem_of_mem_pieces {source piece : Text}
    (mem : piece ∈ (RepositoryPath.path source).names.dropLast ++
      [(RepositoryPath.path source).stem]) : '/' ∉ piece := by
  rcases List.mem_append.1 mem with folder | stem
  · have name := (List.mem_filter.1 (List.dropLast_subset _ folder)).1
    exact Text.notMem_of_mem_splitOn name
  · rw [List.mem_singleton.1 stem]
    exact Path.slash_notMem_stem _

theorem folder_eq_filter (source : Text) : folder source =
    ⟨.relative, ((RepositoryPath.path source).names.dropLast ++
      [(RepositoryPath.path source).stem]).filter Path.isName⟩ :=
  Path.ofPieces_of_notMem fun _ => slash_notMem_of_mem_pieces

theorem folder_eq {source : Text} (canonical : IsCanonical source) :
    folder source = ⟨.relative, withoutSuffix source⟩ := by
  obtain ⟨ne, plain, -, -⟩ := canonical.areCanonical
  have path_eq : RepositoryPath.path source = Path.ofText source :=
    congrArg Path.ofText canonical.normal
  have last : (Path.ofText source).name ∈ (Path.ofText source).names := by
    rw [Path.name, List.getLastD_eq_getLast?, List.getLast?_eq_some_getLast ne]
    exact List.getLast_mem ne
  have solid : (Path.ofText source).stem ≠ [] :=
    Path.cutSuffix_fst_ne_nil ((Path.isName_iff _).1 (plain _ last).isName).1
  have folders : ∀ name ∈ (Path.ofText source).names.dropLast, Path.isName name = true :=
    fun name mem => (plain name (List.dropLast_subset _ mem)).isName
  rw [folder_eq_filter, withoutSuffix, path_eq, List.filter_append, List.filter_eq_self.2 folders]
  simp only [Path.mk.injEq, true_and, List.append_cancel_left_eq]
  split
  · next dot => rw [dot]; rfl
  · next other => exact List.filter_cons_of_pos ((Path.isName_iff _).2 ⟨solid, other⟩)

theorem path_eq_append (root : Path) (reports source : Text) (format : ReportFormat) :
    path root reports source format =
      ⟨(root.child reports).anchor,
        (root.child reports).names ++ (folder source).names ++ [fileName format]⟩ := by
  have clear : '/' ∉ fileName format := by cases format <;> decide
  have isName : Path.isName (fileName format) = true := by cases format <;> decide
  rw [path, folder_eq_filter, Path.child, Path.ofText_of_notMem clear,
    List.filter_cons_of_pos isName, List.filter_nil]
  rfl

theorem path_eq {source : Text} (canonical : IsCanonical source) (root : Path) (reports : Text)
    (format : ReportFormat) :
    path root reports source format =
      ⟨(root.child reports).anchor,
        (root.child reports).names ++ withoutSuffix source ++ [fileName format]⟩ := by
  rw [path_eq_append, folder_eq canonical]

theorem placeOf_path {source : Text} (canonical : IsCanonical source)
    (down : (".." : Text) ∉ withoutSuffix source) (ws : Workspace) (root : Path) (reports : Text)
    (format : ReportFormat) :
    ws.placeOf (path root reports source format) =
      ws.placeOf (root.child reports) ++ (withoutSuffix source ++ [fileName format]) := by
  have down' : (".." : Text) ∉ withoutSuffix source ++ [fileName format] := by
    rw [List.mem_append, List.mem_singleton, not_or]
    exact ⟨down, by cases format <;> decide⟩
  rw [path_eq canonical, Workspace.placeOf, List.append_assoc, Workspace.walk_append,
    Workspace.walk_of_notMem down']
  rfl

theorem path_eq_iff {a b : Text} (canonical : IsCanonical a) (canonical' : IsCanonical b)
    (root : Path) (reports : Text) (format : ReportFormat) :
    path root reports a format = path root reports b format ↔
      withoutSuffix a = withoutSuffix b := by
  rw [path_eq canonical, path_eq canonical', Path.mk.injEq]
  simp only [true_and, List.append_cancel_right_eq, List.append_cancel_left_eq]

/--
Two source files have the same report exactly if their paths are the same without the suffix.  If
they are not, and no `..` is in them, then the analysis of one file leaves the report of the other
as it was.
-/
theorem path_by_stem {a b : Text} (canonical : IsCanonical a) (canonical' : IsCanonical b)
    (root : Path) (reports : Text) (format : ReportFormat) :
    (path root reports a format = path root reports b format ↔
      withoutSuffix a = withoutSuffix b) ∧
    (withoutSuffix a ≠ withoutSuffix b →
      (∀ name ∈ withoutSuffix a ++ withoutSuffix b, name ≠ "..") →
      ∀ repo ws runner platform timeout content,
        Workspace.readBytes ws (path root reports b format) = .ok content →
          (Analysis.run ⟨a, format, path root reports a format, timeout⟩ repo ws runner
            platform).2.workspace.readBytes (path root reports b format) = .ok content) := by
  refine ⟨path_eq_iff canonical canonical' root reports format, ?_⟩
  intro ne down repo ws runner platform timeout content read
  apply Analysis.readBytes_run_elsewhere _ repo runner platform _ read
  rw [placeOf_path canonical fun mem => down _ (List.mem_append_left _ mem) rfl,
    placeOf_path canonical' fun mem => down _ (List.mem_append_right _ mem) rfl]
  intro same
  exact ne (List.append_cancel_right (List.append_cancel_left same)).symm

end Report

/-- Source files that share reports, and all of them without a `..`. -/
def Sample.sharing : List Text := ["main/A.kt", "main/A.java", "main/...kt", "..kt"]

open Report RepositoryPath in
/--
Suffixes do not tell reports apart, and a stem that is a dot names no folder.  A stem of two dots
leads back, so that two paths stand for one report.
-/
theorem suffixes_share_a_report :
    (Sample.sharing.Nodup ∧ ∀ source ∈ Sample.sharing,
      IsCanonical source ∧ (".." : Text) ∉ (Path.ofText source).names) ∧
    path .here "coverage_reports" "main/A.kt" .markdown =
      path .here "coverage_reports" "main/A.java" .markdown ∧
    path .here "coverage_reports" "main/...kt" .markdown ≠
      path .here "coverage_reports" "..kt" .markdown ∧
    Workspace.placeOf ⟨.empty, []⟩ (path .here "coverage_reports" "main/...kt" .markdown) =
      Workspace.placeOf ⟨.empty, []⟩ (path .here "coverage_reports" "..kt" .markdown) := by
  decide

/-- A project in which another file has been analysed before. -/
def Sample.reported : Workspace :=
  { Sample.workspace Sample.tracefile with
    top := .folder "coverage_reports" (.folder "main" (.folder "B" (.file "coverage.md" [66]
      .empty) .empty) .empty) (Sample.workspace Sample.tracefile).top }

open Report RepositoryPath Sample in
theorem path_by_stem_of_two_names :
    (IsCanonical "main/A.kt" ∧ IsCanonical "main/B.kt") ∧
    path ⟨.root, []⟩ "coverage_reports" "main/A.kt" .markdown ≠
      path ⟨.root, []⟩ "coverage_reports" "main/B.kt" .markdown ∧
    (Analysis.run ⟨"main/A.kt", .markdown,
      path ⟨.root, []⟩ "coverage_reports" "main/A.kt" .markdown, .whole 60⟩ repository reported
        runner platform).2.workspace.readBytes
        (path ⟨.root, []⟩ "coverage_reports" "main/B.kt" .markdown) = .ok [66] := by
  have canonical : IsCanonical "main/A.kt" := by decide
  have canonical' : IsCanonical "main/B.kt" := by decide
  have ne : withoutSuffix "main/A.kt" ≠ withoutSuffix "main/B.kt" := by decide
  obtain ⟨same, kept⟩ := path_by_stem canonical canonical' ⟨.root, []⟩ "coverage_reports" .markdown
  refine ⟨⟨canonical, canonical'⟩, mt same.1 ne, ?_⟩
  exact kept ne (by decide) repository reported runner platform (.whole 60) [66] rfl

end FileCoverage
