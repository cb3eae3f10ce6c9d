import FileCoverage.FileTree.Workspace
import FileCoverage.Proofs.Except
import Mathlib.Data.List.Basic

/-!
# What writing changes

At a place in a directory there is nothing, a folder, or a file with its content.  Setting the entry
of one place decides what is there and below, and leaves every other place as it is.  So making
folders changes no file, and writing a file changes no other, even where it does not succeed.  But
what stops the writing of an open file leaves no more of it than the beginning of the new content.
-/

namespace FileCoverage

/-- Whether the fault has stopped the writing of a file that had been opened. -/
def WriteFault.IsLate : WriteFault → Prop
  | .file _ => False
  | .storage _ | .interrupted => True

/-- What is at a place, without what is below it. -/
inductive Kind where
  | folder
  | file (content : Bytes)

def Entry.kind : Entry → Kind
  | .folder _ => .folder
  | .file content => .file content

/-- What a sequence of names stands for, seen from an entry. -/
def Entry.at? : Entry → List Text → Option Entry
  | .folder inside, names => inside.at? names
  | .file content, [] => some (.file content)
  | .file _, _ :: _ => none

namespace Directory

theorem at?_cons (top : Directory) (name : Text) (names : List Text) :
    top.at? (name :: names) = (top.find? name).bind fun entry => entry.at? names := by
  rw [at?]
  cases top.find? name with
  | none => rfl
  | some entry =>
      cases entry with
      | folder inside => rfl
      | file content => cases names <;> rfl

theorem find?_eq_folder {top inside : Directory} {name : Text} {names : List Text}
    (folder : top.at? (name :: names) = some (.folder inside)) :
    ∃ d, top.find? name = some (.folder d) ∧ d.at? names = some (.folder inside) := by
  rw [at?_cons, Option.bind_eq_some_iff] at folder
  obtain ⟨entry, found, rest⟩ := folder
  cases entry with
  | folder d => exact ⟨d, found, rest⟩
  | file content => cases names <;> simp [Entry.at?] at rest

theorem at?_append {top inside : Directory} {place : List Text}
    (folder : top.at? place = some (.folder inside)) (names : List Text) :
    top.at? (place ++ names) = inside.at? names := by
  induction place generalizing top with
  | nil =>
      obtain rfl := Entry.folder.inj (Option.some.inj folder)
      rfl
  | cons first place ih =>
      obtain ⟨d, found, rest⟩ := find?_eq_folder folder
      rw [List.cons_append, at?_cons, found]
      exact ih rest

theorem exists_folder_of_at?_append {top : Directory} {place rest : List Text} (ne : rest ≠ [])
    {entry : Entry} (found : top.at? (place ++ rest) = some entry) :
    ∃ inside, top.at? place = some (.folder inside) := by
  induction place generalizing top with
  | nil => exact ⟨top, rfl⟩
  | cons first place ih =>
      rw [List.cons_append, at?_cons, Option.bind_eq_some_iff] at found
      obtain ⟨first', there, below⟩ := found
      cases first' with
      | folder d =>
          obtain ⟨inside, folder⟩ := ih below
          exact ⟨inside, by rw [at?_cons, there]; exact folder⟩
      | file content =>
          have solid := List.append_ne_nil_of_right_ne_nil place ne
          obtain ⟨next, more, eq⟩ := List.exists_cons_of_ne_nil solid
          rw [eq] at below
          cases below

theorem put_cons (entry : Entry) (first name : Text) (place : List Text) {top d : Directory}
    (found : top.find? first = some (.folder d)) :
    top.put entry (first :: place ++ [name]) =
      top.set first (.folder (d.put entry (place ++ [name]))) := by
  rw [List.cons_append, put.eq_3 _ _ _ _ (by simp), found]

theorem at?_put_below {top inside : Directory} {place : List Text}
    (folder : top.at? place = some (.folder inside)) (entry : Entry) (name : Text)
    (rest : List Text) :
    (top.put entry (place ++ [name])).at? (place ++ name :: rest) = entry.at? rest := by
  induction place generalizing top with
  | nil =>
      rw [List.nil_append, List.nil_append, put, at?_cons, find?_set, if_pos rfl]
      rfl
  | cons first place ih =>
      obtain ⟨d, found, below⟩ := find?_eq_folder folder
      rw [put_cons entry first name place found, List.cons_append, at?_cons, find?_set, if_pos rfl]
      exact ih below

/-! ### Places -/

def kindAt? (top : Directory) (names : List Text) : Option Kind := (top.at? names).map Entry.kind

@[simp]
theorem kindAt?_nil (top : Directory) : top.kindAt? [] = some .folder := rfl

theorem kindAt?_eq_file_iff (top : Directory) (names : List Text) (content : Bytes) :
    top.kindAt? names = some (.file content) ↔ top.at? names = some (.file content) := by
  rw [kindAt?]
  rcases top.at? names with _ | _ | _ <;> simp [Entry.kind]

theorem kindAt?_eq_folder_iff (top : Directory) (names : List Text) :
    top.kindAt? names = some .folder ↔ ∃ inside, top.at? names = some (.folder inside) := by
  rw [kindAt?]
  rcases top.at? names with _ | _ | _ <;> simp [Entry.kind]

/-- Setting the entry of one place leaves every place alone that is neither there nor below. -/
theorem kindAt?_put_elsewhere {top inside : Directory} {place names : List Text} {name : Text}
    (folder : top.at? place = some (.folder inside)) (entry : Entry)
    (other : ¬ place ++ [name] <+: names) :
    (top.put entry (place ++ [name])).kindAt? names = top.kindAt? names := by
  induction place generalizing top names with
  | nil =>
      cases names with
      | nil => rfl
      | cons first names =>
          have ne : name ≠ first := by
            rintro rfl
            exact other ⟨names, rfl⟩
          rw [List.nil_append, put, kindAt?, at?_cons, find?_set, if_neg ne, kindAt?, at?_cons]
  | cons first place ih =>
      obtain ⟨d, found, below⟩ := find?_eq_folder folder
      cases names with
      | nil => rfl
      | cons next names =>
          rw [put_cons entry first name place found, kindAt?, at?_cons, find?_set, kindAt?,
            at?_cons]
          by_cases same : first = next
          · subst same
            rw [if_pos rfl, found]
            exact ih below fun inner => other ((List.prefix_cons_inj first).2 inner)
          · rw [if_neg same]

/-- The same files are in both directories, each with the same content. -/
def SameFiles (a b : Directory) : Prop :=
  ∀ names content, a.at? names = some (.file content) ↔ b.at? names = some (.file content)

/-- The same files are in both directories, but for the one place. -/
def SameFilesBut (place : List Text) (a b : Directory) : Prop :=
  ∀ names content, names ≠ place →
    (a.at? names = some (.file content) ↔ b.at? names = some (.file content))

theorem SameFiles.refl (a : Directory) : a.SameFiles a := fun _ _ => Iff.rfl

theorem SameFiles.trans {a b c : Directory} (h : a.SameFiles b) (h' : b.SameFiles c) :
    a.SameFiles c :=
  fun names content => (h names content).trans (h' names content)

theorem SameFiles.trans_but {a b c : Directory} {place : List Text} (h : a.SameFiles b)
    (h' : b.SameFilesBut place c) : a.SameFilesBut place c :=
  fun names content ne => (h names content).trans (h' names content ne)

theorem at?_put_eq_file_iff {top inside : Directory} {place names : List Text} {name : Text}
    (folder : top.at? place = some (.folder inside)) (entry : Entry)
    (other : ¬ place ++ [name] <+: names) (content : Bytes) :
    top.at? names = some (.file content) ↔
      (top.put entry (place ++ [name])).at? names = some (.file content) := by
  rw [← kindAt?_eq_file_iff, ← kindAt?_eq_file_iff, kindAt?_put_elsewhere folder entry other]

theorem exists_eq_below {place names : List Text} {name : Text}
    (below : place ++ [name] <+: names) : ∃ rest, names = place ++ name :: rest := by
  obtain ⟨rest, rfl⟩ := below
  exact ⟨rest, by simp⟩

/-- A new folder holds no file, and none was in its place. -/
theorem sameFiles_put_folder {top inside : Directory} {place : List Text} {name : Text}
    (folder : top.at? place = some (.folder inside)) (free : inside.find? name = none) :
    top.SameFiles (top.put (.folder .empty) (place ++ [name])) := by
  intro names content
  by_cases below : place ++ [name] <+: names
  · obtain ⟨rest, rfl⟩ := exists_eq_below below
    rw [at?_append folder, at?_cons, free, at?_put_below folder]
    cases rest <;> simp [Entry.at?, at?]
  · exact at?_put_eq_file_iff folder _ below content

theorem at?_below_of_not_folder {inside : Directory} {name next : Text} (rest : List Text)
    (file : ∀ d, inside.find? name ≠ some (.folder d)) :
    inside.at? (name :: next :: rest) = none := by
  rw [at?_cons]
  cases found : inside.find? name with
  | none => rfl
  | some entry =>
      cases entry with
      | folder d => exact absurd found (file d)
      | file content => rfl

theorem sameFilesBut_put_file {top inside : Directory} {place : List Text} {name : Text}
    (folder : top.at? place = some (.folder inside))
    (file : ∀ d, inside.find? name ≠ some (.folder d)) (content : Bytes) :
    top.SameFilesBut (place ++ [name]) (top.put (.file content) (place ++ [name])) := by
  intro names other ne
  by_cases below : place ++ [name] <+: names
  · obtain ⟨rest, rfl⟩ := exists_eq_below below
    cases rest with
    | nil => exact absurd rfl ne
    | cons next rest =>
        rw [at?_append folder, at?_below_of_not_folder rest file, at?_put_below folder]
        simp [Entry.at?]
  · exact at?_put_eq_file_iff folder _ below other

/-- Folders stay folders, and what is there stays there. -/
structure Keeps (a b : Directory) : Prop where
  folder : ∀ names, a.kindAt? names = some .folder → b.kindAt? names = some .folder
  isSome : ∀ names, (a.kindAt? names).isSome = true → (b.kindAt? names).isSome = true

theorem Keeps.refl (a : Directory) : a.Keeps a := ⟨fun _ => id, fun _ => id⟩

theorem Keeps.trans {a b c : Directory} (h : a.Keeps b) (h' : b.Keeps c) : a.Keeps c :=
  ⟨fun names is => h'.folder names (h.folder names is),
    fun names is => h'.isSome names (h.isSome names is)⟩

theorem keeps_put_folder {top inside : Directory} {place : List Text} {name : Text}
    (folder : top.at? place = some (.folder inside)) (free : inside.find? name = none) :
    top.Keeps (top.put (.folder .empty) (place ++ [name])) := by
  have below : ∀ rest, top.kindAt? (place ++ name :: rest) = none := by
    intro rest
    rw [kindAt?, at?_append folder, at?_cons, free]
    rfl
  have elsewhere : ∀ names, (top.kindAt? names).isSome = true →
      (top.put (.folder .empty) (place ++ [name])).kindAt? names = top.kindAt? names := by
    intro names isThere
    apply kindAt?_put_elsewhere folder
    intro there
    obtain ⟨rest, rfl⟩ := exists_eq_below there
    rw [below] at isThere
    cases isThere
  constructor
  · intro names isFolder
    rw [elsewhere names (by rw [isFolder]; rfl), isFolder]
  · intro names isThere
    rw [elsewhere names isThere, isThere]

theorem keeps_put_file {top inside : Directory} {place : List Text} {name : Text}
    (folder : top.at? place = some (.folder inside))
    (file : ∀ d, inside.find? name ≠ some (.folder d)) (content : Bytes) :
    top.Keeps (top.put (.file content) (place ++ [name])) := by
  have below : ∀ next rest, top.kindAt? (place ++ name :: next :: rest) = none := by
    intro next rest
    rw [kindAt?, at?_append folder, at?_below_of_not_folder rest file]
    rfl
  constructor
  · intro names isFolder
    by_cases there : place ++ [name] <+: names
    · obtain ⟨rest, rfl⟩ := exists_eq_below there
      cases rest with
      | nil =>
          obtain ⟨d, found⟩ := (kindAt?_eq_folder_iff top _).1 isFolder
          rw [at?_append folder] at found
          obtain ⟨d', found, _⟩ := find?_eq_folder found
          exact absurd found (file d')
      | cons next rest =>
          rw [below] at isFolder
          cases isFolder
    · rw [kindAt?_put_elsewhere folder _ there]
      exact isFolder
  · intro names isThere
    by_cases there : place ++ [name] <+: names
    · obtain ⟨rest, rfl⟩ := exists_eq_below there
      cases rest with
      | nil =>
          rw [kindAt?, at?_put_below folder]
          rfl
      | cons next rest =>
          rw [below] at isThere
          cases isThere
    · rw [kindAt?_put_elsewhere folder _ there]
      exact isThere

end Directory

namespace Workspace

open Directory

/-! ### Making folders -/

theorem makeFolder_eq_ok {ws made : Workspace} {p : Path} (h : ws.makeFolder p = .ok made) :
    ∃ place inside, ∃ name ∈ p.names, ws.top.at? place = some (.folder inside) ∧
      inside.find? name = none ∧
      made = { ws with top := ws.top.put (.folder .empty) (place ++ [name]) } := by
  rw [makeFolder.eq_def] at h
  split at h
  · cases h
  · next name last =>
      cases followed : follow ws.top (ws.start p) p.names.dropLast with
      | error fault =>
          rw [followed] at h
          cases h
      | ok place =>
          rw [followed] at h
          simp only [bind, Except.bind] at h
          split at h
          · next inside found =>
              split at h
              · cases h
              · next free =>
                  obtain ⟨_, free⟩ := not_or.1 free
                  refine ⟨place, inside, name, List.mem_of_getLast? last, found, ?_, ?_⟩
                  · simpa using free
                  · exact (Except.ok.inj h).symm
          · cases h
          · cases h

/-- The workspace `b` has every entry of `a`, and no other file. -/
structure AddsFolders (a b : Workspace) : Prop where
  files : a.top.SameFiles b.top
  keeps : a.top.Keeps b.top
  workingDirectory : b.workingDirectory = a.workingDirectory

theorem AddsFolders.refl (ws : Workspace) : ws.AddsFolders ws := ⟨.refl _, .refl _, rfl⟩

theorem AddsFolders.trans {a b c : Workspace} (h : a.AddsFolders b) (h' : b.AddsFolders c) :
    a.AddsFolders c :=
  ⟨h.files.trans h'.files, h.keeps.trans h'.keeps, h'.workingDirectory.trans h.workingDirectory⟩

theorem addsFolders_of_makeFolder {ws made : Workspace} {p : Path}
    (h : ws.makeFolder p = .ok made) : ws.AddsFolders made := by
  obtain ⟨place, inside, name, _, folder, free, rfl⟩ := makeFolder_eq_ok h
  exact ⟨sameFiles_put_folder folder free, keeps_put_folder folder free, rfl⟩

/-- Whether or not all folders can be made, everything stays as it is. -/
theorem addsFolders_makeFoldersAt (ws : Workspace) (anchor : Anchor) (reversed : List Text) :
    ws.AddsFolders (ws.makeFoldersAt anchor reversed).1 := by
  induction reversed with
  | nil => exact .refl _
  | cons name above ih =>
      rw [makeFoldersAt.eq_def]
      simp only
      split
      · next made => exact addsFolders_of_makeFolder made
      · split
        · next stopped =>
            rw [stopped] at ih
            exact ih
        · next between stopped =>
            rw [stopped] at ih
            split
            · next made => exact ih.trans (addsFolders_of_makeFolder made)
            · exact ih
      · exact .refl _

theorem addsFolders_makeFolders (ws : Workspace) (p : Path) :
    ws.AddsFolders (ws.makeFolders p).1 := by
  rw [makeFolders]
  split
  · exact .refl _
  · exact addsFolders_makeFoldersAt ws p.anchor _

/-! ### Following a path -/

theorem step_eq_ok_iff (top : Directory) (place next : List Text) (name : Text) :
    step top place name = .ok next ↔ top.kindAt? place = some .folder ∧
      if name = ".." then next = place.dropLast
      else (top.kindAt? (place ++ [name])).isSome = true ∧ next = place ++ [name] := by
  rw [step, kindAt?]
  cases found : top.at? place with
  | none => simp
  | some entry =>
      cases entry with
      | file content => simp [Entry.kind]
      | folder inside =>
          rw [kindAt?, at?_append found, at?_cons]
          simp only
          split
          · simp [Entry.kind, eq_comm]
          · cases there : inside.find? name with
            | none => simp [Entry.kind]
            | some entry => cases entry <;> simp [Entry.kind, Entry.at?, eq_comm]

theorem follow_cons_iff {top : Directory} {place next names : List Text} {name : Text} :
    follow top place (name :: names) = .ok next ↔
      ∃ middle, step top place name = .ok middle ∧ follow top middle names = .ok next := by
  rw [follow, List.foldlM_cons]
  exact bind_eq_ok_iff

theorem follow_append_iff {top : Directory} {place next names more : List Text} :
    follow top place (names ++ more) = .ok next ↔
      ∃ middle, follow top place names = .ok middle ∧ follow top middle more = .ok next := by
  rw [follow, List.foldlM_append]
  exact bind_eq_ok_iff

theorem isFile_eq_true_iff {ws : Workspace} {p : Path} :
    ws.isFile p = true ↔ ∃ content, ws.entry p = .ok (.file content) := by
  rw [isFile]
  split
  · next content here => exact iff_of_true rfl ⟨content, here⟩
  · next other =>
      exact iff_of_false Bool.false_ne_true fun ⟨content, here⟩ => other content here

theorem follow_of_keeps {a b : Directory} (keeps : a.Keeps b) {place next names : List Text}
    (h : follow a place names = .ok next) : follow b place names = .ok next := by
  induction names generalizing place with
  | nil => exact h
  | cons name names ih =>
      obtain ⟨middle, stepped, later⟩ := follow_cons_iff.1 h
      refine follow_cons_iff.2 ⟨middle, ?_, ih later⟩
      rw [step_eq_ok_iff] at stepped ⊢
      refine ⟨keeps.folder _ stepped.1, ?_⟩
      split
      · next up => simpa [up] using stepped.2
      · next down =>
          have there := stepped.2
          rw [if_neg down] at there
          exact ⟨keeps.isSome _ there.1, there.2⟩

/-! ### Writing a file -/

theorem placeToWrite_eq_ok {ws : Workspace} {p : Path} {there : List Text}
    (h : ws.placeToWrite p = .ok there) :
    ∃ place inside, ∃ name : Text, p.names = p.names.dropLast ++ [name] ∧ name ≠ ".." ∧
      follow ws.top (ws.start p) p.names.dropLast = .ok place ∧
      ws.top.at? place = some (.folder inside) ∧
      (∀ d, inside.find? name ≠ some (.folder d)) ∧ there = place ++ [name] := by
  rw [placeToWrite.eq_def] at h
  split at h
  · cases h
  · split at h
    · cases h
    · next name last =>
        split at h
        · cases h
        · next place followed =>
            split at h
            · next inside found =>
                split at h
                · cases h
                · next file =>
                    split at h
                    · cases h
                    · next down =>
                        refine ⟨place, inside, name, ?_, down, followed, found, ?_, ?_⟩
                        · exact (List.dropLast_append_getLast? name last).symm
                        · exact fun d isFolder => file d isFolder
                        · exact (Except.ok.inj h).symm
            · cases h
            · cases h

/-- The workspace `written` has the content at the place that the path leads to, and no other file
has changed. -/
structure HasWritten (ws : Workspace) (p : Path) (content : Bytes) (written : Workspace)
    (place : List Text) : Prop where
  follow : follow written.top (written.start p) p.names = .ok place
  file : written.top.at? place = some (.file content)
  others : ws.top.SameFilesBut place written.top

theorem hasWritten_setContent {ws : Workspace} {p : Path} {there : List Text}
    (h : ws.placeToWrite p = .ok there) (content : Bytes) :
    ws.HasWritten p content (ws.setContent there content) there := by
  obtain ⟨place, inside, name, split, down, followed, folder, file, rfl⟩ := placeToWrite_eq_ok h
  refine ⟨?_, at?_put_below folder _ name [], sameFilesBut_put_file folder file content⟩
  have keeps := keeps_put_file folder file content
  have arrives : step (ws.top.put (.file content) (place ++ [name])) place name =
      .ok (place ++ [name]) := by
    rw [step_eq_ok_iff, if_neg down]
    refine ⟨keeps.folder _ ((kindAt?_eq_folder_iff _ _).2 ⟨inside, folder⟩), ?_, rfl⟩
    rw [kindAt?, at?_put_below folder]
    rfl
  rw [split]
  exact follow_append_iff.2
    ⟨place, follow_of_keeps keeps followed, follow_cons_iff.2 ⟨_, arrives, rfl⟩⟩

/-- Writing leaves the workspace as it is, or it gives one file some content. -/
theorem writeBytes_cases (ws : Workspace) (storage : Storage) (p : Path) (content : Bytes) :
    (ws.writeBytes storage p content).1 = ws ∨ ∃ place, ws.placeToWrite p = .ok place ∧
      ∃ found, (ws.writeBytes storage p content).1 = ws.setContent place found := by
  rw [writeBytes]
  cases there : ws.placeToWrite p with
  | error fault => exact .inl rfl
  | ok place => cases storage p content <;> simp

theorem HasWritten.after_sameFiles {ws between written : Workspace} {p : Path} {content : Bytes}
    {place : List Text} (has : between.HasWritten p content written place)
    (same : ws.top.SameFiles between.top) : ws.HasWritten p content written place :=
  ⟨has.follow, has.file, same.trans_but has.others⟩

/-- The ways in which the writing of a content to a file may end. -/
inductive Writes (ws : Workspace) (p : Path) (content : Bytes) :
    Workspace × Option WriteFault → Prop where
  /-- The file has not been opened, and no file has changed. -/
  | refused {after : Workspace} {fault : FileFault} (files : ws.top.SameFiles after.top) :
      Writes ws p content (after, some (.file fault))
  /-- The file holds a beginning of the content. -/
  | stopped {after : Workspace} {fault : WriteFault} {count : Nat} {place : List Text}
      (late : fault.IsLate) (has : ws.HasWritten p (content.take count) after place) :
      Writes ws p content (after, some fault)
  | written {after : Workspace} {place : List Text} (has : ws.HasWritten p content after place) :
      Writes ws p content (after, none)

theorem Writes.after_sameFiles {ws between : Workspace} {p : Path} {content : Bytes}
    {done : Workspace × Option WriteFault} (writes : between.Writes p content done)
    (same : ws.top.SameFiles between.top) : ws.Writes p content done := by
  cases writes with
  | refused files => exact .refused (same.trans files)
  | stopped late has => exact .stopped late (has.after_sameFiles same)
  | written has => exact .written (has.after_sameFiles same)

theorem writes_writeBytes (ws : Workspace) (storage : Storage) (p : Path) (content : Bytes) :
    ws.Writes p content (ws.writeBytes storage p content) := by
  rw [writeBytes]
  cases there : ws.placeToWrite p with
  | error fault => exact .refused (.refl _)
  | ok place =>
      cases fate : storage p content with
      | written => simpa only [fate] using .written (hasWritten_setContent there content)
      | denied => simpa only [fate] using .refused (.refl _)
      | stopped count fault =>
          simpa only [fate] using .stopped trivial (hasWritten_setContent there _)
      | interrupted count =>
          simpa only [fate] using .stopped trivial (hasWritten_setContent there _)

theorem writes_writeText (ws : Workspace) (storage : Storage) (p : Path) (t : Text) :
    ws.Writes p (Utf8.encode t) (ws.writeText storage p t) := by
  have folders := (ws.addsFolders_makeFolders p.parent).files
  rw [writeText]
  rcases made : ws.makeFolders p.parent with ⟨between, _ | fault⟩
  · rw [made] at folders
    exact (between.writes_writeBytes storage p _).after_sameFiles folders
  · rw [made] at folders
    exact .refused folders

end Workspace

end FileCoverage
