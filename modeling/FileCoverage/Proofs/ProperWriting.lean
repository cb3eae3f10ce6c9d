import FileCoverage.Proofs.ListingOrder

/-!
# Writing keeps a directory proper

A file system that holds proper directories does so after a text has been written.  The entries that
are made have the names of the path, and each of them replaces the entry of its name.
-/

namespace FileCoverage

/-- An entry in which each directory is as a file system holds it. -/
def Entry.IsProper : Entry → Prop
  | .file _ => True
  | .folder inside => inside.IsProper

namespace Directory

variable {d top inside : Directory} {entry : Entry} {name other : Text} {place : List Text}

theorem isProper_cons_iff : (cons name entry d).IsProper ↔
    IsEntryName name ∧ name ∉ d.entryNames ∧ entry.IsProper ∧ d.IsProper := by
  cases entry <;> simp [cons, IsProper, Entry.IsProper]

theorem mem_entryNames_iff : name ∈ d.entryNames ↔ ∃ entry, d.find? name = some entry := by
  refine ⟨fun mem => ?_, fun ⟨entry, found⟩ => mem_entryNames_of_find? found⟩
  induction d with
  | empty => cases mem
  | file n content rest ih =>
      rw [find?]
      split
      · exact ⟨_, rfl⟩
      · next other => exact ih ((List.mem_cons.1 mem).resolve_left (Ne.symm other))
  | folder n inside rest _ ih =>
      rw [find?]
      split
      · exact ⟨_, rfl⟩
      · next other => exact ih ((List.mem_cons.1 mem).resolve_left (Ne.symm other))

theorem mem_entryNames_set (mem : other ∈ (d.set name entry).entryNames) :
    other = name ∨ other ∈ d.entryNames := by
  obtain ⟨found, there⟩ := mem_entryNames_iff.1 mem
  rw [find?_set] at there
  split at there
  · next same => exact .inl same.symm
  · exact .inr (mem_entryNames_of_find? there)

namespace IsProper

theorem set (proper : d.IsProper) (isName : IsEntryName name) (below : entry.IsProper) :
    (d.set name entry).IsProper := by
  induction d with
  | empty => exact isProper_cons_iff.2 ⟨isName, List.not_mem_nil, below, trivial⟩
  | file n content rest ih =>
      obtain ⟨named, new, later⟩ := proper
      rw [Directory.set]
      split
      · next same => exact isProper_cons_iff.2 ⟨isName, same ▸ new, below, later⟩
      · next apart => exact ⟨named, fun mem => (mem_entryNames_set mem).elim apart new, ih later⟩
  | folder n inside rest _ ih =>
      obtain ⟨named, new, within, later⟩ := proper
      rw [Directory.set]
      split
      · next same => exact isProper_cons_iff.2 ⟨isName, same ▸ new, below, later⟩
      · next apart =>
          exact ⟨named, fun mem => (mem_entryNames_set mem).elim apart new, within, ih later⟩

theorem of_find? (proper : d.IsProper) (found : d.find? name = some (.folder inside)) :
    inside.IsProper :=
  proper.of_mem_folders (mem_folders_of_find? found)

theorem of_at? (proper : top.IsProper) (folder : top.at? place = some (.folder inside)) :
    inside.IsProper := by
  induction place generalizing top with
  | nil =>
      obtain rfl := Entry.folder.inj (Option.some.inj folder)
      exact proper
  | cons first place ih =>
      obtain ⟨d, found, below⟩ := find?_eq_folder folder
      exact ih (proper.of_find? found) below

theorem put (proper : top.IsProper) (folder : top.at? place = some (.folder inside))
    (isName : IsEntryName name) (below : entry.IsProper) :
    (top.put entry (place ++ [name])).IsProper := by
  induction place generalizing top with
  | nil => exact proper.set isName below
  | cons first place ih =>
      obtain ⟨d, found, rest⟩ := find?_eq_folder folder
      rw [put_cons entry first name place found]
      exact proper.set (proper.isEntryName (mem_entryNames_of_find? found))
        (ih (proper.of_find? found) rest)

end IsProper

end Directory

namespace Workspace

open Directory

variable {ws made : Workspace} {p : Path}

theorem isProper_makeFolder (proper : ws.top.IsProper) (named : ∀ name ∈ p.names, IsEntryName name)
    (h : ws.makeFolder p = .ok made) : made.top.IsProper := by
  obtain ⟨place, inside, name, mem, folder, _, rfl⟩ := makeFolder_eq_ok h
  exact proper.put folder (named name mem) trivial

theorem isProper_makeFoldersAt (proper : ws.top.IsProper) (anchor : Anchor) {reversed : List Text}
    (named : ∀ name ∈ reversed, IsEntryName name) :
    (ws.makeFoldersAt anchor reversed).1.top.IsProper := by
  induction reversed with
  | nil => exact proper
  | cons name above ih =>
      have ih := ih fun name mem => named name (List.mem_cons_of_mem _ mem)
      have named : ∀ other ∈ (name :: above).reverse, IsEntryName other :=
        fun other mem => named other (List.mem_reverse.1 mem)
      rw [makeFoldersAt.eq_def]
      simp only
      split
      · next made => exact isProper_makeFolder proper named made
      · split
        · next stopped =>
            rw [stopped] at ih
            exact ih
        · next between stopped =>
            rw [stopped] at ih
            split
            · next made => exact isProper_makeFolder ih named made
            · exact ih
      · exact proper

theorem isProper_makeFolders (proper : ws.top.IsProper)
    (named : ∀ name ∈ p.names, IsEntryName name) : (ws.makeFolders p).1.top.IsProper := by
  rw [makeFolders]
  split
  · exact proper
  · exact isProper_makeFoldersAt proper p.anchor fun name mem => named name (List.mem_reverse.1 mem)

theorem isProper_setContent {place : List Text} (proper : ws.top.IsProper)
    (named : ∀ name ∈ p.names, IsEntryName name) (there : ws.placeToWrite p = .ok place)
    (content : Bytes) : (ws.setContent place content).top.IsProper := by
  obtain ⟨above, inside, name, split, _, _, folder, _, rfl⟩ := placeToWrite_eq_ok there
  refine proper.put folder (named name ?_) trivial
  rw [split]
  exact List.mem_append_right _ List.mem_cons_self

theorem isProper_writeText (proper : ws.top.IsProper) (named : ∀ name ∈ p.names, IsEntryName name)
    (storage : Storage) (t : Text) : (ws.writeText storage p t).1.top.IsProper := by
  have folders := isProper_makeFolders (p := p.parent) proper
    fun name mem => named name (List.dropLast_subset _ mem)
  rw [writeText]
  rcases made : ws.makeFolders p.parent with ⟨between, _ | fault⟩
  all_goals rw [made] at folders
  · rcases between.writeBytes_cases storage p (Utf8.encode t) with
      same | ⟨place, there, found, changed⟩
    · simpa only [same] using folders
    · simpa only [changed] using isProper_setContent folders named there found
  · exact folders

end Workspace

end FileCoverage
