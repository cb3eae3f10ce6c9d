import FileCoverage.Proofs.DatasetRoundTrip
import FileCoverage.Proofs.Except
import FileCoverage.Proofs.LongNumeral
import Mathlib.Data.List.Forall2

/-!
# Loading a dataset

A dataset gives a registry exactly if it has the form that a dataset has: an object with a list of
entries, each an object with a path that is not blank and flags that are true, false or absent.  A
file that is not there gives the empty registry.

Everything else is a fault, and all faults but one are foreseen.  The one is an integer of too many
digits, which the text must have for it to happen, wherever in the dataset it stands.
-/

namespace FileCoverage

/-! ### Files -/

namespace Workspace

variable {ws : Workspace} {path : Path}

/-- What is there to be read has no NUL in its path. -/
theorem readText_ne_nulInPath (there : ws.holds path = true) :
    ws.readText path ≠ .error .nulInPath := by
  have plain : hasNul path = false := by
    cases nul : hasNul path with
    | false => rfl
    | true =>
        rw [holds, entry, if_pos nul] at there
        cases there
  intro refused
  rw [readText, readBytes, plain, if_neg (by simp)] at refused
  split at refused
  · next content _ =>
      simp only [bind, Except.bind] at refused
      split at refused
      · cases refused
      · cases refused
  · cases refused
  · cases refused

end Workspace

/-! ### The form of a dataset -/

namespace Exemption

/-- The members give the flag: it is there as a boolean, or it is not there and false. -/
def HasFlag (members : Json.Members) (key : Text) (b : Bool) : Prop :=
  members.find? key = some (.boolean b) ∨ members.find? key = none ∧ b = false

/-- A JSON value lists a path, brought to its normal form, with an exemption. -/
inductive Lists : Json.Value → Text × Exemption → Prop where
  | object {members : Json.Members} {s : Json.Symbols} {e : Exemption}
      (path : members.find? pathKey = some (.string s)) (solid : Text.isAllBlank s.toText = false)
      (notRequired : HasFlag members testNotRequiredKey e.testFileNotRequired)
      (incompatible : HasFlag members incompatibleKey e.incompatibleWithCoverage) :
      Lists (.object members) (RepositoryPath.normalize s.toText, e)

theorem flag?_eq_some_iff {members : Json.Members} {key : Text} {b : Bool} :
    flag? members key = some b ↔ HasFlag members key b := by
  rw [flag?, HasFlag]
  cases members.find? key with
  | none => simp [eq_comm]
  | some v =>
      cases v with
      | boolean c => simp
      | _ => simp

theorem path?_eq_some_iff {members : Json.Members} {path : Text} :
    path? members = some path ↔ ∃ s : Json.Symbols, members.find? pathKey = some (.string s) ∧
      Text.isAllBlank s.toText = false ∧ path = s.toText := by
  rw [path?]
  cases members.find? pathKey with
  | none => simp
  | some v =>
      cases v with
      | string s =>
          rw [Option.ite_none_left_eq_some, Bool.not_eq_true, Option.some_inj]
          constructor
          · rintro ⟨solid, rfl⟩
            exact ⟨s, rfl, solid, rfl⟩
          · rintro ⟨_, ⟨⟩, solid, rfl⟩
            exact ⟨solid, rfl⟩
      | _ => simp

theorem flagsOf_eq_ok_iff {index : Nat} {path : Text} {members : Json.Members} {e : Exemption} :
    flagsOf index path members = .ok e ↔
      HasFlag members testNotRequiredKey e.testFileNotRequired ∧
        HasFlag members incompatibleKey e.incompatibleWithCoverage := by
  rw [← flag?_eq_some_iff, ← flag?_eq_some_iff, flagsOf]
  obtain ⟨notRequired, incompatible⟩ := e
  cases flag? members testNotRequiredKey with
  | none => simp
  | some b =>
      cases flag? members incompatibleKey with
      | none => simp
      | some c => simp

theorem ofJson_eq_ok_iff {index : Nat} {v : Json.Value} {entry : Text × Exemption} :
    ofJson index v = .ok entry ↔ Lists v entry := by
  constructor
  · intro read
    cases v with
    | object members =>
        rw [ofJson] at read
        cases found : path? members with
        | none =>
            rw [found] at read
            cases read
        | some path =>
            rw [found] at read
            obtain ⟨e, flags, rfl⟩ := map_eq_ok_iff.1 read
            obtain ⟨s, there, solid, rfl⟩ := path?_eq_some_iff.1 found
            obtain ⟨notRequired, incompatible⟩ := flagsOf_eq_ok_iff.1 flags
            exact .object there solid notRequired incompatible
    | _ => cases read
  · intro lists
    cases lists with
    | object there solid notRequired incompatible =>
        rw [ofJson, path?_eq_some_iff.2 ⟨_, there, solid, rfl⟩]
        exact map_eq_ok_iff.2 ⟨_, flagsOf_eq_ok_iff.2 ⟨notRequired, incompatible⟩, rfl⟩

theorem listOfJson_eq_ok_iff {index : Nat} {items : List Json.Value}
    {entries : List (Text × Exemption)} :
    listOfJson index items = .ok entries ↔ List.Forall₂ Lists items entries := by
  induction items generalizing index entries with
  | nil =>
      rw [listOfJson, List.forall₂_nil_left_iff]
      simp [eq_comm]
  | cons v rest ih =>
      rw [listOfJson, List.forall₂_cons_left_iff]
      cases first : ofJson index v with
      | error fault =>
          refine iff_of_false (by simp) ?_
          rintro ⟨entry, more, lists, _⟩
          rw [ofJson_eq_ok_iff.2 lists] at first
          cases first
      | ok entry =>
          simp only [map_eq_ok_iff, ih]
          constructor
          · rintro ⟨more, others, rfl⟩
            exact ⟨entry, more, ofJson_eq_ok_iff.1 first, others, rfl⟩
          · rintro ⟨entry', more, lists, others, rfl⟩
            have same : entry = entry' :=
              Except.ok.inj (first.symm.trans (ofJson_eq_ok_iff.2 lists))
            exact ⟨more, others, by rw [same]⟩

end Exemption

/-- A JSON value is a dataset of the entries, one after the other. -/
inductive IsDataset : Json.Value → List (Text × Exemption) → Prop where
  | absent {members : Json.Members} (list : members.find? Exemption.listKey = none) :
      IsDataset (.object members) []
  | listed {members : Json.Members} {items : List Json.Value} {entries : List (Text × Exemption)}
      (list : members.find? Exemption.listKey = some (.array items))
      (each : List.Forall₂ Exemption.Lists items entries) : IsDataset (.object members) entries

/-- Whether the fault is what comes of a file that cannot be read, or has another form. -/
def LoadFault.IsForeseen : LoadFault → Prop
  | .file _ .nulInPath => False
  | .file _ (.access _ _) | .file _ (.undecodable _) => True
  | .json _ (.malformed _ _) => True
  | .json _ (.numeral _) => False
  | .dataset _ => True

namespace Registry

variable {ws : Workspace} {path : Path} {r : Registry}

theorem ofJson_eq_ok_iff {v : Json.Value} :
    ofJson v = .ok r ↔ ∃ entries, IsDataset v entries ∧ r = ofEntries entries := by
  constructor
  · intro read
    cases v with
    | object members =>
        rw [ofJson] at read
        split at read
        · next list =>
            obtain rfl := Except.ok.inj read
            exact ⟨[], .absent list, rfl⟩
        · next items list =>
            obtain ⟨entries, each, rfl⟩ := map_eq_ok_iff.1 read
            exact ⟨entries, .listed list (Exemption.listOfJson_eq_ok_iff.1 each), rfl⟩
        · cases read
    | _ => cases read
  · rintro ⟨entries, dataset, rfl⟩
    cases dataset with
    | absent list =>
        rw [ofJson, list]
        rfl
    | listed list each =>
        rw [ofJson, list]
        exact map_eq_ok_iff.2 ⟨entries, Exemption.listOfJson_eq_ok_iff.2 each, rfl⟩

theorem ofJsonText_eq_ok_iff {t : Text} : ofJsonText path t = .ok r ↔
    ∃ v entries, Json.read t = .ok v ∧ IsDataset v entries ∧ r = ofEntries entries := by
  rw [ofJsonText]
  cases Json.read t with
  | error fault => simp
  | ok v => simp [mapError_eq_ok_iff, ofJson_eq_ok_iff]

theorem load_eq_ok_iff : load ws path = .ok r ↔
    ws.holds path = false ∧ r = empty ∨ ws.holds path = true ∧ ∃ t v entries,
      ws.readText path = .ok t ∧ Json.read t = .ok v ∧ IsDataset v entries ∧
        r = ofEntries entries := by
  rw [load]
  cases ws.holds path with
  | false => simp [eq_comm]
  | true =>
      cases ws.readText path with
      | error fault => simp
      | ok t => simp [ofJsonText_eq_ok_iff]

theorem foreseen_of_ofJsonText {t : Text} {fault : LoadFault}
    (refused : ofJsonText path t = .error fault) :
    fault.IsForeseen ∨ ∃ n, fault = .json path (.numeral (.tooLong n)) ∧ t.HasLongRun n := by
  rw [ofJsonText] at refused
  split at refused
  · next other stopped =>
      obtain rfl := Except.error.inj refused
      cases other with
      | malformed problem place => exact .inl trivial
      | numeral other =>
          obtain ⟨n, rfl, run⟩ := Json.hasLongRun_of_read stopped
          exact .inr ⟨n, rfl, run⟩
  · next v _ =>
      cases read : ofJson v with
      | ok r =>
          rw [read] at refused
          cases refused
      | error other =>
          rw [read] at refused
          obtain rfl := Except.error.inj refused
          exact .inl trivial

theorem foreseen_of_load {fault : LoadFault} (refused : load ws path = .error fault) :
    fault.IsForeseen ∨ ∃ t n, ws.readText path = .ok t ∧ t.HasLongRun n ∧
      fault = .json path (.numeral (.tooLong n)) := by
  rw [load] at refused
  split at refused
  · next there =>
      split at refused
      · next other stopped =>
          obtain rfl := Except.error.inj refused
          cases other with
          | nulInPath => exact absurd stopped (Workspace.readText_ne_nulInPath there)
          | access _ _ => exact .inl trivial
          | undecodable _ => exact .inl trivial
      · next t text =>
          rcases foreseen_of_ofJsonText refused with foreseen | ⟨n, rfl, run⟩
          · exact .inl foreseen
          · exact .inr ⟨t, n, text, run, rfl⟩
  · cases refused

/-- A file of too many digits and nothing else cannot be loaded, and that is not foreseen. -/
theorem load_of_long_run {c : Char} {s : Text}
    (read : ws.readBytes path = .ok (Utf8.encode (c :: s)))
    (digits : ∀ d ∈ c :: s, Text.isAsciiDigit d = true) (first : c ≠ '0')
    (many : Numeral.maxDigits < (c :: s).length) :
    load ws path = .error (.json path (.numeral (.tooLong (c :: s).length))) := by
  have unified : Text.unifyBreaks (c :: s) = c :: s := by
    apply Text.unifyBreaks_of_notMem
    intro mem
    cases digits _ mem
  rw [load, if_pos (Workspace.holds_of_readBytes read),
    Workspace.readText_eq_ok_of_encode read unified]
  simp only [ofJsonText, Json.read_of_long_run digits first many]

/--
Loading gives a registry exactly if nothing is there, which gives the empty one, or if what is there
can be read as a dataset, which gives its entries.  All else is a fault.  It is a foreseen one,
unless the text has more digits in a row than an integer may have.  A text is read here however deep
its arrays and objects are nested; a reader that runs out of its stack some thousand levels down is
left out.
-/
theorem load_foreseen_unless_long_run (ws : Workspace) (path : Path) :
    (∀ r, load ws path = .ok r ↔
      ws.holds path = false ∧ r = empty ∨ ws.holds path = true ∧ ∃ t v entries,
        ws.readText path = .ok t ∧ Json.read t = .ok v ∧ IsDataset v entries ∧
          r = ofEntries entries) ∧
    ∀ fault, load ws path = .error fault → fault.IsForeseen ∨
      ∃ t n, ws.readText path = .ok t ∧ t.HasLongRun n ∧
        fault = .json path (.numeral (.tooLong n)) :=
  ⟨fun _ => load_eq_ok_iff, fun _ => foreseen_of_load⟩

end Registry

namespace Sample

/-- A dataset that is no text, and one that is a folder. -/
def unreadableDatasets : Workspace := ⟨.file "bytes" [0xff] (.folder "folder" .empty .empty), []⟩

/-- A dataset that is an integer of one digit too many. -/
def longNumeral : Workspace :=
  ⟨.file "dataset" (Utf8.encode ('7' :: List.replicate 4300 '7')) .empty, []⟩

end Sample

open Sample Registry in
/-- A dataset with two entries, one that is not there, and two that are not read. -/
theorem load_foreseen_unless_long_run_of_samples :
    load datasetWorkspace ⟨.relative, ["dataset"]⟩ = .ok escaped ∧
    load datasetWorkspace ⟨.relative, ["missing"]⟩ = .ok empty ∧
    (∃ fault, load unreadableDatasets ⟨.relative, ["bytes"]⟩ = .error fault ∧ fault.IsForeseen) ∧
    ∃ fault, load unreadableDatasets ⟨.relative, ["folder"]⟩ = .error fault ∧ fault.IsForeseen := by
  obtain ⟨loaded, _⟩ := load_foreseen_unless_long_run datasetWorkspace ⟨.relative, ["dataset"]⟩
  obtain ⟨absent, _⟩ := load_foreseen_unless_long_run datasetWorkspace ⟨.relative, ["missing"]⟩
  obtain ⟨_, bytes⟩ := load_foreseen_unless_long_run unreadableDatasets ⟨.relative, ["bytes"]⟩
  obtain ⟨_, folder⟩ := load_foreseen_unless_long_run unreadableDatasets ⟨.relative, ["folder"]⟩
  refine ⟨(loaded escaped).2 ?_, (absent empty).2 (.inl ⟨rfl, rfl⟩), ?_, ?_⟩
  · have unified : Text.unifyBreaks escaped.toJsonText = escaped.toJsonText :=
      Text.unifyBreaks_of_notMem (Json.carriageReturn_notMem_print escaped.textual_toJson)
    obtain ⟨entries, dataset, eq⟩ := ofJson_eq_ok_iff.1
      (show ofJson escaped.toJson = .ok escaped from rfl)
    exact .inr ⟨rfl, _, _, entries, Workspace.readText_eq_ok_of_encode rfl unified,
      read_toJsonText escaped, dataset, eq⟩
  · rcases bytes _ rfl with foreseen | ⟨t, n, text, _⟩
    · exact ⟨_, rfl, foreseen⟩
    · cases text
  · rcases folder _ rfl with foreseen | ⟨t, n, text, _⟩
    · exact ⟨_, rfl, foreseen⟩
    · cases text

open Sample Registry in
/-- What comes of an integer of 4301 digits is not foreseen. -/
theorem long_numeral_is_not_foreseen :
    load longNumeral ⟨.relative, ["dataset"]⟩ =
      .error (.json ⟨.relative, ["dataset"]⟩ (.numeral (.tooLong 4301))) ∧
    ¬ (LoadFault.json ⟨.relative, ["dataset"]⟩ (.numeral (.tooLong 4301))).IsForeseen := by
  refine ⟨?_, id⟩
  have digits : ∀ d ∈ '7' :: List.replicate 4300 '7', Text.isAsciiDigit d = true := by
    intro d mem
    rw [← List.replicate_succ] at mem
    rw [List.eq_of_mem_replicate mem]
    rfl
  have length : ('7' :: List.replicate 4300 '7').length = 4301 := by
    rw [List.length_cons, List.length_replicate]
  have read : longNumeral.readBytes ⟨.relative, ["dataset"]⟩ =
      .ok (Utf8.encode ('7' :: List.replicate 4300 '7')) := rfl
  rw [load_of_long_run read digits (by decide) (by rw [length]; decide), length]

end FileCoverage
