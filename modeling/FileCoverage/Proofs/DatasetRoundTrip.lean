import FileCoverage.Exemption.Dataset
import FileCoverage.Proofs.JsonRoundTrip
import FileCoverage.Proofs.Utf8RoundTrip
import Mathlib.Data.List.TakeWhile

/-!
# A registry is read back from its dataset

A registry written as a dataset is read back with its paths brought to their normal form, in its
order and with its flags.  Paths that become the same are one entry then.  A path of nothing but
blanks is refused, so a registry that has one cannot be read back.
-/

namespace FileCoverage

namespace Text

theorem trim_eq_nil_iff (t : Text) : trim t = [] ↔ isAllBlank t = true := by
  rw [trim, trimBy, List.reverse_eq_nil_iff, List.dropWhile_eq_nil_iff, isAllBlank,
    List.all_eq_true]
  simp only [List.mem_reverse]
  constructor
  · intro rest c mem
    rw [← List.takeWhile_append_dropWhile (p := isBlank) (l := t), List.mem_append] at mem
    exact mem.elim (fun first => List.mem_takeWhile_imp first) (rest c)
  · intro all c mem
    exact all c ((List.dropWhile_suffix _).subset mem)

theorem unifyBreaks_of_notMem {t : Text} (h : '\r' ∉ t) : unifyBreaks t = t := by
  induction t with
  | nil => rfl
  | cons c t ih =>
      rw [List.mem_cons, not_or] at h
      rw [unifyBreaks, if_neg (Ne.symm h.1), ih h.2]
      rintro rest rfl
      exact absurd rfl h.1

end Text

namespace Workspace

variable {ws : Workspace} {path : Path}

theorem holds_of_readBytes {content : Bytes} (read : ws.readBytes path = .ok content) :
    ws.holds path = true := by
  rw [readBytes] at read
  split at read
  · cases read
  · rw [holds]
    split at read
    · next found => rw [found]; rfl
    · cases read
    · cases read

theorem readText_eq_ok_of_encode {t : Text} (read : ws.readBytes path = .ok (Utf8.encode t))
    (unified : Text.unifyBreaks t = t) : ws.readText path = .ok t := by
  simp only [readText, read, bind, Except.bind, Utf8.decode_encode, unified]

end Workspace

namespace Exemption

theorem flagsOf_toJson (index : Nat) (path : Text) (e : Exemption) (content : Json.Value) :
    flagsOf index path ((.ofText pathKey, content) ::
      e.flagKeys.map fun key => (.ofText key, .boolean true)) = .ok e := by
  obtain ⟨_ | _, _ | _⟩ := e <;> rfl

theorem path?_toJson (path : Text) (others : Json.Members) :
    path? ((.ofText pathKey, .string (.ofText path)) :: others) =
      if Text.trim path = [] then none else some path := by
  have found : Json.Members.find? ((.ofText pathKey, .string (.ofText path)) :: others) pathKey =
      some (.string (.ofText path)) := by
    rw [Json.Members.find?, KeyedList.get?, if_pos rfl]
  simp only [path?, found, Json.Symbols.toText_ofText, Text.trim_eq_nil_iff]

theorem ofJson_toJson_of_blank (index : Nat) {path : Text} (e : Exemption)
    (blank : Text.trim path = []) : ofJson index (e.toJson path) = .error (.missingPath index) := by
  rw [toJson, ofJson, path?_toJson, if_pos blank]

theorem ofJson_toJson_of_not_blank (index : Nat) {path : Text} (e : Exemption)
    (solid : Text.trim path ≠ []) :
    ofJson index (e.toJson path) = .ok (RepositoryPath.normalize path, e) := by
  rw [toJson, ofJson, path?_toJson, if_neg solid]
  simp only [flagsOf_toJson]
  rfl

theorem listOfJson_of_blank {entries : List (Text × Exemption)}
    (blank : ∃ entry ∈ entries, Text.trim entry.1 = []) (start : Nat) :
    ∃ index path, (entries.map (·.1))[index]? = some path ∧ Text.trim path = [] ∧
      listOfJson start (entries.map fun (path, e) => e.toJson path) =
        .error (.missingPath (start + index)) := by
  induction entries generalizing start with
  | nil => simp at blank
  | cons entry entries ih =>
      obtain ⟨path, e⟩ := entry
      by_cases first : Text.trim path = []
      · refine ⟨0, path, rfl, first, ?_⟩
        rw [List.map_cons, listOfJson, ofJson_toJson_of_blank start e first]
        rfl
      · obtain ⟨index, path', there, blank', refused⟩ :=
          ih (by simpa [first] using blank) (start + 1)
        refine ⟨index + 1, path', there, blank', ?_⟩
        rw [List.map_cons, listOfJson, ofJson_toJson_of_not_blank start e first]
        simp only [refused, Except.map]
        rw [Nat.add_assoc, Nat.add_comm 1]

theorem listOfJson_of_not_blank {entries : List (Text × Exemption)}
    (solid : ∀ entry ∈ entries, Text.trim entry.1 ≠ []) (start : Nat) :
    listOfJson start (entries.map fun (path, e) => e.toJson path) =
      .ok (entries.map fun (path, e) => (RepositoryPath.normalize path, e)) := by
  induction entries generalizing start with
  | nil => rfl
  | cons entry entries ih =>
      obtain ⟨path, e⟩ := entry
      rw [List.map_cons, listOfJson,
        ofJson_toJson_of_not_blank start e (solid _ List.mem_cons_self)]
      simp only [ih (fun other mem => solid other (List.mem_cons_of_mem _ mem)) (start + 1)]
      rfl

theorem textual_toJson (path : Text) (e : Exemption) : (e.toJson path).Textual := by
  refine .object ?_ ?_ ?_
  · have keys : KeyedList.keys ((.ofText pathKey, .string (.ofText path)) ::
        e.flagKeys.map fun key => (.ofText key, .boolean true) : Json.Members) =
        (pathKey :: e.flagKeys).map .ofText := by simp [KeyedList.keys, Function.comp_def]
    rw [keys]
    obtain ⟨_ | _, _ | _⟩ := e <;> decide
  · intro member mem
    rcases List.mem_cons.1 mem with rfl | flag
    · exact ⟨_, rfl⟩
    · obtain ⟨key, _, rfl⟩ := List.mem_map.1 flag
      exact ⟨key, rfl⟩
  · intro member mem
    rcases List.mem_cons.1 mem with rfl | flag
    · exact .string path
    · obtain ⟨key, _, rfl⟩ := List.mem_map.1 flag
      exact .boolean true

end Exemption

namespace Registry

theorem textual_toJson (r : Registry) : r.toJson.Textual := by
  refine .object (by simp [KeyedList.keys]) (fun member mem => ?_) (fun member mem => ?_)
  · obtain rfl := List.mem_singleton.1 mem
    exact ⟨_, rfl⟩
  · obtain rfl := List.mem_singleton.1 mem
    refine .array fun item mem => ?_
    obtain ⟨⟨path, e⟩, _, rfl⟩ := List.mem_map.1 mem
    exact e.textual_toJson path

theorem read_toJsonText (r : Registry) : Json.read r.toJsonText = .ok r.toJson :=
  Json.read_print r.textual_toJson

theorem ofEntries_entries (r : Registry) : ofEntries r.entries = r := by
  obtain ⟨entries, distinct⟩ := r
  simp only [ofEntries, KeyedList.ofPairs_of_nodup_keys distinct]

theorem ofJson_toJson_of_blank {r : Registry} (blank : ∃ path ∈ r.paths, Text.trim path = []) :
    ∃ index path, r.paths[index]? = some path ∧ Text.trim path = [] ∧
      ofJson r.toJson = .error (.missingPath index) := by
  obtain ⟨_, listed, blank⟩ := blank
  obtain ⟨entry, mem, rfl⟩ := List.mem_map.1 listed
  obtain ⟨index, path, there, blank, refused⟩ :=
    Exemption.listOfJson_of_blank ⟨entry, mem, blank⟩ 0
  refine ⟨index, path, there, blank, ?_⟩
  change (Exemption.listOfJson 0 _).map ofEntries = _
  rw [refused, Nat.zero_add]
  rfl

theorem ofJson_toJson_of_not_blank {r : Registry} (solid : ∀ path ∈ r.paths, Text.trim path ≠ []) :
    ofJson r.toJson =
      .ok (ofEntries (r.entries.map fun (path, e) => (RepositoryPath.normalize path, e))) := by
  change (Exemption.listOfJson 0 _).map ofEntries = _
  rw [Exemption.listOfJson_of_not_blank (fun entry mem => solid _ (List.mem_map_of_mem mem)) 0]
  rfl

theorem load_of_readBytes {r : Registry} {ws : Workspace} {path : Path}
    (written : ws.readBytes path = .ok (Utf8.encode r.toJsonText)) :
    load ws path = (ofJson r.toJson).mapError .dataset := by
  have unified : Text.unifyBreaks r.toJsonText = r.toJsonText :=
    Text.unifyBreaks_of_notMem (Json.carriageReturn_notMem_print r.textual_toJson)
  rw [load, if_pos (Workspace.holds_of_readBytes written),
    Workspace.readText_eq_ok_of_encode written unified]
  simp only [ofJsonText, read_toJsonText]

/--
A registry is the value of its dataset.  Read back, it is refused if a path of it is blank; if not,
it has the same entries in their order, each path in normal form.  Paths that are in normal form
already give the same registry again.  A file with the dataset in UTF-8 is loaded as the value is.
-/
theorem json_round_trip (r : Registry) :
    Json.read r.toJsonText = .ok r.toJson ∧
    ((∃ path ∈ r.paths, Text.trim path = []) →
      ∃ index path, r.paths[index]? = some path ∧ Text.trim path = [] ∧
        ofJson r.toJson = .error (.missingPath index)) ∧
    ((∀ path ∈ r.paths, Text.trim path ≠ []) →
      ofJson r.toJson =
        .ok (ofEntries (r.entries.map fun (path, e) => (RepositoryPath.normalize path, e)))) ∧
    ((∀ path ∈ r.paths, Text.trim path ≠ [] ∧ RepositoryPath.normalize path = path) →
      ofJson r.toJson = .ok r) ∧
    ∀ (ws : Workspace) (path : Path), ws.readBytes path = .ok (Utf8.encode r.toJsonText) →
      load ws path = (ofJson r.toJson).mapError .dataset := by
  refine ⟨r.read_toJsonText, ofJson_toJson_of_blank, ofJson_toJson_of_not_blank, ?_, ?_⟩
  · intro normal
    have same :
        r.entries.map (fun (path, e) => (RepositoryPath.normalize path, e)) = r.entries := by
      refine (List.map_congr_left fun entry mem => ?_).trans (List.map_id _)
      exact Prod.ext (normal _ (List.mem_map_of_mem mem)).2 rfl
    rw [ofJson_toJson_of_not_blank fun path mem => (normal path mem).1, same, ofEntries_entries]
  · exact fun ws path written => load_of_readBytes written

end Registry

/-- Two spellings of one path. -/
def Sample.spellings : Registry := .ofEntries [("./A.kt", ⟨true, false⟩), ("A.kt", ⟨false, true⟩)]

def Sample.withBlank : Registry := .ofEntries [("A.kt", ⟨true, false⟩), (" \t", ⟨true, true⟩)]

/-- Paths in normal form with characters that a JSON string cannot hold as they are. -/
def Sample.escaped : Registry :=
  .ofEntries [("b/\"\x01\u2028.kt", ⟨false, false⟩), ("a/\r\n😀.kt", ⟨true, true⟩)]

def Sample.datasetWorkspace : Workspace :=
  ⟨.file "dataset" (Utf8.encode Sample.escaped.toJsonText) .empty, []⟩

open Sample in
/-- The spellings become one entry, the blank path is refused, and the others come back. -/
theorem json_round_trip_of_spellings :
    Registry.ofJson spellings.toJson = .ok (.ofEntries [("A.kt", ⟨false, true⟩)]) ∧
    (∃ index, Registry.ofJson withBlank.toJson = .error (.missingPath index)) ∧
    Registry.load datasetWorkspace ⟨.relative, ["dataset"]⟩ = .ok escaped := by
  have solid : ∀ path ∈ spellings.paths, Text.trim path ≠ [] := by decide
  have blank : ∃ path ∈ withBlank.paths, Text.trim path = [] := by decide
  have normal : ∀ path ∈ escaped.paths,
      Text.trim path ≠ [] ∧ RepositoryPath.normalize path = path := by decide
  refine ⟨(Registry.json_round_trip spellings).2.2.1 solid, ?_, ?_⟩
  · obtain ⟨index, _, _, _, refused⟩ := (Registry.json_round_trip withBlank).2.1 blank
    exact ⟨index, refused⟩
  · rw [(Registry.json_round_trip escaped).2.2.2.2 datasetWorkspace ⟨.relative, ["dataset"]⟩ rfl,
      (Registry.json_round_trip escaped).2.2.2.1 normal]
    rfl

end FileCoverage
