import FileCoverage.Exemption.Registry
import FileCoverage.Proofs.KeyedList
import Mathlib.Data.List.Basic

/-!
# Registries of listed entries

The entries of a list are put into a registry one after the other.  A path stays at the place where
it first came, and what was listed for it last is what counts.  Regenerating makes another registry,
which has the same paths at the same places; regenerating that one changes nothing.

A path that is looked up is normalized, and one that is listed is not.  So what is exempt after
regenerating are the files whose normal form is listed.  A path that is listed in another form stays
in the registry and is there for no file.
-/

namespace FileCoverage

namespace KeyedList

variable {κ α : Type} {pairs : List (κ × α)} {key : κ} {value : α}

/-- The last of the pairs with a key has the value. -/
def IsLast (pairs : List (κ × α)) (key : κ) (value : α) : Prop :=
  ∃ before after, pairs = before ++ (key, value) :: after ∧ key ∉ keys after

/-- One key is there before another one comes for the first time. -/
def ComesFirst (keys : List κ) (key later : κ) : Prop :=
  ∃ before after, keys = before ++ later :: after ∧ key ∈ before ∧ later ∉ before

theorem keys_append_singleton (pairs : List (κ × α)) (last : κ × α) :
    keys (pairs ++ [last]) = keys pairs ++ [last.1] :=
  List.map_append

variable [DecidableEq κ]

/-- One more pair decides for its key, and for no other. -/
theorem isLast_append_singleton_iff (last : κ × α) :
    IsLast (pairs ++ [last]) key value ↔
      if key = last.1 then value = last.2 else IsLast pairs key value := by
  constructor
  · rintro ⟨before, after, eq, later⟩
    rcases List.eq_nil_or_concat' after with rfl | ⟨after, other, rfl⟩
    · obtain rfl := List.singleton_inj.1 (List.append_inj_right' eq rfl)
      exact (if_pos rfl).mpr rfl
    · rw [← List.cons_append, ← List.append_assoc] at eq
      obtain rfl := List.singleton_inj.1 (List.append_inj_right' eq rfl)
      rw [keys_append_singleton, List.mem_append, List.mem_singleton, not_or] at later
      rw [if_neg later.2]
      exact ⟨before, after, List.append_inj_left' eq rfl, later.1⟩
  · intro decided
    split at decided
    · next same =>
        refine ⟨pairs, [], ?_, List.not_mem_nil⟩
        rw [same, decided]
    · next other =>
        obtain ⟨before, after, rfl, later⟩ := decided
        refine ⟨before, after ++ [last], by simp, ?_⟩
        rw [keys_append_singleton, List.mem_append, List.mem_singleton, not_or]
        exact ⟨later, other⟩

/-- A key has the value that came with it last. -/
theorem get?_ofPairs_eq_some_iff : get? key (ofPairs pairs) = some value ↔
    IsLast pairs key value := by
  induction pairs using List.reverseRecOn with
  | nil => exact iff_of_false (by simp) fun ⟨_, _, eq, _⟩ => by simp at eq
  | append_singleton pairs last ih =>
      rw [ofPairs_append_singleton, get?_put, isLast_append_singleton_iff, ← ih]
      split
      · exact Option.some_inj.trans eq_comm
      · rfl

theorem mem_ofPairs_iff : (key, value) ∈ ofPairs pairs ↔ IsLast pairs key value := by
  rw [← get?_ofPairs_eq_some_iff, get?_eq_some_iff (nodup_keys_ofPairs pairs)]

theorem mem_keys_ofPairs_iff : key ∈ keys (ofPairs pairs) ↔ key ∈ keys pairs := by
  rw [keys_ofPairs, List.mem_eraseDups, keys]

/-- The keys stand in the order in which they first came. -/
theorem pairwise_keys_ofPairs (pairs : List (κ × α)) :
    (keys (ofPairs pairs)).Pairwise (ComesFirst (keys pairs)) := by
  induction pairs using List.reverseRecOn with
  | nil => exact .nil
  | append_singleton pairs last ih =>
      rw [ofPairs_append_singleton, keys_put, keys_append_singleton]
      have kept : (keys (ofPairs pairs)).Pairwise (ComesFirst (keys pairs ++ [last.1])) := by
        refine ih.imp fun ⟨before, after, eq, first⟩ => ⟨before, after ++ [last.1], ?_, first⟩
        rw [eq, List.append_assoc, List.cons_append]
      split
      · exact kept
      · next new =>
          refine List.pairwise_append.2 ⟨kept, List.pairwise_singleton _ _, ?_⟩
          intro key mem other here
          obtain rfl := List.mem_singleton.1 here
          exact ⟨keys pairs, [], rfl, mem_keys_ofPairs_iff.1 mem, mt mem_keys_ofPairs_iff.2 new⟩

end KeyedList

namespace Registry

open RepositoryPath

variable {entries : List (Text × Exemption)} {path : Text} {e : Exemption}

/-- Of the entries that are listed for a path, the last one counts. -/
theorem lookup_ofEntries_eq_iff : (ofEntries entries).lookup path = e ↔
    KeyedList.IsLast entries (normalize path) e ∨
      normalize path ∉ entries.map (·.1) ∧ e = .nothing := by
  rw [← KeyedList.get?_ofPairs_eq_some_iff, ← KeyedList.keys, ← KeyedList.mem_keys_ofPairs_iff,
    ← KeyedList.get?_eq_none_iff, lookup, ofEntries]
  cases KeyedList.get? (normalize path) (KeyedList.ofPairs entries) with
  | none => simp [eq_comm]
  | some found => simp

/-! ### Regenerating -/

theorem entries_regenerate (r : Registry) :
    r.regenerate.entries = r.paths.map fun path => (path, ⟨true, false⟩) := by
  apply KeyedList.ofPairs_of_nodup_keys
  rw [KeyedList.keys, List.map_map]
  exact (List.map_id r.paths).symm ▸ r.nodup_paths

theorem paths_regenerate (r : Registry) : r.regenerate.paths = r.paths := by
  rw [paths, entries_regenerate, KeyedList.keys, List.map_map]
  exact List.map_id r.paths

/-- What is regenerated depends on the paths only. -/
theorem regenerate_regenerate (r : Registry) : r.regenerate.regenerate = r.regenerate := by
  rw [regenerate, paths_regenerate, ← regenerate]

theorem lookup_regenerate (r : Registry) (path : Text) :
    r.regenerate.lookup path = if normalize path ∈ r.paths then ⟨true, false⟩ else .nothing := by
  rw [lookup]
  split
  · next listed =>
      have mem : (normalize path, ⟨true, false⟩) ∈ r.regenerate.entries := by
        rw [entries_regenerate]
        exact List.mem_map_of_mem listed
      rw [(KeyedList.get?_eq_some_iff r.regenerate.nodup_paths).2 mem]
      rfl
  · next unlisted =>
      rw [← paths_regenerate] at unlisted
      rw [(KeyedList.get?_eq_none_iff _ _).2 unlisted]
      rfl

/--
A registry holds every path that is listed, each once, in the order in which they first came, and
for each of them what was listed last.  The one that is regenerated from it has the same paths in
the same order, and regenerating it again gives the same registry.  There a file needs no test
exactly if its normal form is listed, and none is left out of coverage analysis.  The first registry
still answers by what was listed last for the normal form of a path.
-/
theorem listed_then_regenerated (entries : List (Text × Exemption)) :
    let r := ofEntries entries
    let regenerated := r.regenerate
    (r.paths.Nodup ∧ (∀ path, path ∈ r.paths ↔ path ∈ entries.map (·.1)) ∧
      r.paths.Pairwise (KeyedList.ComesFirst (entries.map (·.1)))) ∧
    (∀ path e, (path, e) ∈ r.entries ↔ KeyedList.IsLast entries path e) ∧
    (regenerated.paths = r.paths ∧ regenerated.regenerate = regenerated) ∧
    ∀ path,
      (regenerated.requiresTestFile path = false ↔ normalize path ∈ r.paths) ∧
      regenerated.isCoverageExempt path = false ∧
      ∀ e, r.lookup path = e ↔
        KeyedList.IsLast entries (normalize path) e ∨
          normalize path ∉ entries.map (·.1) ∧ e = .nothing := by
  intro r regenerated
  refine ⟨⟨r.nodup_paths, fun path => KeyedList.mem_keys_ofPairs_iff,
    KeyedList.pairwise_keys_ofPairs entries⟩, fun path e => KeyedList.mem_ofPairs_iff,
    ⟨paths_regenerate r, regenerate_regenerate r⟩, fun path => ?_⟩
  have answer : regenerated.lookup path = _ := lookup_regenerate r path
  refine ⟨?_, ?_, fun e => lookup_ofEntries_eq_iff⟩
  · rw [requiresTestFile, answer]
    split
    · next listed => exact iff_of_true rfl listed
    · next unlisted => exact iff_of_false (by decide) unlisted
  · rw [isCoverageExempt, answer]
    split <;> rfl

/-- A path that is listed with `./` in front stays so, and is not found. -/
example :
    let r := ofEntries [("B.kt", ⟨true, true⟩), ("./A.kt", ⟨true, false⟩), ("B.kt", ⟨false, true⟩)]
    r.paths = ["B.kt", "./A.kt"] ∧ r.lookup "./B.kt" = ⟨false, true⟩ ∧
    r.regenerate.lookup "./B.kt" = ⟨true, false⟩ ∧
    r.regenerate.requiresTestFile "./A.kt" = true := by
  decide

end Registry

end FileCoverage
