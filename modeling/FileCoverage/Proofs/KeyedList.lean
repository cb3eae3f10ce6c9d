import FileCoverage.KeyedList
import Mathlib.Data.List.Induction

/-!
# Pairs put one after the other

The keys of `ofPairs` are those of the pairs, each at the place where it first came, and every value
is one that came with its key.
-/

namespace FileCoverage.KeyedList

variable {κ α : Type} [DecidableEq κ]

theorem mem_put {key : κ} {value : α} {l : KeyedList κ α} {pair : κ × α}
    (h : pair ∈ put key value l) : pair = (key, value) ∨ pair ∈ l := by
  induction l with
  | nil => exact .inl (by simpa [put] using h)
  | cons first rest ih =>
      rw [put] at h
      split at h
      · next same =>
          rcases List.mem_cons.1 h with rfl | later
          · exact .inl (by rw [same])
          · exact .inr (List.mem_cons_of_mem _ later)
      · rcases List.mem_cons.1 h with rfl | later
        · exact .inr (by simp)
        · rcases ih later with new | old
          · exact .inl new
          · exact .inr (List.mem_cons_of_mem _ old)

theorem mem_of_mem_ofPairs {pairs : List (κ × α)} {pair : κ × α} (h : pair ∈ ofPairs pairs) :
    pair ∈ pairs := by
  induction pairs using List.reverseRecOn with
  | nil => exact h
  | append_singleton pairs last ih =>
      rw [ofPairs_append_singleton] at h
      rcases mem_put h with rfl | old
      · simp
      · exact List.mem_append_left _ (ih old)

theorem keys_ofPairs (pairs : List (κ × α)) :
    keys (ofPairs pairs) = (pairs.map (·.1)).eraseDups := by
  induction pairs using List.reverseRecOn with
  | nil => rfl
  | append_singleton pairs last ih =>
      have old : last.1 ∈ keys (ofPairs pairs) ↔ last.1 ∈ pairs.map (·.1) := by
        rw [ih, List.mem_eraseDups]
      rw [ofPairs_append_singleton, keys_put, List.map_append, List.eraseDups_append, ← ih]
      by_cases mem : last.1 ∈ pairs.map (·.1)
      · rw [if_pos (old.2 mem)]
        simp [List.removeAll, mem]
      · rw [if_neg (mt old.1 mem)]
        simp [List.removeAll, mem, List.eraseDups_cons]

theorem put_of_notMem_keys {key : κ} (value : α) {l : KeyedList κ α} (new : key ∉ keys l) :
    put key value l = l ++ [(key, value)] := by
  induction l with
  | nil => rfl
  | cons first rest ih =>
      rw [keys, List.map_cons, List.mem_cons, not_or] at new
      rw [put, if_neg (Ne.symm new.1), ih new.2, List.cons_append]

/-- Pairs whose keys are distinct are put as they are. -/
theorem ofPairs_of_nodup_keys {pairs : List (κ × α)} (distinct : (keys pairs).Nodup) :
    ofPairs pairs = pairs := by
  induction pairs using List.reverseRecOn with
  | nil => rfl
  | append_singleton pairs last ih =>
      rw [keys, List.map_append, List.nodup_append] at distinct
      obtain ⟨distinct, -, apart⟩ := distinct
      have new : last.1 ∉ keys pairs := fun old => apart _ old _ (by simp) rfl
      rw [ofPairs_append_singleton, ih distinct, put_of_notMem_keys last.2 new]

theorem mem_of_get?_eq_some {key : κ} {value : α} {l : KeyedList κ α}
    (h : get? key l = some value) : (key, value) ∈ l := by
  induction l with
  | nil => simp at h
  | cons first rest ih =>
      rw [get?] at h
      split at h
      · next same =>
          obtain rfl := Option.some.inj h
          simp [← same]
      · exact List.mem_cons_of_mem _ (ih h)

/-- If no key is there twice, a pair of the list is what is found under its key. -/
theorem get?_eq_some_iff {key : κ} {value : α} {l : KeyedList κ α} (distinct : (keys l).Nodup) :
    get? key l = some value ↔ (key, value) ∈ l := by
  refine ⟨mem_of_get?_eq_some, fun mem => ?_⟩
  induction l with
  | nil => exact absurd mem List.not_mem_nil
  | cons first rest ih =>
      obtain ⟨new, distinct⟩ := List.nodup_cons.1 distinct
      rw [get?]
      rcases List.mem_cons.1 mem with rfl | later
      · exact if_pos rfl
      · have other : first.1 ≠ key := by
          rintro rfl
          exact new (List.mem_map.2 ⟨_, later, rfl⟩)
        rw [if_neg other, ih distinct later]

theorem exists_get?_of_mem_keys {key : κ} {l : KeyedList κ α} (h : key ∈ keys l) :
    ∃ value, get? key l = some value := by
  cases found : get? key l with
  | none => exact absurd h ((get?_eq_none_iff key l).1 found)
  | some value => exact ⟨value, rfl⟩

end FileCoverage.KeyedList
