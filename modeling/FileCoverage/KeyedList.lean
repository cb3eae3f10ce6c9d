/-!
# Keyed lists

A keyed list holds values under keys, in the order in which the keys first came.  A later value for
a key takes the place of the earlier one.
-/

namespace FileCoverage

abbrev KeyedList (κ α : Type) := List (κ × α)

namespace KeyedList

variable {κ α : Type} [DecidableEq κ]

def keys (l : KeyedList κ α) : List κ := l.map (·.1)

def get? (key : κ) : KeyedList κ α → Option α
  | [] => none
  | (k, a) :: rest => if k = key then some a else get? key rest

/-- Gives a key a value: in the place of its old one, or after the others. -/
def put (key : κ) (value : α) : KeyedList κ α → KeyedList κ α
  | [] => [(key, value)]
  | (k, a) :: rest => if k = key then (k, value) :: rest else (k, a) :: put key value rest

/-- The keyed list in which the pairs are put one after the other. -/
def ofPairs (pairs : List (κ × α)) : KeyedList κ α :=
  pairs.foldl (fun l (key, value) => put key value l) []

@[simp]
theorem get?_nil (key : κ) : get? key ([] : KeyedList κ α) = none := rfl

@[simp]
theorem ofPairs_nil : ofPairs ([] : List (κ × α)) = [] := rfl

theorem ofPairs_append_singleton (pairs : List (κ × α)) (key : κ) (value : α) :
    ofPairs (pairs ++ [(key, value)]) = put key value (ofPairs pairs) := by
  simp [ofPairs]

theorem get?_put (key other : κ) (value : α) (l : KeyedList κ α) :
    get? other (put key value l) = if other = key then some value else get? other l := by
  induction l with
  | nil => simp only [put, get?, eq_comm]
  | cons pair rest ih => grind [put, get?]

theorem get?_eq_none_iff (key : κ) (l : KeyedList κ α) : get? key l = none ↔ key ∉ keys l := by
  induction l with
  | nil => simp [keys]
  | cons pair rest ih => grind [get?, keys]

theorem keys_put (key : κ) (value : α) (l : KeyedList κ α) :
    keys (put key value l) = if key ∈ keys l then keys l else keys l ++ [key] := by
  induction l with
  | nil => simp [put, keys]
  | cons pair rest ih => grind [put, keys]

theorem nodup_keys_put (key : κ) (value : α) {l : KeyedList κ α} (h : (keys l).Nodup) :
    (keys (put key value l)).Nodup := by
  rw [keys_put]
  split
  · exact h
  · next new => exact List.nodup_append.2 ⟨h, by simp, by grind⟩

theorem nodup_keys_ofPairs (pairs : List (κ × α)) : (keys (ofPairs pairs)).Nodup := by
  suffices ∀ l : KeyedList κ α, (keys l).Nodup →
      (keys (pairs.foldl (fun l (key, value) => put key value l) l)).Nodup from
    this [] List.nodup_nil
  induction pairs with
  | nil => exact fun l h => h
  | cons pair rest ih => exact fun l h => ih _ (nodup_keys_put pair.1 pair.2 h)

end KeyedList

end FileCoverage
