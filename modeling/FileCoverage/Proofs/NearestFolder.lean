import FileCoverage.Layout.Convention
import Mathlib.Data.List.Induction

/-!
# The nearest folder

Of several candidates, the one is taken whose folder comes first on the path.  So the path is cut at
that folder: none of the candidates' folders stands before it, and the name of the file is behind
it.  Exchanging the folder leads from one path to another; the other leads back if none of the
folders to be exchanged there comes earlier.
-/

namespace FileCoverage.Layout

variable {α : Type} {pieces before inside : List Text} {folder name : Text} {place : Nat}
  {candidates : List (Text × α)} {a : α}

/-- The pieces of a path: folders before and after a certain one, and the name of the file. -/
def route (before : List Text) (folder : Text) (inside : List Text) (name : Text) : List Text :=
  before ++ folder :: (inside ++ [name])

theorem route_eq (before : List Text) (folder : Text) (inside : List Text) (name : Text) :
    before ++ folder :: inside ++ [name] = route before folder inside name := by
  rw [route, List.append_assoc, List.cons_append]

theorem route_ne_nil (before : List Text) (folder : Text) (inside : List Text) (name : Text) :
    route before folder inside name ≠ [] :=
  List.append_ne_nil_of_right_ne_nil _ (List.cons_ne_nil _ _)

theorem getLast?_route (before : List Text) (folder : Text) (inside : List Text) (name : Text) :
    (route before folder inside name).getLast? = some name := by
  rw [← route_eq, List.getLast?_concat]

theorem getLastD_route (before : List Text) (folder : Text) (inside : List Text) (name : Text) :
    (route before folder inside name).getLastD [] = name := by
  rw [List.getLastD_eq_getLast?, getLast?_route, Option.getD_some]

theorem dropLast_route (before : List Text) (folder : Text) (inside : List Text) (name : Text) :
    (route before folder inside name).dropLast = before ++ folder :: inside := by
  rw [← route_eq, List.dropLast_concat]

theorem take_route (before : List Text) (folder : Text) (inside : List Text) (name : Text) :
    (route before folder inside name).take before.length = before := by
  rw [route, List.take_left]

/-- Exchanging the folder leaves the others. -/
theorem exchange_route (before : List Text) (folder : Text) (inside : List Text)
    (name other : Text) :
    exchange (route before folder inside name) before.length other = before ++ other :: inside := by
  rw [exchange, take_route, route, List.drop_length_add_append, List.drop_one, List.tail_cons,
    List.dropLast_concat]

/-- The first folder of some kind is the one before which there is none. -/
theorem findIdx?_dropLast_route {wanted : List Text} (mem : folder ∈ wanted)
    (clear : ∀ earlier ∈ before, earlier ∉ wanted) :
    (route before folder inside name).dropLast.findIdx? (· ∈ wanted) = some before.length := by
  have none : before.findIdx? (· ∈ wanted) = none :=
    List.findIdx?_eq_none_iff.2 fun earlier here => decide_eq_false (clear earlier here)
  rw [dropLast_route, List.findIdx?_append, none, List.findIdx?_cons, if_pos (decide_eq_true mem)]
  simp

theorem folderIndex?_eq_some_iff : folderIndex? pieces folder = some place ↔
    ∃ before inside name, pieces = route before folder inside name ∧ before.length = place ∧
      folder ∉ before := by
  rw [folderIndex?, List.idxOf?_eq_some_iff]
  constructor
  · rintro ⟨lt, here, earlier⟩
    have ne : pieces ≠ [] := by
      rintro rfl
      exact absurd lt (Nat.not_lt_zero _)
    refine ⟨pieces.dropLast.take place, pieces.dropLast.drop (place + 1), pieces.getLast ne, ?_,
      List.length_take_of_le (Nat.le_of_lt lt), fun mem => ?_⟩
    · rw [route, ← List.cons_append, ← List.append_assoc, ← here, ← List.drop_eq_getElem_cons lt,
        List.take_append_drop, List.dropLast_concat_getLast]
    · obtain ⟨i, i_lt, eq⟩ := List.mem_take_iff_getElem.1 mem
      exact earlier i (by omega) eq
  · rintro ⟨before, inside, name, rfl, rfl, notMem⟩
    simp only [dropLast_route]
    refine ⟨by simp, by simp, fun i lt eq => notMem ?_⟩
    rw [List.getElem_append_left lt] at eq
    exact eq ▸ List.getElem_mem lt

theorem folderIndex?_eq_none_iff : folderIndex? pieces folder = none ↔ folder ∉ pieces.dropLast :=
  List.idxOf?_eq_none_iff

theorem nearest_append_singleton (candidates : List (Text × α)) (candidate : Text × α) :
    nearest pieces (candidates ++ [candidate]) =
      nearer (nearest pieces candidates)
        ((folderIndex? pieces candidate.1).map fun i => (candidate.2, i)) := by
  rw [nearest, nearest, List.foldl_append]
  rfl

theorem nearer_eq_none_iff {best other : Option (α × Nat)} :
    nearer best other = none ↔ best = none ∧ other = none := by
  fun_cases nearer best other with
  | case1 | case2 => simp
  | case3 => simp
  | case4 => simp

theorem nearest_eq_none_iff : nearest pieces candidates = none ↔
    ∀ candidate ∈ candidates, folderIndex? pieces candidate.1 = none := by
  induction candidates using List.reverseRecOn with
  | nil => exact iff_of_true rfl fun _ mem => absurd mem List.not_mem_nil
  | append_singleton candidates candidate ih =>
      rw [nearest_append_singleton, nearer_eq_none_iff, ih, Option.map_eq_none_iff,
        List.forall_mem_append, List.forall_mem_singleton]

/-- What is nearer is one of the two, and neither is nearer still. -/
theorem nearer_eq_some {best other : Option (α × Nat)}
    (found : nearer best other = some (a, place)) :
    (best = some (a, place) ∨ other = some (a, place)) ∧
      (∀ b i, best = some (b, i) → place ≤ i) ∧ ∀ b i, other = some (b, i) → place ≤ i := by
  rcases best with _ | ⟨b, i⟩
  · rw [nearer] at found
    subst found
    simp
  · rcases other with _ | ⟨c, j⟩
    · cases found
      simp
    · rw [nearer] at found
      split at found
      · next lt =>
          cases found
          simp [Nat.le_of_lt lt]
      · next ge =>
          cases found
          simp [Nat.le_of_not_lt ge]

/-- What is nearest is a candidate, and no other is nearer. -/
theorem nearest_eq_some (found : nearest pieces candidates = some (a, place)) :
    (∃ folder, (folder, a) ∈ candidates ∧ folderIndex? pieces folder = some place) ∧
      ∀ candidate ∈ candidates, ∀ i, folderIndex? pieces candidate.1 = some i → place ≤ i := by
  induction candidates using List.reverseRecOn generalizing a place with
  | nil => cases found
  | append_singleton candidates candidate ih =>
      rw [nearest_append_singleton] at found
      obtain ⟨either, best_le, other_le⟩ := nearer_eq_some found
      constructor
      · rcases either with earlier | last
        · obtain ⟨⟨folder, mem, here⟩, _⟩ := ih earlier
          exact ⟨folder, List.mem_append_left _ mem, here⟩
        · obtain ⟨i, here, eq⟩ := Option.map_eq_some_iff.1 last
          obtain ⟨rfl, rfl⟩ := Prod.mk.inj eq
          exact ⟨candidate.1, List.mem_append_right _ (List.mem_singleton_self _), here⟩
      · rw [List.forall_mem_append, List.forall_mem_singleton]
        refine ⟨fun other mem i here => ?_, fun i here => other_le _ i (by rw [here]; rfl)⟩
        cases best : nearest pieces candidates with
        | none =>
            rw [nearest_eq_none_iff.1 best other mem] at here
            cases here
        | some found =>
            obtain ⟨b, j⟩ := found
            exact Nat.le_trans (best_le b j best) ((ih best).2 other mem i here)

/-! ### The path at the nearest folder -/

/-- The path is cut at a candidate's folder, before which no candidate's folder stands. -/
theorem exists_route_of_nearest (found : nearest pieces candidates = some (a, place)) :
    ∃ before folder inside name, pieces = route before folder inside name ∧
      before.length = place ∧ (folder, a) ∈ candidates ∧
      ∀ earlier ∈ before, earlier ∉ candidates.map (·.1) := by
  obtain ⟨⟨folder, mem, here⟩, nearest⟩ := nearest_eq_some found
  obtain ⟨before, inside, name, rfl, rfl, _⟩ := folderIndex?_eq_some_iff.1 here
  refine ⟨before, folder, inside, name, rfl, rfl, mem, fun earlier mem' isFolder => ?_⟩
  obtain ⟨candidate, mem'', rfl⟩ := List.mem_map.1 isFolder
  obtain ⟨first, rest, rfl, clear⟩ := List.eq_append_cons_of_mem mem'
  have le := nearest candidate mem'' first.length <| folderIndex?_eq_some_iff.2
    ⟨first, rest ++ folder :: inside, name, by simp [route], rfl, clear⟩
  rw [List.length_append, List.length_cons] at le
  omega

/-- A path is cut in one way at folders of which neither stands before the other. -/
theorem route_inj {before' inside' : List Text} {folder' name' : Text}
    (eq : route before folder inside name = route before' folder' inside' name')
    (clear : folder' ∉ before) (clear' : folder ∉ before') :
    before = before' ∧ folder = folder' := by
  rcases List.append_eq_append_iff.1 eq with ⟨more, rfl, rest⟩ | ⟨more, rfl, rest⟩
  · cases more with
    | nil => exact ⟨(List.append_nil before).symm, List.head_eq_of_cons_eq rest⟩
    | cons first more =>
        obtain rfl := List.head_eq_of_cons_eq rest
        exact absurd (by simp) clear'
  · cases more with
    | nil => exact ⟨List.append_nil before', (List.head_eq_of_cons_eq rest).symm⟩
    | cons first more =>
        obtain rfl := List.head_eq_of_cons_eq rest
        exact absurd (by simp) clear

/-- A candidate is nearest if none of the candidates' folders stands before its own. -/
theorem nearest_route (mem : (folder, a) ∈ candidates)
    (one : ∀ b, (folder, b) ∈ candidates → b = a)
    (clear : ∀ earlier ∈ before, earlier ∉ candidates.map (·.1)) :
    nearest (route before folder inside name) candidates = some (a, before.length) := by
  cases found : nearest (route before folder inside name) candidates with
  | none =>
      have none := nearest_eq_none_iff.1 found _ mem
      rw [folderIndex?_eq_none_iff, dropLast_route] at none
      exact absurd (by simp) none
  | some best =>
      obtain ⟨b, place⟩ := best
      obtain ⟨before', folder', inside', name', eq, rfl, mem', clear'⟩ :=
        exists_route_of_nearest found
      have notMem : folder' ∉ before := fun here => clear _ here (List.mem_map_of_mem mem')
      have notMem' : folder ∉ before' := fun here => clear' _ here (List.mem_map_of_mem mem)
      obtain ⟨rfl, rfl⟩ := route_inj eq notMem notMem'
      rw [one b mem']

/-- Exchanging the nearest folder keeps the number of folders. -/
theorem length_exchange (found : nearest pieces candidates = some (a, place)) (other : Text) :
    (exchange pieces place other).length + 1 = pieces.length := by
  obtain ⟨before, folder, inside, name, rfl, rfl, _⟩ := exists_route_of_nearest found
  rw [exchange_route, route]
  simp [Nat.add_assoc]

theorem mem_of_mem_exchange {other : Text} (mem : folder ∈ exchange pieces place other) :
    folder ∈ pieces ∨ folder = other := by
  rw [exchange, List.mem_append, List.mem_cons] at mem
  rcases mem with early | rfl | late
  · exact .inl (List.mem_of_mem_take early)
  · exact .inr rfl
  · exact .inl (List.mem_of_mem_drop (List.dropLast_subset _ late))

/-- If the nearest folder is exchanged and some folder is found exchanged, what is nearest is not
before that one: what is put in the place of the nearest is no candidate's folder. -/
theorem notMem_of_exchange_eq {folder' other : Text}
    (found : nearest (route before folder inside name) candidates = some (a, place))
    (apart : other ∉ candidates.map (·.1))
    (eq : exchange (route before folder inside name) place other = before ++ folder' :: inside) :
    ∀ earlier ∈ before, earlier ∉ candidates.map (·.1) := by
  obtain ⟨first, nearest, rest, last, same, rfl, mem, clear⟩ := exists_route_of_nearest found
  rw [same, exchange_route] at eq
  rcases List.append_eq_append_iff.1 eq with ⟨more, rfl, later⟩ | ⟨more, rfl, _⟩
  · cases more with
    | nil => simpa using clear
    | cons second more =>
        obtain rfl := List.head_eq_of_cons_eq later
        rw [route, route, List.append_assoc] at same
        obtain rfl := List.head_eq_of_cons_eq (List.append_cancel_left same)
        exact absurd (List.mem_map_of_mem mem) apart
  · exact fun earlier here => clear earlier (List.mem_append_left more here)

end FileCoverage.Layout
