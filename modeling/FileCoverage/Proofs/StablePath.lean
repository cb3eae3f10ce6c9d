import FileCoverage.Proofs.CanonicalPath
import FileCoverage.Proofs.DatasetLoading
import FileCoverage.Proofs.KeyedList

/-!
# Normal forms that are stable

Normalizing drops what stands in front of a path once: first `./` as often as it is there, and then
the slashes.  That may uncover a `./` or a blank, which stays.  Such a normal form is not the normal
form of itself.  The registry holds the paths of a dataset in their normal forms and looks paths up
by theirs, so it does not find an entry under a path that is not stable.
-/

namespace FileCoverage

/-! ### The ends of a trimmed text -/

namespace Text

theorem head?_dropWhile {p : Char → Bool} {t : Text} {c : Char}
    (first : c ∈ (t.dropWhile p).head?) : p c = false := by
  have kept := List.head?_dropWhile_not p t
  rw [Option.mem_def.1 first] at kept
  simpa using kept

theorem solid_getLast?_trim (t : Text) : ∀ c ∈ (trim t).getLast?, isBlank c = false := by
  intro c last
  rw [trim, trimBy, List.getLast?_reverse] at last
  exact head?_dropWhile last

theorem trim_suffix_of_solid {t : Text} (solid : ∀ c ∈ t.getLast?, isBlank c = false) :
    trim t <:+ t := by
  have later : t.dropWhile isBlank <:+ t := List.dropWhile_suffix _
  have same : trim t = t.dropWhile isBlank := by
    rw [trim, trimBy, (dropWhile_eq_self_iff _ _).2, List.reverse_reverse]
    intro c last
    rw [List.head?_reverse] at last
    obtain ⟨front, eq⟩ := later
    refine solid c ?_
    rw [← eq, List.getLast?_append, Option.mem_def.1 last]
    rfl
  exact same ▸ later

theorem solid_head?_trim (t : Text) : ∀ c ∈ (trim t).head?, isBlank c = false := by
  have kept : trim t <+: t.dropWhile isBlank := by
    rw [← List.reverse_suffix, trim, trimBy, List.reverse_reverse]
    exact List.dropWhile_suffix _
  intro c first
  obtain ⟨rest, eq⟩ := kept
  refine head?_dropWhile (t := t) ?_
  rw [← eq, List.head?_append, Option.mem_def.1 first]
  rfl

end Text

namespace RepositoryPath

variable {s t : Text} {dots slashes : Nat}

/-! ### What stands in front -/

/-- The path without the blanks around it, and with slashes for its backslashes. -/
def spelled (t : Text) : Text := (Text.trim t).map slash

theorem normalize_eq_of_spelled (t : Text) :
    normalize t = (dropDots (spelled t)).dropWhile (· = '/') := rfl

/-- What normalizing drops in front of a path: `./` some times, and then slashes. -/
def lead (dots slashes : Nat) : Text :=
  (List.replicate dots ['.', '/']).flatten ++ List.replicate slashes '/'

theorem lead_zero_zero : lead 0 0 = [] := rfl

theorem lead_succ_append (dots slashes : Nat) (rest : Text) :
    lead (dots + 1) slashes ++ rest = '.' :: '/' :: (lead dots slashes ++ rest) := by
  rw [lead, List.replicate_succ, List.flatten_cons]
  rfl

theorem dropDots_lead_append (undotted : ¬ ['.', '/'] <+: List.replicate slashes '/' ++ t)
    (dots : Nat) : dropDots (lead dots slashes ++ t) = List.replicate slashes '/' ++ t := by
  induction dots with
  | zero => exact dropDots_of_not_dotted undotted
  | succ dots ih => rw [lead_succ_append, dropDots, ih]

theorem not_dotted_slashes (slashes : Nat) (t : Text) :
    ¬ ['.', '/'] <+: List.replicate (slashes + 1) '/' ++ t := by
  rintro ⟨rest, eq⟩
  cases eq

theorem dropWhile_slashes (start : t.head? ≠ some '/') (slashes : Nat) :
    (List.replicate slashes '/' ++ t).dropWhile (· = '/') = t := by
  rw [List.dropWhile_append_of_pos, Text.dropWhile_eq_self_iff]
  · intro c first
    exact decide_eq_false fun eq => start (eq ▸ first)
  · intro c mem
    exact decide_eq_true (List.eq_of_mem_replicate mem)

theorem exists_lead_dropDots (t : Text) :
    (∃ dots, t = lead dots 0 ++ dropDots t) ∧ ¬ ['.', '/'] <+: dropDots t := by
  fun_induction dropDots t with
  | case1 rest ih =>
      obtain ⟨⟨dots, eq⟩, undotted⟩ := ih
      exact ⟨⟨dots + 1, by rw [lead_succ_append, ← eq]⟩, undotted⟩
  | case2 t other =>
      refine ⟨⟨0, rfl⟩, ?_⟩
      rintro ⟨rest, eq⟩
      exact other rest eq.symm

theorem exists_slashes (t : Text) :
    ∃ slashes, t = List.replicate slashes '/' ++ t.dropWhile (· = '/') := by
  refine ⟨(t.takeWhile (· = '/')).length, ?_⟩
  have same : t.takeWhile (· = '/') = List.replicate (t.takeWhile (· = '/')).length '/' :=
    List.eq_replicate_of_mem fun c mem => by simpa using List.mem_takeWhile_imp mem
  rw [← same, List.takeWhile_append_dropWhile]

/-- Nothing but such a lead is dropped, and without slashes in it no `./` is left. -/
theorem exists_lead (t : Text) : ∃ dots slashes, spelled t = lead dots slashes ++ normalize t ∧
    (slashes = 0 → ¬ ['.', '/'] <+: normalize t) := by
  obtain ⟨⟨dots, eq⟩, undotted⟩ := exists_lead_dropDots (spelled t)
  obtain ⟨slashes, eq'⟩ := exists_slashes (dropDots (spelled t))
  rw [← normalize_eq_of_spelled] at eq'
  refine ⟨dots, slashes, ?_, fun none => ?_⟩
  · rw [eq, eq', lead, List.replicate_zero, List.append_nil, lead, List.append_assoc]
  · rwa [eq', none, List.replicate_zero, List.nil_append] at undotted

theorem normalize_suffix_spelled (t : Text) : normalize t <:+ spelled t := by
  obtain ⟨dots, slashes, eq, _⟩ := exists_lead t
  exact ⟨_, eq.symm⟩

/-! ### What a normal form starts with -/

theorem head?_normalize_ne_slash (t : Text) : (normalize t).head? ≠ some '/' := by
  intro first
  have kept := Text.head?_dropWhile (t := dropDots (spelled t)) (Option.mem_def.2 first)
  exact of_decide_eq_false kept rfl

/-- Under a lead with a slash there is `./`. -/
def UncoversDots (s : Text) : Prop :=
  ∃ dots slashes rest, s = lead dots (slashes + 1) ++ '.' :: '/' :: rest

/-- Under a lead there is a blank. -/
def UncoversBlank (s : Text) : Prop :=
  ∃ dots slashes c rest, 0 < dots + slashes ∧ Text.isBlank c = true ∧
    s = lead dots slashes ++ c :: rest

theorem dotted_normalize_iff : ['.', '/'] <+: normalize t ↔ UncoversDots (spelled t) := by
  constructor
  · rintro ⟨rest, eq⟩
    obtain ⟨dots, slashes, lead_eq, undotted⟩ := exists_lead t
    cases slashes with
    | zero => exact absurd ⟨rest, eq⟩ (undotted rfl)
    | succ slashes => exact ⟨dots, slashes, rest, by rw [lead_eq, ← eq]; rfl⟩
  · rintro ⟨dots, slashes, rest, eq⟩
    rw [normalize_eq_of_spelled, eq, dropDots_lead_append (not_dotted_slashes slashes _),
      dropWhile_slashes (by simp)]
    exact ⟨rest, rfl⟩

theorem blank_normalize_iff :
    (∃ c ∈ (normalize t).head?, Text.isBlank c = true) ↔ UncoversBlank (spelled t) := by
  constructor
  · rintro ⟨c, first, blank⟩
    obtain ⟨rest, eq⟩ := List.head?_eq_some_iff.1 (Option.mem_def.1 first)
    obtain ⟨dots, slashes, lead_eq, _⟩ := exists_lead t
    refine ⟨dots, slashes, c, rest, ?_, blank, by rw [lead_eq, eq]⟩
    -- With nothing dropped the blank would stand in front of a trimmed text.
    by_contra none
    obtain ⟨rfl, rfl⟩ : dots = 0 ∧ slashes = 0 := by omega
    rw [lead_zero_zero, List.nil_append, eq, spelled] at lead_eq
    obtain ⟨d, rest', trimmed, rfl, _⟩ := List.map_eq_cons_iff.1 lead_eq
    rw [isBlank_slash, Text.solid_head?_trim t d (by rw [trimmed]; rfl)] at blank
    cases blank
  · rintro ⟨dots, slashes, c, rest, _, blank, eq⟩
    have slash : c ≠ '/' := by
      rintro rfl
      cases blank
    have dot : c ≠ '.' := by
      rintro rfl
      cases blank
    have undotted : ¬ ['.', '/'] <+: List.replicate slashes '/' ++ c :: rest := by
      cases slashes with
      | zero =>
          rintro ⟨more, eq⟩
          exact dot (List.cons.inj eq).1.symm
      | succ slashes => exact not_dotted_slashes slashes _
    rw [normalize_eq_of_spelled, eq, dropDots_lead_append undotted,
      dropWhile_slashes (by simpa using slash)]
    exact ⟨c, rfl, blank⟩

/-! ### Stable normal forms -/

theorem backslash_notMem_normalize (t : Text) : '\\' ∉ normalize t := by
  intro mem
  obtain ⟨c, _, eq⟩ := List.mem_map.1 ((normalize_suffix_spelled t).subset mem)
  exact slash_ne_backslash c eq

theorem solid_getLast?_normalize (t : Text) :
    ∀ c ∈ (normalize t).getLast?, Text.isBlank c = false := by
  intro c last
  obtain ⟨front, eq⟩ := normalize_suffix_spelled t
  have last' : (spelled t).getLast? = some c := by
    rw [← eq, List.getLast?_append, Option.mem_def.1 last]
    rfl
  rw [spelled, List.getLast?_map, Option.map_eq_some_iff] at last'
  obtain ⟨d, last', rfl⟩ := last'
  rw [isBlank_slash]
  exact Text.solid_getLast?_trim t d last'

/-- Normalizing again drops only what stands in front. -/
theorem normalize_normalize_suffix (t : Text) : normalize (normalize t) <:+ normalize t := by
  have trimmed := Text.trim_suffix_of_solid (solid_getLast?_normalize t)
  have spelled_eq : spelled (normalize t) = Text.trim (normalize t) :=
    (map_slash_eq_self_iff _).2 fun mem => backslash_notMem_normalize t (trimmed.subset mem)
  exact (spelled_eq ▸ normalize_suffix_spelled (normalize t)).trans trimmed

theorem isSettled_iff : IsSettled t ↔
    ¬ UncoversDots (spelled t) ∧ ¬ UncoversBlank (spelled t) := by
  rw [← dotted_normalize_iff, ← blank_normalize_iff, IsSettled, normalize_eq_self_iff,
    Text.trim_eq_self_iff, and_iff_left (solid_getLast?_normalize t),
    and_iff_right (backslash_notMem_normalize t), and_iff_left (head?_normalize_ne_slash t),
    and_comm]
  simp only [not_exists, not_and, Bool.not_eq_true]

end RepositoryPath

/-! ### Entries under their own paths -/

theorem Exemption.exists_lists_of_mem {items : List Json.Value}
    {entries : List (Text × Exemption)} {entry : Text × Exemption}
    (each : List.Forall₂ Lists items entries) (mem : entry ∈ entries) :
    ∃ v ∈ items, Lists v entry := by
  induction each with
  | nil => exact absurd mem List.not_mem_nil
  | cons lists _ ih =>
      rcases List.mem_cons.1 mem with rfl | later
      · exact ⟨_, List.mem_cons_self, lists⟩
      · obtain ⟨v, mem, lists⟩ := ih later
        exact ⟨v, List.mem_cons_of_mem _ mem, lists⟩

namespace Registry

variable {r : Registry} {q : Text} {e : Exemption}

theorem lookup_eq_iff_of_mem (mem : (q, e) ∈ r.entries) : r.lookup q = e ↔
    RepositoryPath.normalize q = q ∨ (RepositoryPath.normalize q, e) ∈ r.entries ∨
      RepositoryPath.normalize q ∉ r.paths ∧ e = .nothing := by
  have here := (KeyedList.get?_eq_some_iff r.nodup_paths).2 mem
  rw [lookup]
  constructor
  · intro found
    cases there : KeyedList.get? (RepositoryPath.normalize q) r.entries with
    | none =>
        rw [there] at found
        exact .inr (.inr ⟨(KeyedList.get?_eq_none_iff _ _).1 there, found.symm⟩)
    | some e' =>
        rw [there] at found
        exact .inr (.inl ((KeyedList.get?_eq_some_iff r.nodup_paths).1 (found ▸ there)))
  · rintro (stable | there | ⟨missing, rfl⟩)
    · rw [stable, here]
      rfl
    · rw [(KeyedList.get?_eq_some_iff r.nodup_paths).2 there]
      rfl
    · rw [(KeyedList.get?_eq_none_iff _ _).2 missing]
      rfl

/-- The entries of a dataset have normal forms of paths for their paths. -/
theorem exists_normalize_of_mem {v : Json.Value} (read : ofJson v = .ok r)
    (mem : (q, e) ∈ r.entries) :
    ∃ t, Text.isAllBlank t = false ∧ q = RepositoryPath.normalize t := by
  obtain ⟨entries, dataset, rfl⟩ := ofJson_eq_ok_iff.1 read
  have mem := KeyedList.mem_of_mem_ofPairs mem
  cases dataset with
  | absent => exact absurd mem List.not_mem_nil
  | listed _ each =>
      obtain ⟨item, _, lists⟩ := Exemption.exists_lists_of_mem each mem
      cases lists with
      | object _ solid => exact ⟨_, solid, rfl⟩

end Registry

open RepositoryPath

/--
A normal form never starts with a slash.  It starts with `./` exactly if the path has `./` under a
slash in front, and it is stable exactly if neither that nor a blank is under what is dropped.  The
paths of an accepted dataset are held in such forms.  An entry is found under its own path exactly
if the path is stable, or what is found under the normal form of the path happens to say the same.
-/
theorem stored_path_found_iff (t : Text) :
    (normalize t).head? ≠ some '/' ∧
    (['.', '/'] <+: normalize t ↔ UncoversDots (spelled t)) ∧
    (normalize (normalize t) = normalize t ↔
      ¬ UncoversDots (spelled t) ∧ ¬ UncoversBlank (spelled t)) ∧
    ∀ v r, Registry.ofJson v = .ok r → ∀ q e, (q, e) ∈ r.entries →
      (∃ p, Text.isAllBlank p = false ∧ q = normalize p) ∧
      (r.lookup q = e ↔ normalize q = q ∨ (normalize q, e) ∈ r.entries ∨
        normalize q ∉ r.paths ∧ e = .nothing) := by
  refine ⟨head?_normalize_ne_slash t, dotted_normalize_iff, isSettled_iff, ?_⟩
  intro v r read q e mem
  exact ⟨Registry.exists_normalize_of_mem read mem, Registry.lookup_eq_iff_of_mem mem⟩

/-- A dataset with a path that is stable in its normal form, and one that is not. -/
def Sample.unstableDataset : Json.Value :=
  .object [(.ofText Exemption.listKey, .array
    [Exemption.toJson "./main/A.kt" ⟨true, false⟩, Exemption.toJson "/./B.kt" ⟨true, false⟩])]

def Sample.unstable : Registry :=
  .ofEntries [("main/A.kt", ⟨true, false⟩), ("./B.kt", ⟨true, false⟩)]

open Sample in
/-- The entry of the one path is found, that of the other is not. -/
theorem stored_path_found_of_samples :
    Registry.ofJson unstableDataset = .ok unstable ∧
    unstable.lookup "main/A.kt" = ⟨true, false⟩ ∧ unstable.lookup "./B.kt" ≠ ⟨true, false⟩ := by
  obtain ⟨_, _, _, found⟩ := stored_path_found_iff "./main/A.kt"
  have read : Registry.ofJson unstableDataset = .ok unstable := rfl
  obtain ⟨_, stable⟩ := found _ _ read "main/A.kt" ⟨true, false⟩ (by decide)
  obtain ⟨_, unstable⟩ := found _ _ read "./B.kt" ⟨true, false⟩ (by decide)
  exact ⟨read, stable.2 (.inl (by decide)), mt unstable.1 (by decide)⟩

open Sample in
/-- A normal form that starts with `./`, one that starts with a blank, and an exempt file that is
not found by its own path. -/
theorem normal_form_is_not_stable :
    ['.', '/'] <+: normalize "/./B.kt" ∧
    normalize (normalize "/./B.kt") ≠ normalize "/./B.kt" ∧
    normalize (normalize "./ B.kt") ≠ normalize "./ B.kt" ∧
    Registry.ofJson unstableDataset = .ok unstable ∧ ("./B.kt" : Text) ∈ unstable.paths ∧
    unstable.lookup "./B.kt" = .nothing := by
  refine ⟨by decide, by decide, by decide, rfl, by decide, by decide⟩

end FileCoverage
