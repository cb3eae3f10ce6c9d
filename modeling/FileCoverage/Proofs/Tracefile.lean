import FileCoverage.Lcov.Tracefile
import FileCoverage.Proofs.Except

/-!
# When a tracefile can be read

A tracefile can be read unless an infinite count stands in an open record, that is after a line that
opens a record and before the next line that closes one.  Every other `DA` line whose numbers cannot
be read is passed over: the records are those of the text without the line.
-/

namespace FileCoverage.Lcov

/-- The first two fields of a `DA` line. -/
def HasFields (raw number count : Text) : Prop :=
  hitMark <+: Text.trim raw ∧
    ∃ more, Text.splitOn ',' ((Text.trim raw).drop hitMark.length) = number :: count :: more

/-- A `DA` line with a line number and an infinite count. -/
def IsInfiniteHit (raw : Text) : Prop :=
  ∃ number count n negative, HasFields raw number count ∧
    Numeral.parse number = .ok n ∧ Binary64.parse? count = some (.infinite negative)

/-- An infinite count stands in an open record. -/
def HasInfiniteCount (t : Text) : Prop :=
  ∃ early source between raw late,
    Text.recordLines t = early ++ source :: (between ++ raw :: late) ∧
      sourceMark <+: Text.trim source ∧ (∀ line ∈ between, Text.trim line ≠ endMark) ∧
      IsInfiniteHit raw

/-! ### Single lines -/

theorem not_sourceMark_of_hitMark {t : Text} (h : hitMark <+: t) : ¬ sourceMark <+: t := by
  intro h'
  have same := List.prefix_of_prefix_length_le h h' (by decide)
  revert same
  decide

theorem ofText_of_sourceMark {raw : Text} (h : sourceMark <+: Text.trim raw) :
    Line.ofText raw = .source (Text.trim ((Text.trim raw).drop sourceMark.length)) := by
  rw [Line.ofText, if_pos (List.isPrefixOf_iff_prefix.2 h)]

theorem ofText_of_hitMark {raw : Text} (h : hitMark <+: Text.trim raw) :
    Line.ofText raw =
      .ofFields (Text.splitOn ',' ((Text.trim raw).drop hitMark.length)) := by
  have other := not_sourceMark_of_hitMark h
  rw [← List.isPrefixOf_iff_prefix] at h other
  rw [Line.ofText, if_neg other, if_pos h]

theorem ofText_of_endMark {raw : Text} (h : Text.trim raw = endMark) :
    Line.ofText raw = .recordEnd := by
  rw [Line.ofText, h, if_neg (by decide), if_neg (by decide), if_pos rfl]

theorem ofText_of_noMark {raw : Text} (source : ¬ sourceMark <+: Text.trim raw)
    (hit : ¬ hitMark <+: Text.trim raw) (close : Text.trim raw ≠ endMark) :
    Line.ofText raw = .other := by
  rw [← List.isPrefixOf_iff_prefix] at source hit
  rw [Line.ofText, if_neg source, if_neg hit, if_neg close]

theorem ofNumbers_infinite {number count : Text} {n : Int} {negative : Bool}
    (hn : Numeral.parse number = .ok n) (hc : Binary64.parse? count = some (.infinite negative)) :
    Line.ofNumbers number count = .hit n none := by
  rw [Line.ofNumbers, hn, hc]

/-- A finite count is read, and everything else but an infinite count is passed over. -/
theorem ofNumbers_of_not_infinite (number : Text) {count : Text}
    (h : ∀ negative, Binary64.parse? count ≠ some (.infinite negative)) :
    (∃ n c, Line.ofNumbers number count = .hit n (some c)) ∨
      Line.ofNumbers number count = .other := by
  rw [Line.ofNumbers.eq_def]
  split
  · next found => exact absurd found (h _)
  · split
    · exact .inl ⟨_, _, rfl⟩
    · exact .inr rfl
  · exact .inr rfl

theorem ofNumbers_of_unreadable {number count : Text}
    (h : ∀ n x, Numeral.parse number = .ok n → Binary64.parse? count = some x → x = .nan) :
    Line.ofNumbers number count = .other := by
  rw [Line.ofNumbers.eq_def]
  split
  · next hn hc => cases h _ _ hn hc
  · next hn hc =>
      rw [h _ _ hn hc]
      rfl
  · rfl

theorem ofFields_cases (fields : List Text) :
    (∃ n c, Line.ofFields fields = .hit n c) ∨ Line.ofFields fields = .other := by
  rw [Line.ofFields.eq_def]
  split
  · next number count more =>
      by_cases h : ∃ negative, Binary64.parse? count = some (.infinite negative)
      · obtain ⟨negative, hc⟩ := h
        cases hn : Numeral.parse number with
        | error fault => exact .inr (ofNumbers_of_unreadable (by simp [hn]))
        | ok n => exact .inl ⟨n, none, ofNumbers_infinite hn hc⟩
      · rcases ofNumbers_of_not_infinite number (not_exists.1 h) with ⟨n, c, read⟩ | other
        · exact .inl ⟨n, some c, read⟩
        · exact .inr other
  · exact .inr rfl

/-- A line is a hit, or passed over, only if no other mark decides its meaning. -/
theorem ofText_of_not_sourceMark {raw : Text} (source : ¬ sourceMark <+: Text.trim raw)
    (close : Text.trim raw ≠ endMark) :
    (∃ n c, Line.ofText raw = .hit n c) ∨ Line.ofText raw = .other := by
  by_cases hit : hitMark <+: Text.trim raw
  · rw [ofText_of_hitMark hit]
    exact ofFields_cases _
  · exact .inr (ofText_of_noMark source hit close)

theorem exists_ofText_eq_source_iff (raw : Text) :
    (∃ path, Line.ofText raw = .source path) ↔ sourceMark <+: Text.trim raw := by
  constructor
  · intro source
    rcases source with ⟨path, h⟩
    by_cases source : sourceMark <+: Text.trim raw
    · exact source
    · by_cases close : Text.trim raw = endMark
      · rw [ofText_of_endMark close] at h
        cases h
      · rcases ofText_of_not_sourceMark source close with ⟨n, c, hit⟩ | other
        · rw [hit] at h
          cases h
        · rw [other] at h
          cases h
  · intro h
    exact ⟨_, ofText_of_sourceMark h⟩

theorem ofText_eq_recordEnd_iff (raw : Text) :
    Line.ofText raw = .recordEnd ↔ Text.trim raw = endMark := by
  refine ⟨fun h => ?_, ofText_of_endMark⟩
  by_cases close : Text.trim raw = endMark
  · exact close
  · by_cases source : sourceMark <+: Text.trim raw
    · rw [ofText_of_sourceMark source] at h
      cases h
    · rcases ofText_of_not_sourceMark source close with ⟨n, c, hit⟩ | other
      · rw [hit] at h
        cases h
      · rw [other] at h
        cases h

theorem hitMark_of_ofText_eq_hit {raw : Text} {n : Int} {c : Option Nat}
    (h : Line.ofText raw = .hit n c) : hitMark <+: Text.trim raw := by
  by_cases hit : hitMark <+: Text.trim raw
  · exact hit
  · by_cases source : sourceMark <+: Text.trim raw
    · rw [ofText_of_sourceMark source] at h
      cases h
    · by_cases close : Text.trim raw = endMark
      · rw [ofText_of_endMark close] at h
        cases h
      · rw [ofText_of_noMark source hit close] at h
        cases h

theorem exists_ofText_eq_hit_none_iff (raw : Text) :
    (∃ n, Line.ofText raw = .hit n none) ↔ IsInfiniteHit raw := by
  constructor
  · intro infinite
    rcases infinite with ⟨n, h⟩
    have mark := hitMark_of_ofText_eq_hit h
    rw [ofText_of_hitMark mark, Line.ofFields.eq_def] at h
    split at h
    · next number count more fields =>
        rw [Line.ofNumbers.eq_def] at h
        split at h
        · next m negative hn hc =>
            exact ⟨number, count, m, negative, ⟨mark, more, fields⟩, hn, hc⟩
        · split at h <;> cases h
        · cases h
    · cases h
  · intro infinite
    rcases infinite with ⟨number, count, n, negative, ⟨mark, more, fields⟩, hn, hc⟩
    rw [ofText_of_hitMark mark, fields]
    exact ⟨n, ofNumbers_infinite hn hc⟩

/-- Whether a record is open after lines, if `opened` says so before them. -/
def opensAfter (opened : Bool) : List Line → Bool
  | [] => opened
  | .source _ :: lines => opensAfter true lines
  | .recordEnd :: lines => opensAfter false lines
  | .hit _ _ :: lines => opensAfter opened lines
  | .other :: lines => opensAfter opened lines

theorem opensAfter_of_notMem {lines : List Line} (h : .recordEnd ∉ lines) :
    opensAfter true lines = true := by
  induction lines with
  | nil => rfl
  | cons line lines ih =>
      obtain ⟨ne, kept⟩ := not_or.1 (mt List.mem_cons.2 h)
      cases line with
      | recordEnd => exact absurd rfl ne
      | _ => exact ih kept

theorem opensAfter_append (opened : Bool) (past future : List Line) :
    opensAfter opened (past ++ future) = opensAfter (opensAfter opened past) future := by
  induction past generalizing opened with
  | nil => rfl
  | cons line past ih => cases line <;> exact ih _

/-- A record is open if no line closes it after the line that opens it, or after the start. -/
def IsOpenAfter (opened : Bool) (lines : List Line) : Prop :=
  (opened = true ∧ .recordEnd ∉ lines) ∨
    ∃ early path late, lines = early ++ .source path :: late ∧ .recordEnd ∉ late

theorem IsOpenAfter.cons {opened opened' : Bool} {line : Line} {lines : List Line}
    (h : IsOpenAfter opened' lines)
    (start : opened' = true → IsOpenAfter opened [line] ∧ line ≠ .recordEnd) :
    IsOpenAfter opened (line :: lines) := by
  rcases h with ⟨rfl, kept⟩ | ⟨early, path, late, rfl, kept⟩
  · obtain ⟨first | ⟨early, path, late, eq, last⟩, ne⟩ := start rfl
    · refine .inl ⟨first.1, ?_⟩
      simpa [Ne.symm ne] using kept
    · refine .inr ⟨early, path, late ++ lines, ?_, ?_⟩
      · rw [← List.singleton_append, eq, List.append_assoc, List.cons_append]
      · simpa using ⟨last, kept⟩
  · exact .inr ⟨line :: early, path, late, rfl, kept⟩

theorem opensAfter_eq_true_iff (opened : Bool) (lines : List Line) :
    opensAfter opened lines = true ↔ IsOpenAfter opened lines := by
  constructor
  · intro h
    induction lines generalizing opened with
    | nil => exact .inl ⟨h, by simp⟩
    | cons line lines ih =>
        cases line with
        | source path =>
            exact (ih true h).cons fun _ => ⟨.inr ⟨[], path, [], rfl, by simp⟩, by simp⟩
        | recordEnd => exact (ih false h).cons fun impossible => by cases impossible
        | hit n c => exact (ih opened h).cons fun yes => ⟨.inl ⟨yes, by simp⟩, by simp⟩
        | other => exact (ih opened h).cons fun yes => ⟨.inl ⟨yes, by simp⟩, by simp⟩
  · intro opened
    rcases opened with ⟨rfl, kept⟩ | ⟨early, path, late, rfl, kept⟩
    · exact opensAfter_of_notMem kept
    · rw [opensAfter_append]
      exact opensAfter_of_notMem kept

/-- An infinite count stands in an open record. -/
def IsSpoiled (opened : Bool) (lines : List Line) : Prop :=
  ∃ before n after, lines = before ++ .hit n none :: after ∧ opensAfter opened before = true

theorem not_isSpoiled_nil (opened : Bool) : ¬ IsSpoiled opened [] := by
  intro spoiled
  rcases spoiled with ⟨before, n, after, eq, _⟩
  simp at eq

theorem isSpoiled_cons_iff (opened : Bool) (line : Line) (lines : List Line) :
    IsSpoiled opened (line :: lines) ↔
      (opened = true ∧ ∃ n, line = .hit n none) ∨ IsSpoiled (opensAfter opened [line]) lines := by
  have step : ∀ before, opensAfter opened (line :: before) =
      opensAfter (opensAfter opened [line]) before := fun before =>
    opensAfter_append opened [line] before
  constructor
  · intro spoiled
    rcases spoiled with ⟨before, n, after, eq, opens⟩
    cases before with
    | nil =>
        obtain ⟨rfl, rfl⟩ := List.cons.inj eq
        exact .inl ⟨opens, n, rfl⟩
    | cons first before =>
        obtain ⟨rfl, rfl⟩ := List.cons.inj eq
        exact .inr ⟨before, n, after, rfl, step before ▸ opens⟩
  · intro spoiled
    rcases spoiled with ⟨opens, n, rfl⟩ | ⟨before, n, after, rfl, opens⟩
    · exact ⟨[], n, lines, rfl, opens⟩
    · exact ⟨line :: before, n, after, rfl, (step before).trans opens⟩

theorem gather_eq_error_iff (opened : Option Record) (lines : List Line) :
    gather opened lines = .error .infinite ↔ IsSpoiled opened.isSome lines := by
  induction lines generalizing opened with
  | nil =>
      rw [gather_nil]
      exact iff_of_false (by simp) (not_isSpoiled_nil _)
  | cons line lines ih =>
      rw [isSpoiled_cons_iff]
      cases line with
      | source path =>
          rw [gather.eq_def]
          simp [map_eq_error_iff, ih, opensAfter]
      | recordEnd =>
          rw [gather.eq_def]
          simp [map_eq_error_iff, ih, opensAfter]
      | hit n count =>
          cases opened with
          | none => simp [gather, ih, opensAfter]
          | some r =>
              cases count with
              | none => simp [gather]
              | some c => simp [gather, ih, opensAfter]
      | other => simp [gather, ih, opensAfter]

/-- A line that is passed over changes nothing for the lines around it. -/
theorem gather_append_other (opened : Option Record) (before after : List Line) :
    gather opened (before ++ .other :: after) = gather opened (before ++ after) := by
  induction before generalizing opened with
  | nil => simp [gather]
  | cons line before ih =>
      cases line with
      | hit n count =>
          cases opened with
          | none => simp [gather, ih]
          | some r => cases count <;> simp [gather, ih]
      | _ => simp [gather, ih]

/-! ### Whole tracefiles -/

theorem isSpoiled_ofText_iff (raws : List Text) :
    IsSpoiled false (raws.map Line.ofText) ↔
      ∃ early source between raw late, raws = early ++ source :: (between ++ raw :: late) ∧
        sourceMark <+: Text.trim source ∧ (∀ line ∈ between, Text.trim line ≠ endMark) ∧
        IsInfiniteHit raw := by
  constructor
  · intro spoiled
    rcases spoiled with ⟨before, n, after, eq, opens⟩
    rw [opensAfter_eq_true_iff] at opens
    rcases opens with ⟨impossible, _⟩ | ⟨early, path, between, rfl, kept⟩
    · cases impossible
    · rw [List.append_assoc, List.cons_append, List.map_eq_append_iff] at eq
      obtain ⟨early', opened, rfl, rfl, eq⟩ := eq
      obtain ⟨source, rest, rfl, opener, eq⟩ := List.map_eq_cons_iff.1 eq
      obtain ⟨between', spoiled, rfl, rfl, last⟩ := List.map_eq_append_iff.1 eq
      obtain ⟨raw, late, rfl, hit, rfl⟩ := List.map_eq_cons_iff.1 last
      refine ⟨early', source, between', raw, late, rfl,
        (exists_ofText_eq_source_iff source).1 ⟨path, opener⟩, fun line mem close => ?_,
        (exists_ofText_eq_hit_none_iff raw).1 ⟨n, hit⟩⟩
      exact kept (List.mem_map.2 ⟨line, mem, (ofText_eq_recordEnd_iff line).2 close⟩)
  · intro spoiled
    rcases spoiled with ⟨early, source, between, raw, late, rfl, opener, kept, infinite⟩
    obtain ⟨path, opener⟩ := (exists_ofText_eq_source_iff source).2 opener
    obtain ⟨n, hit⟩ := (exists_ofText_eq_hit_none_iff raw).2 infinite
    refine ⟨early.map Line.ofText ++ .source path :: between.map Line.ofText, n,
      late.map Line.ofText, by simp [opener, hit], ?_⟩
    rw [opensAfter_eq_true_iff]
    refine .inr ⟨early.map Line.ofText, path, between.map Line.ofText, rfl, fun mem => ?_⟩
    obtain ⟨line, mem, close⟩ := List.mem_map.1 mem
    exact kept line mem ((ofText_eq_recordEnd_iff line).1 close)

theorem parse_eq_error_iff (t : Text) : parse t = .error .infinite ↔ HasInfiniteCount t := by
  rw [parse, gather_eq_error_iff]
  exact isSpoiled_ofText_iff _

theorem exists_parse_eq_ok_iff (t : Text) :
    (∃ records, parse t = .ok records) ↔ ¬ HasInfiniteCount t := by
  rw [← parse_eq_error_iff]
  cases h : parse t with
  | error fault => cases fault; simp
  | ok records => simp

end FileCoverage.Lcov
