import FileCoverage.Proofs.RecordSum
import FileCoverage.Proofs.Tracefile
import Mathlib.Data.List.Forall2
import Mathlib.Data.List.Induction

/-!
# Sections of a tracefile

The section of a line that opens a record is what follows it, up to the next line that opens or
closes a record.  A tracefile that can be read has one record for each section, which gives a line
the sum of its counts in the section.  What stands outside of the sections, and what is no hit,
could as well be missing, so two tracefiles may be read one after the other if the first leaves no
record open.
-/

namespace FileCoverage

/-! ### Lines of texts one after the other -/

namespace Text

theorem recordLines_cons {c : Char} {t : Text} (single : ¬ (c = '\r' ∧ t.head? = some '\n')) :
    recordLines (c :: t) =
      if isRecordBreak c then [] :: recordLines t else consToFirst c (recordLines t) := by
  rw [recordLines.eq_def]
  split
  · next eq => cases eq
  · next eq =>
      obtain ⟨rfl, rfl⟩ := List.cons.inj eq
      exact absurd ⟨rfl, rfl⟩ single
  · next eq =>
      obtain ⟨rfl, rfl⟩ := List.cons.inj eq
      rfl

theorem recordLines_lineFeed (t : Text) : recordLines ('\n' :: t) = [] :: recordLines t := by
  rw [recordLines_cons (by simp), if_pos (by decide)]

theorem recordLines_ne_nil {t : Text} (ne : t ≠ []) : recordLines t ≠ [] := by
  fun_cases recordLines t with
  | case1 => exact absurd rfl ne
  | case2 => simp
  | case3 => simp
  | case4 c rest => cases recordLines rest <;> simp [consToFirst]

theorem consToFirst_append (c : Char) {lines : List Text} (ne : lines ≠ []) (more : List Text) :
    consToFirst c (lines ++ more) = consToFirst c lines ++ more := by
  obtain ⟨line, lines, rfl⟩ := List.exists_cons_of_ne_nil ne
  rfl

/-- A line feed ends a line, whatever stands around it. -/
theorem recordLines_append_lineFeed (s t : Text) :
    recordLines (s ++ '\n' :: t) = recordLines (s ++ ['\n']) ++ recordLines t := by
  fun_induction recordLines s with
  | case1 =>
      rw [List.nil_append, List.nil_append, recordLines_lineFeed, recordLines_lineFeed]
      rfl
  | case2 rest ih => simp only [List.cons_append, recordLines, ih]
  | case3 c rest other _ ih | case4 c rest other _ ih =>
      -- A carriage return at the end of `s` is one break with the line feed.
      by_cases pair : c = '\r' ∧ rest = []
      · obtain ⟨rfl, rfl⟩ := pair
        rfl
      · have single : ∀ u, ¬ (c = '\r' ∧ (rest ++ '\n' :: u).head? = some '\n') := by
          rintro u ⟨rfl, first⟩
          cases rest with
          | nil => exact pair ⟨rfl, rfl⟩
          | cons d rest => exact other rest rfl (by simpa using first)
        have ne : recordLines (rest ++ ['\n']) ≠ [] := recordLines_ne_nil (by simp)
        rw [List.cons_append, List.cons_append, recordLines_cons (single t),
          recordLines_cons (single []), ih]
        by_cases brk : isRecordBreak c
        · rw [if_pos brk, if_pos brk, List.cons_append]
        · rw [if_neg brk, if_neg brk, consToFirst_append c ne]

end Text

namespace Lcov

/-! ### Lines of a section -/

def OpensRecord (raw : Text) : Prop := sourceMark <+: Text.trim raw

def ClosesRecord (raw : Text) : Prop := Text.trim raw = endMark

instance (raw : Text) : Decidable (OpensRecord raw) := inferInstanceAs (Decidable (_ <+: _))

instance (raw : Text) : Decidable (ClosesRecord raw) := inferInstanceAs (Decidable (_ = _))

/-- No section goes on over the line. -/
def IsMark (raw : Text) : Prop := OpensRecord raw ∨ ClosesRecord raw

instance (raw : Text) : Decidable (IsMark raw) := inferInstanceAs (Decidable (_ ∨ _))

/-- The path that a line gives the record that it opens. -/
def openedSource (raw : Text) : Text := Text.trim ((Text.trim raw).drop sourceMark.length)

/-- A line number and a finite count, of which the whole part is taken. -/
def numbers? (number count : Text) : Option (Int × Int) := do
  let n ← (Numeral.parse number).toOption
  let x ← Binary64.parse? count
  let c ← x.truncate?
  return (n, c)

/-- The line number and the count of a well-formed `DA` line. -/
def hit? (raw : Text) : Option (Int × Int) :=
  if hitMark <+: Text.trim raw then
    match Text.splitOn ',' ((Text.trim raw).drop hitMark.length) with
    | number :: count :: _ => numbers? number count
    | _ => none
  else none

/-- The counts that lines give the line number `n`; what is below zero counts as zero. -/
def countsOf (n : Int) (raws : List Text) : List Nat :=
  raws.filterMap fun raw => (hit? raw).bind fun (m, c) => if m = n then some c.toNat else none

/-- The lines before the first that opens or closes a record. -/
def sectionLines (raws : List Text) : List Text := raws.takeWhile fun raw => ¬ IsMark raw

/-- No record is open after the lines: the last of them that opens or closes one closes it. -/
def IsClosedAfter (raws : List Text) : Prop :=
  ∀ raw ∈ (raws.filter fun raw => IsMark raw).getLast?, ClosesRecord raw

instance (raws : List Text) : Decidable (IsClosedAfter raws) :=
  inferInstanceAs
    (Decidable (∀ raw ∈ (raws.filter fun raw => IsMark raw).getLast?, ClosesRecord raw))

/-! ### What a line means -/

/-- Numbers are a hit, unless the count is infinite or they cannot be read. -/
theorem ofNumbers_cases (number count : Text) :
    (∃ n c, numbers? number count = some (n, c) ∧
      Line.ofNumbers number count = .hit n (some c.toNat)) ∨
    numbers? number count = none ∧
      ((∃ n, Line.ofNumbers number count = .hit n none) ∨
        Line.ofNumbers number count = .other) := by
  rw [numbers?, Line.ofNumbers.eq_def]
  cases Numeral.parse number with
  | error fault => exact .inr ⟨rfl, .inr rfl⟩
  | ok n =>
      cases Binary64.parse? count with
      | none => exact .inr ⟨rfl, .inr rfl⟩
      | some x =>
          cases x with
          | finite negative mantissa exponent => exact .inl ⟨n, _, rfl, rfl⟩
          | infinite negative => exact .inr ⟨rfl, .inl ⟨n, rfl⟩⟩
          | nan => exact .inr ⟨rfl, .inr rfl⟩

/-- The same of a line that neither opens nor closes a record. -/
theorem ofText_cases {raw : Text} (unmarked : ¬ IsMark raw) :
    (∃ n c, hit? raw = some (n, c) ∧ Line.ofText raw = .hit n (some c.toNat)) ∨
    hit? raw = none ∧ ((∃ n, Line.ofText raw = .hit n none) ∨ Line.ofText raw = .other) := by
  rw [IsMark, not_or] at unmarked
  by_cases mark : hitMark <+: Text.trim raw
  · rw [hit?, if_pos mark, ofText_of_hitMark mark, Line.ofFields.eq_def]
    rcases Text.splitOn ',' _ with _ | ⟨number, _ | ⟨count, more⟩⟩
    · exact .inr ⟨rfl, .inr rfl⟩
    · exact .inr ⟨rfl, .inr rfl⟩
    · exact ofNumbers_cases number count
  · rw [hit?, if_neg mark]
    exact .inr ⟨rfl, .inr (ofText_of_noMark unmarked.1 mark unmarked.2)⟩

theorem gather_source (opened : Option Record) (path : Text) (lines : List Line) :
    gather opened (.source path :: lines) =
      (gather (some ⟨path, Hits.none⟩) lines).map (opened.toList ++ ·) := by
  rw [gather.eq_def]

theorem gather_recordEnd (opened : Option Record) (lines : List Line) :
    gather opened (.recordEnd :: lines) = (gather none lines).map (opened.toList ++ ·) := by
  rw [gather.eq_def]

theorem gather_other (opened : Option Record) (lines : List Line) :
    gather opened (.other :: lines) = gather opened lines := by
  cases opened <;> rfl

theorem not_opensRecord_of_closesRecord {raw : Text} (closes : ClosesRecord raw) :
    ¬ OpensRecord raw := by
  rw [OpensRecord, closes]
  decide

/-! ### Sections and their records -/

/-- The records that lines open, without hits, each with the lines of its section. -/
def sections : List Text → List (Record × List Text)
  | [] => []
  | raw :: raws =>
    if OpensRecord raw then (⟨openedSource raw, Hits.none⟩, sectionLines raws) :: sections raws
    else sections raws

/-- The record `r'` is the record `r` with the counts of the lines. -/
def Record.Gains (r : Record) (raws : List Text) (r' : Record) : Prop :=
  r'.source = r.source ∧
    ∀ n, r'.hits.get? n = Hits.total? ((r.hits.get? n).toList ++ countsOf n raws)

theorem Record.gains_nil (r : Record) : r.Gains [] r := by
  refine ⟨rfl, fun n => ?_⟩
  cases r.hits.get? n <;> simp [countsOf, Hits.total?]

theorem Record.Gains.cons {r r' : Record} {raw : Text} {raws : List Text} (none : hit? raw = none)
    (later : r.Gains raws r') : r.Gains (raw :: raws) r' := by
  refine ⟨later.1, fun n => ?_⟩
  rw [later.2, countsOf, countsOf, List.filterMap_cons_none (by rw [none]; rfl)]

theorem Record.Gains.cons_hit {r r' : Record} {raw : Text} {raws : List Text} {n c : Int}
    (hit : hit? raw = some (n, c)) (later : (r.add n c.toNat).Gains raws r') :
    r.Gains (raw :: raws) r' := by
  refine ⟨later.1, fun m => ?_⟩
  rw [later.2, add, Hits.get?_add, countsOf, countsOf]
  by_cases same : m = n
  · subst same
    rw [if_pos rfl, List.filterMap_cons_some (by rw [hit]; exact if_pos rfl)]
    cases r.hits.get? m with
    | none => simp
    | some known => exact Hits.total?_add known c.toNat _
  · rw [if_neg same, List.filterMap_cons_none (by rw [hit]; exact if_neg (Ne.symm same))]

/-- Each record is what its beginning has become by the lines that add to it. -/
abbrev Finishes (begun : List (Record × List Text)) (records : List Record) : Prop :=
  List.Forall₂ (fun start r => start.1.Gains start.2 r) begun records

/-- The records begun by lines and before them, each with the lines that add to it. -/
def begun (opened : Option Record) (raws : List Text) : List (Record × List Text) :=
  match opened with
  | none => sections raws
  | some r => (r, sectionLines raws) :: sections raws

theorem sectionLines_cons_of_isMark {raw : Text} (marked : IsMark raw) (raws : List Text) :
    sectionLines (raw :: raws) = [] :=
  List.takeWhile_cons_of_neg (by simpa using marked)

theorem sectionLines_cons {raw : Text} (unmarked : ¬ IsMark raw) (raws : List Text) :
    sectionLines (raw :: raws) = raw :: sectionLines raws :=
  List.takeWhile_cons_of_pos (by simpa using unmarked)

theorem sections_cons {raw : Text} (unopened : ¬ OpensRecord raw) (raws : List Text) :
    sections (raw :: raws) = sections raws := if_neg unopened

section

variable {r : Record} {raw : Text} {raws : List Text} {records : List Record}

/-- The record that is open before a mark gains nothing more. -/
theorem Finishes.cons_of_isMark {opened : Option Record} (marked : IsMark raw)
    (later : Finishes (sections (raw :: raws)) records) :
    Finishes (begun opened (raw :: raws)) (opened.toList ++ records) := by
  cases opened with
  | none => exact later
  | some r =>
      rw [begun, sectionLines_cons_of_isMark marked]
      exact .cons r.gains_nil later

theorem Finishes.cons_outside (unopened : ¬ OpensRecord raw)
    (later : Finishes (begun none raws) records) : Finishes (begun none (raw :: raws)) records := by
  rw [begun, sections_cons unopened]
  exact later

theorem Finishes.cons_hit {n c : Int} (unmarked : ¬ IsMark raw) (hit : hit? raw = some (n, c))
    (later : Finishes (begun (some (r.add n c.toNat)) raws) records) :
    Finishes (begun (some r) (raw :: raws)) records := by
  rw [begun, sectionLines_cons unmarked, sections_cons (not_or.1 unmarked).1]
  rw [begun] at later
  cases later with
  | cons first later => exact .cons (first.cons_hit hit) later

theorem Finishes.cons_other (unmarked : ¬ IsMark raw) (none : hit? raw = none)
    (later : Finishes (begun (some r) raws) records) :
    Finishes (begun (some r) (raw :: raws)) records := by
  rw [begun, sectionLines_cons unmarked, sections_cons (not_or.1 unmarked).1]
  rw [begun] at later
  cases later with
  | cons first later => exact .cons (first.cons none) later

/-- Reading the lines finishes the records that are begun. -/
theorem finishes_of_gather {opened : Option Record}
    (read : gather opened (raws.map Line.ofText) = .ok records) :
    Finishes (begun opened raws) records := by
  induction raws generalizing opened records with
  | nil =>
      rw [List.map_nil, gather_nil] at read
      obtain rfl := Except.ok.inj read
      cases opened with
      | none => exact .nil
      | some r => exact .cons r.gains_nil .nil
  | cons raw raws ih =>
      rw [List.map_cons] at read
      by_cases opens : OpensRecord raw
      · rw [ofText_of_sourceMark opens, gather_source] at read
        obtain ⟨later, eq, rfl⟩ := map_eq_ok_iff.1 read
        refine .cons_of_isMark (.inl opens) ?_
        rw [sections, if_pos opens]
        exact ih eq
      · by_cases closes : ClosesRecord raw
        · rw [ofText_of_endMark closes, gather_recordEnd] at read
          obtain ⟨later, eq, rfl⟩ := map_eq_ok_iff.1 read
          refine .cons_of_isMark (.inr closes) ?_
          rw [sections_cons opens]
          exact ih eq
        · have unmarked : ¬ IsMark raw := not_or.2 ⟨opens, closes⟩
          cases opened with
          | none =>
              refine .cons_outside opens (ih ?_)
              rcases ofText_cases unmarked with ⟨n, c, _, eq⟩ | ⟨_, ⟨n, eq⟩ | eq⟩
              all_goals
                rw [eq] at read
                exact read
          | some r =>
              rcases ofText_cases unmarked with ⟨n, c, hit, eq⟩ | ⟨none, ⟨n, eq⟩ | eq⟩
              · rw [eq] at read
                exact .cons_hit unmarked hit (ih read)
              · rw [eq] at read
                cases read
              · rw [eq] at read
                exact .cons_other unmarked none (ih read)

end

theorem Finishes.map_source {begun : List (Record × List Text)} {records : List Record}
    (finished : Finishes begun records) :
    records.map (·.source) = begun.map (·.1.source) := by
  induction finished with
  | nil => rfl
  | cons first _ ih => rw [List.map_cons, List.map_cons, ih, first.1]

theorem Finishes.exists_getElem? {begun : List (Record × List Text)} {records : List Record}
    (finished : Finishes begun records) {k : Nat} {r : Record} {raws : List Text}
    (here : begun[k]? = some (r, raws)) : ∃ r', records[k]? = some r' ∧ r.Gains raws r' := by
  obtain ⟨lt, eq⟩ := List.getElem?_eq_some_iff.1 here
  have lt' : k < records.length := finished.length_eq ▸ lt
  refine ⟨records[k], List.getElem?_eq_getElem lt', ?_⟩
  have gains := finished.get lt lt'
  rw [List.get_eq_getElem, eq] at gains
  exact gains

theorem map_source_sections (raws : List Text) :
    (sections raws).map (·.1.source) =
      (raws.filter fun raw => OpensRecord raw).map openedSource := by
  induction raws with
  | nil => rfl
  | cons raw raws ih =>
      by_cases opens : OpensRecord raw
      · rw [sections, if_pos opens, List.filter_cons_of_pos (by simpa using opens), List.map_cons,
          List.map_cons, ih]
      · rw [sections_cons opens, List.filter_cons_of_neg (by simpa using opens), ih]

/-- The section of the line that opens the `k`-th record is the `k`-th section. -/
theorem getElem?_sections {opener : Text} (opens : OpensRecord opener) (early late : List Text) :
    (sections (early ++ opener :: late))[early.countP fun raw => OpensRecord raw]? =
      some (⟨openedSource opener, Hits.none⟩, sectionLines late) := by
  induction early with
  | nil =>
      rw [List.nil_append, sections, if_pos opens]
      rfl
  | cons raw early ih =>
      rw [List.cons_append]
      by_cases first : OpensRecord raw
      · rw [sections, if_pos first, List.countP_cons_of_pos (by simpa using first),
          List.getElem?_cons_succ, ih]
      · rw [sections_cons first, List.countP_cons_of_neg (by simpa using first), ih]

/-! ### Lines that could be missing -/

theorem isClosedAfter_append_singleton {raw : Text} (unmarked : ¬ IsMark raw) (raws : List Text) :
    IsClosedAfter (raws ++ [raw]) ↔ IsClosedAfter raws := by
  rw [IsClosedAfter, IsClosedAfter, List.filter_append,
    List.filter_cons_of_neg (by simpa using unmarked), List.filter_nil, List.append_nil]

theorem isClosedAfter_append_mark {raw : Text} (marked : IsMark raw) (raws : List Text) :
    IsClosedAfter (raws ++ [raw]) ↔ ClosesRecord raw := by
  rw [IsClosedAfter, List.filter_append, List.filter_cons_of_pos (by simpa using marked),
    List.filter_nil, List.getLast?_concat]
  simp

theorem opensAfter_eq_false_iff (raws : List Text) :
    opensAfter false (raws.map Line.ofText) = false ↔ IsClosedAfter raws := by
  induction raws using List.reverseRecOn with
  | nil => exact iff_of_true rfl (by simp [IsClosedAfter])
  | append_singleton raws raw ih =>
      rw [List.map_append, List.map_singleton, opensAfter_append]
      by_cases opens : OpensRecord raw
      · rw [ofText_of_sourceMark opens, isClosedAfter_append_mark (.inl opens)]
        exact iff_of_false (by simp [opensAfter]) fun closes =>
          not_opensRecord_of_closesRecord closes opens
      · by_cases closes : ClosesRecord raw
        · rw [ofText_of_endMark closes, isClosedAfter_append_mark (.inr closes)]
          exact iff_of_true rfl closes
        · have unmarked : ¬ IsMark raw := not_or.2 ⟨opens, closes⟩
          rw [isClosedAfter_append_singleton unmarked, ← ih]
          rcases ofText_cases unmarked with ⟨n, c, _, eq⟩ | ⟨_, ⟨n, eq⟩ | eq⟩
          all_goals
            rw [eq]
            rfl

theorem map_append_bind {ε α : Type} (first : List α) (x y : Except ε (List α)) :
    Except.map (first ++ ·) (do
      let l ← x
      let more ← y
      return l ++ more) = (do
      let l ← x.map (first ++ ·)
      let more ← y
      return l ++ more) := by
  cases x with
  | error e => rfl
  | ok l =>
      cases y with
      | error e => rfl
      | ok more => exact congrArg Except.ok (List.append_assoc first l more).symm

/-- Where no record is open, reading starts anew. -/
theorem gather_append_of_closed {opened : Option Record} {past : List Line}
    (closed : opensAfter opened.isSome past = false) (future : List Line) :
    gather opened (past ++ future) = (do
      let records ← gather opened past
      let more ← gather none future
      return records ++ more) := by
  induction past generalizing opened with
  | nil =>
      cases opened with
      | some r => cases closed
      | none =>
          rw [List.nil_append, gather_nil]
          cases gather none future <;> rfl
  | cons line past ih =>
      rw [List.cons_append]
      cases line with
      | source path =>
          rw [gather_source, gather_source, ih closed]
          exact map_append_bind _ _ _
      | recordEnd =>
          rw [gather_recordEnd, gather_recordEnd, ih closed]
          exact map_append_bind _ _ _
      | hit n count =>
          cases opened with
          | none => cases count <;> exact ih closed
          | some r =>
              cases count with
              | none => rfl
              | some c => exact ih closed
      | other =>
          rw [gather_other, gather_other]
          exact ih closed

/-- A line that is neither a mark nor a hit of an open record could as well be missing. -/
theorem parse_without_line {t t' raw : Text} {before after : List Text}
    (with_line : Text.recordLines t' = before ++ raw :: after)
    (without : Text.recordLines t = before ++ after) (unmarked : ¬ IsMark raw)
    (idle : IsClosedAfter before ∨ hit? raw = none) :
    parse t' = parse t ∨
      parse t' = .error .infinite ∧ IsInfiniteHit raw ∧ ¬ IsClosedAfter before := by
  rw [parse, parse, with_line, without, List.map_append, List.map_append, List.map_cons]
  by_cases closed : IsClosedAfter before
  · have closed := (opensAfter_eq_false_iff before).2 closed
    have outside : ∀ lines, gather none (Line.ofText raw :: lines) = gather none lines := by
      intro lines
      rcases ofText_cases unmarked with ⟨n, c, _, eq⟩ | ⟨_, ⟨n, eq⟩ | eq⟩
      all_goals
        rw [eq]
        rfl
    have split := @gather_append_of_closed none _ closed
    rw [split, split, outside]
    exact .inl rfl
  · rcases ofText_cases unmarked with ⟨n, c, hit, eq⟩ | ⟨_, infinite | eq⟩
    · rw [hit] at idle
      exact absurd idle (not_or.2 ⟨closed, Option.some_ne_none _⟩)
    · obtain ⟨n, eq⟩ := infinite
      have opens : opensAfter false (before.map Line.ofText) = true := by
        rw [← Bool.not_eq_false, opensAfter_eq_false_iff]
        exact closed
      refine .inr ⟨(gather_eq_error_iff none _).2 ⟨_, n, _, by rw [eq], opens⟩, ?_, closed⟩
      exact (exists_ofText_eq_hit_none_iff raw).1 ⟨n, eq⟩
    · rw [eq]
      exact .inl (gather_append_other none _ _)

/-- A text whose last line is complete and leaves no record open is read before the rest. -/
theorem parse_append_of_closed {s : Text} (complete : ['\n'] <:+ s)
    (closed : IsClosedAfter (Text.recordLines s)) (t : Text) :
    parse (s ++ t) = (do
      let records ← parse s
      let more ← parse t
      return records ++ more) := by
  obtain ⟨s, rfl⟩ := complete
  have lines := Text.recordLines_append_lineFeed s t
  have closed := (opensAfter_eq_false_iff _).2 closed
  rw [parse, parse, parse, List.append_assoc, List.singleton_append, lines, List.map_append]
  exact @gather_append_of_closed none _ closed _

/-! ### Whole tracefiles -/

/--
A tracefile that can be read has one record for each line that opens one, in their order.  The
record lists the line numbers that its section has hits of, each with the sum of their counts.  A
line that neither opens nor closes a record could as well be missing if it is no hit, or if no
record is open where it stands, unless it makes the file unreadable.  A text that ends with a line
feed and leaves no record open is read before what follows it.
-/
theorem parse_by_sections :
    (∀ t records, parse t = .ok records →
      records.map (·.source) =
        ((Text.recordLines t).filter fun raw => OpensRecord raw).map openedSource ∧
      ∀ early opener late, Text.recordLines t = early ++ opener :: late → OpensRecord opener →
        ∃ r, records[early.countP fun raw => OpensRecord raw]? = some r ∧
          ∀ n, r.hits.get? n = Hits.total? (countsOf n (sectionLines late))) ∧
    (∀ t t' before raw after, Text.recordLines t' = before ++ raw :: after →
      Text.recordLines t = before ++ after → ¬ IsMark raw →
      IsClosedAfter before ∨ hit? raw = none →
        parse t' = parse t ∨
          parse t' = .error .infinite ∧ IsInfiniteHit raw ∧ ¬ IsClosedAfter before) ∧
    ∀ s t, ['\n'] <:+ s → IsClosedAfter (Text.recordLines s) →
      parse (s ++ t) = (do
        let records ← parse s
        let more ← parse t
        return records ++ more) := by
  refine ⟨fun t records read => ?_, fun t t' before raw after => parse_without_line,
    fun s t complete closed => parse_append_of_closed complete closed t⟩
  have finished : Finishes (sections (Text.recordLines t)) records := finishes_of_gather read
  refine ⟨finished.map_source.trans (map_source_sections _), ?_⟩
  intro early opener late eq opens
  rw [eq] at finished
  obtain ⟨r, here, _, counts⟩ := finished.exists_getElem? (getElem?_sections opens early late)
  exact ⟨r, here, counts⟩

/-- A hit outside of the records, one that is no number, and a second file after the first. -/
theorem parse_by_sections_of_two_files :
    ∃ r r', parse "DA:1,9\nSF:A.kt\nDA:1,2\nDA:1,-3\nDA:1,1.9\nSF:B.kt\nend_of_record\nDA:1,7\n" =
        .ok [r, r'] ∧
      r.hits.get? 1 = some 3 ∧ r'.hits.get? 1 = none ∧
      parse "SF:A.kt\nDA:1,1\nDA:1,x\nDA:2,1\n" = parse "SF:A.kt\nDA:1,1\nDA:2,1\n" ∧
      parse ("SF:A.kt\nDA:1,1\nend_of_record\n" ++ ("SF:B.kt\nDA:2,0" : Text)) =
        .ok [⟨"A.kt", Hits.none.add 1 1⟩, ⟨"B.kt", Hits.none.add 2 0⟩] := by
  obtain ⟨read, inserted, appended⟩ := parse_by_sections
  have parsed : parse
      "DA:1,9\nSF:A.kt\nDA:1,2\nDA:1,-3\nDA:1,1.9\nSF:B.kt\nend_of_record\nDA:1,7\n" =
        .ok [⟨"A.kt", Hits.none.add 1 3⟩, ⟨"B.kt", Hits.none⟩] := by decide +kernel
  obtain ⟨_, each⟩ := read _ _ parsed
  obtain ⟨r, here, counts⟩ := each ["DA:1,9"] "SF:A.kt"
    ["DA:1,2", "DA:1,-3", "DA:1,1.9", "SF:B.kt", "end_of_record", "DA:1,7"]
    (by decide) (by decide)
  obtain ⟨r', here', counts'⟩ := each ["DA:1,9", "SF:A.kt", "DA:1,2", "DA:1,-3", "DA:1,1.9"]
    "SF:B.kt" ["end_of_record", "DA:1,7"] (by decide) (by decide)
  obtain rfl : _ = r := Option.some.inj here
  obtain rfl : _ = r' := Option.some.inj here'
  refine ⟨_, _, parsed, ?_, ?_, ?_, ?_⟩
  · exact (counts 1).trans (by decide +kernel)
  · exact (counts' 1).trans (by decide +kernel)
  · refine (inserted "SF:A.kt\nDA:1,1\nDA:2,1\n" "SF:A.kt\nDA:1,1\nDA:1,x\nDA:2,1\n"
      ["SF:A.kt", "DA:1,1"] "DA:1,x" ["DA:2,1"] (by decide) (by decide) (by decide)
      (.inr (by decide +kernel))).resolve_right ?_
    intro failed
    exact absurd failed.1 (by decide +kernel)
  · rw [appended _ _ (by decide) (by decide)]
    decide +kernel

end Lcov

end FileCoverage
