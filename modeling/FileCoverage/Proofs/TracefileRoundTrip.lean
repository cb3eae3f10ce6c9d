import FileCoverage.Lcov.Printer
import FileCoverage.Proofs.CanonicalPath
import FileCoverage.Proofs.DecimalText
import FileCoverage.Proofs.KeyedList
import FileCoverage.Proofs.TracefileSections

/-!
# Tracefiles read back

What is written of records is read as the same records, if the numbers are not too large to be read
exactly and the path of every record is a line that trimming leaves as it is.  Each written line has
one meaning, whatever the path says, and the counts are put back in the order in which they stand.
-/

namespace FileCoverage

/-! ### Written lines -/

namespace Text

theorem all_clear_iff (t : Text) :
    (t.all fun c => !isRecordBreak c) = true ↔ ∀ c ∈ t, isRecordBreak c = false := by
  simp

theorem recordLines_append_of_clear {line : Text} (clear : ∀ c ∈ line, isRecordBreak c = false) :
    recordLines (line ++ ['\n']) = [line] := by
  induction line with
  | nil => rfl
  | cons c line ih =>
      obtain ⟨first, later⟩ := List.forall_mem_cons.1 clear
      have single : ¬ (c = '\r' ∧ (line ++ ['\n']).head? = some '\n') := by
        intro pair
        rw [pair.1] at first
        exact absurd first (by decide)
      rw [List.cons_append, recordLines_cons single, if_neg (by simp [first]), ih later]
      rfl

/-- Lines that are each ended by a line feed. -/
theorem recordLines_flatMap {lines : List Text}
    (clear : ∀ line ∈ lines, ∀ c ∈ line, isRecordBreak c = false) :
    recordLines (lines.flatMap (· ++ ['\n'])) = lines := by
  induction lines with
  | nil => rfl
  | cons line lines ih =>
      obtain ⟨first, later⟩ := List.forall_mem_cons.1 clear
      rw [List.flatMap_cons, List.append_assoc, List.singleton_append, recordLines_append_lineFeed,
        recordLines_append_of_clear first, ih later, List.singleton_append]

theorem isRecordBreak_of_isAsciiDigit {c : Char} (digit : isAsciiDigit c = true) :
    isRecordBreak c = false :=
  forall_isAsciiDigit (fun c => isRecordBreak c = false) (by decide) digit

theorem isBlank_of_isAsciiDigit {c : Char} (digit : isAsciiDigit c = true) :
    isBlank c = false :=
  forall_isAsciiDigit (fun c => isBlank c = false) (by decide) digit

/-- An integer is written with digits and a minus sign. -/
theorem isAsciiDigit_of_mem_ofInt {n : Int} {c : Char} (mem : c ∈ ofInt n) :
    c = '-' ∨ isAsciiDigit c = true := by
  cases n with
  | ofNat m => exact .inr (isAsciiDigit_of_mem_ofNat mem)
  | negSucc m =>
      rcases List.mem_cons.1 mem with sign | digit
      · exact .inl sign
      · exact .inr (isAsciiDigit_of_mem_ofNat digit)

end Text

/-! ### Counts put back -/

namespace Hits

theorem counts_foldl_add {counts : KeyedList Int Nat} (distinct : (KeyedList.keys counts).Nodup) :
    (counts.foldl (fun total (line, count) => total.add line count) none).counts = counts := by
  induction counts using List.reverseRecOn with
  | nil => rfl
  | append_singleton counts last ih =>
      rw [KeyedList.keys, List.map_append, List.nodup_append] at distinct
      obtain ⟨distinct, -, apart⟩ := distinct
      have new : last.1 ∉ KeyedList.keys counts := fun old => apart _ old _ (by simp) rfl
      have unknown : KeyedList.get? last.1 counts = Option.none :=
        (KeyedList.get?_eq_none_iff last.1 counts).2 new
      rw [List.foldl_append]
      change KeyedList.put last.1 ((KeyedList.get? last.1 (counts.foldl _ none).counts).getD 0
        + last.2) (counts.foldl _ none).counts = _
      rw [ih distinct, unknown, Option.getD_none, Nat.zero_add]
      exact KeyedList.put_of_notMem_keys last.2 new

/-- Counts that are added to none are as they were. -/
theorem none_sum (hits : Hits) : none.sum hits = hits := by
  have same : (none.sum hits).counts = hits.counts := counts_foldl_add hits.nodup_lines
  cases summed : none.sum hits with
  | mk counts distinct =>
      rw [summed] at same
      cases hits
      cases same
      rfl

end Hits

namespace Lcov

/-! ### What a written line means -/

theorem ofText_sourceLine {path : Text} (trimmed : Text.trim path = path) :
    Line.ofText (sourceMark ++ path) = .source path := by
  have whole : Text.trim (sourceMark ++ path) = sourceMark ++ path := by
    refine (Text.trim_eq_self_iff _).2 ⟨?_, ?_⟩
    · intro c first
      obtain rfl : 'S' = c := Option.some.inj first
      decide
    · intro c last
      rw [List.getLast?_append] at last
      cases ends : path.getLast? with
      | none =>
          rw [ends] at last
          obtain rfl : ':' = c := Option.some.inj last
          decide
      | some d =>
          rw [ends] at last
          obtain rfl : d = c := Option.some.inj last
          exact ((Text.trim_eq_self_iff path).1 trimmed).2 d ends
  have opens : sourceMark <+: Text.trim (sourceMark ++ path) := by
    rw [whole]
    exact List.prefix_append _ _
  rw [ofText_of_sourceMark opens, whole, List.drop_left, trimmed]

theorem hitMark_prefix (line : Int) (count : Nat) : hitMark <+: hitLine line count := by
  rw [hitLine, List.append_assoc]
  exact List.prefix_append _ _

theorem trim_hitLine (line : Int) (count : Nat) :
    Text.trim (hitLine line count) = hitLine line count := by
  refine (Text.trim_eq_self_iff _).2 ⟨?_, ?_⟩
  · intro c first
    obtain rfl : 'D' = c := Option.some.inj first
    decide
  · intro c last
    have ends : ',' :: Text.ofNat count = [','] ++ Text.ofNat count := rfl
    rw [hitLine, ends, ← List.append_assoc,
      List.getLast?_append_of_ne_nil _ (Text.ofNat_ne_nil count)] at last
    exact Text.isBlank_of_isAsciiDigit
      (Text.isAsciiDigit_of_mem_ofNat (List.mem_of_getLast? last))

theorem splitOn_hitLine (line : Int) (count : Nat) :
    Text.splitOn ',' ((hitLine line count).drop hitMark.length) =
      [Text.ofInt line, Text.ofNat count] := by
  have left : ',' ∉ Text.ofInt line := fun mem =>
    (Text.isAsciiDigit_of_mem_ofInt mem).elim (by decide) (by decide)
  have right : ',' ∉ Text.ofNat count := Text.notMem_ofNat (by decide) count
  rw [hitLine, List.append_assoc, List.drop_left, Text.splitOn_append, Text.splitOn_of_notMem left,
    Text.splitOn_of_notMem right, List.singleton_append]

theorem numbers?_written {line : Int} {count : Nat}
    (few : (Text.ofNat line.natAbs).length ≤ Numeral.maxDigits) (small : count ≤ 2 ^ 53) :
    numbers? (Text.ofInt line) (Text.ofNat count) = some (line, (count : Int)) := by
  have short : (Text.ofNat count).length ≤ 16 :=
    (Nat.length_toDigits_le_iff (by decide) (by decide)).2 (Nat.lt_of_le_of_lt small (by decide))
  rw [numbers?, Numeral.parse_ofInt few, Binary64.parse?_ofNat (short.trans (by decide))]
  simp only [Except.toOption, Option.bind_eq_bind, Option.bind_some,
    Binary64.truncate?_ofNat small]
  rfl

theorem ofText_hitLine {line : Int} {count : Nat}
    (few : (Text.ofNat line.natAbs).length ≤ Numeral.maxDigits) (small : count ≤ 2 ^ 53) :
    Line.ofText (hitLine line count) = .hit line (some count) := by
  have mark : hitMark <+: Text.trim (hitLine line count) := by
    rw [trim_hitLine]
    exact hitMark_prefix line count
  rw [ofText_of_hitMark mark, trim_hitLine, splitOn_hitLine, Line.ofFields]
  rcases ofNumbers_cases (Text.ofInt line) (Text.ofNat count) with ⟨n, c, read, eq⟩ | ⟨unread, _⟩
  · rw [numbers?_written few small] at read
    cases read
    exact eq
  · rw [numbers?_written few small] at unread
    cases unread

/-! ### Records one after the other -/

/-- A record that is read back when it is written. -/
structure Record.IsWritable (r : Record) : Prop where
  oneLine : ∀ c ∈ r.source, Text.isRecordBreak c = false
  trimmed : Text.trim r.source = r.source
  lines : ∀ hit ∈ r.hits.counts, (Text.ofNat hit.1.natAbs).length ≤ Numeral.maxDigits
  counts : ∀ hit ∈ r.hits.counts, hit.2 ≤ 2 ^ 53

instance (r : Record) : Decidable r.IsWritable :=
  decidable_of_iff ((r.source.all fun c => !Text.isRecordBreak c) = true ∧
      Text.trim r.source = r.source ∧
      (∀ hit ∈ r.hits.counts, (Text.ofNat hit.1.natAbs).length ≤ Numeral.maxDigits) ∧
      ∀ hit ∈ r.hits.counts, hit.2 ≤ 2 ^ 53)
    ⟨fun ⟨oneLine, trimmed, lines, counts⟩ =>
        ⟨(Text.all_clear_iff _).1 oneLine, trimmed, lines, counts⟩,
      fun r => ⟨(Text.all_clear_iff _).2 r.oneLine, r.trimmed, r.lines, r.counts⟩⟩

/-- What the lines of a record mean. -/
def Record.meanings (r : Record) : List Line :=
  .source r.source :: r.hits.counts.map (fun (line, count) => .hit line (some count))
    ++ [.recordEnd]

theorem Record.IsWritable.map_lines {r : Record} (writable : r.IsWritable) :
    r.lines.map Line.ofText = r.meanings := by
  have hits : ∀ hit ∈ r.hits.counts, Line.ofText (hitLine hit.1 hit.2) = .hit hit.1 (some hit.2) :=
    fun hit mem => ofText_hitLine (writable.lines hit mem) (writable.counts hit mem)
  have close : Line.ofText endMark = .recordEnd := ofText_of_endMark (by decide)
  rw [Record.lines, Record.meanings, List.map_append, List.map_cons, List.map_map,
    ofText_sourceLine writable.trimmed, List.map_singleton, close]
  exact congrArg (_ :: · ++ _) (List.map_congr_left hits)

theorem isRecordBreak_of_mem_hitLine {line : Int} {count : Nat} {c : Char}
    (mem : c ∈ hitLine line count) : Text.isRecordBreak c = false := by
  rw [hitLine, List.mem_append, List.mem_append, List.mem_cons] at mem
  rcases mem with (mark | first) | comma | second
  · exact (Text.all_clear_iff hitMark).1 (by decide) c mark
  · rcases Text.isAsciiDigit_of_mem_ofInt first with rfl | digit
    · decide
    · exact Text.isRecordBreak_of_isAsciiDigit digit
  · rw [comma]
    decide
  · exact Text.isRecordBreak_of_isAsciiDigit (Text.isAsciiDigit_of_mem_ofNat second)

theorem Record.IsWritable.clear {r : Record} (writable : r.IsWritable) :
    ∀ line ∈ r.lines, ∀ c ∈ line, Text.isRecordBreak c = false := by
  intro line mem c here
  rw [Record.lines, List.cons_append, List.mem_cons, List.mem_append] at mem
  rcases mem with source | hit | close
  · rw [source, List.mem_append] at here
    rcases here with mark | path
    · exact (Text.all_clear_iff sourceMark).1 (by decide) c mark
    · exact writable.oneLine c path
  · obtain ⟨hit, _, rfl⟩ := List.mem_map.1 hit
    exact isRecordBreak_of_mem_hitLine here
  · rw [List.mem_singleton.1 close] at here
    exact (Text.all_clear_iff endMark).1 (by decide) c here

theorem gather_hits (r : Record) (counts : List (Int × Nat)) (lines : List Line) :
    gather (some r) (counts.map (fun (line, count) => .hit line (some count)) ++ lines) =
      gather (some ⟨r.source,
        counts.foldl (fun total (line, count) => total.add line count) r.hits⟩) lines := by
  induction counts generalizing r with
  | nil => rfl
  | cons first counts ih => exact ih (r.add first.1 first.2)

theorem gather_meanings (r : Record) (lines : List Line) :
    gather none (r.meanings ++ lines) = (gather none lines).map (r :: ·) := by
  have whole : r.hits.counts.foldl (fun total (line, count) => total.add line count) Hits.none =
      r.hits := Hits.none_sum r.hits
  rw [Record.meanings, List.cons_append, List.cons_append, gather_source, List.append_assoc,
    gather_hits, whole, List.singleton_append, gather_recordEnd]
  cases gather none lines <;> rfl

theorem gather_flatMap_meanings (records : List Record) :
    gather none (records.flatMap Record.meanings) = .ok records := by
  induction records with
  | nil => rfl
  | cons r records ih =>
      rw [List.flatMap_cons, gather_meanings, ih]
      rfl

/-- Records that can be written are read back as they are, in their order. -/
theorem parse_print {records : List Record} (writable : ∀ r ∈ records, r.IsWritable) :
    parse (print records) = .ok records := by
  have lines : Text.recordLines (print records) = records.flatMap Record.lines := by
    have joined : print records = (records.flatMap Record.lines).flatMap (· ++ ['\n']) :=
      List.flatMap_assoc.symm
    rw [joined]
    apply Text.recordLines_flatMap
    intro line mem
    obtain ⟨r, here, mem⟩ := List.mem_flatMap.1 mem
    exact (writable r here).clear line mem
  have meanings : (records.flatMap Record.lines).map Line.ofText =
      records.flatMap Record.meanings := by
    rw [List.map_flatMap]
    exact List.flatMap_congr fun r mem => (writable r mem).map_lines
  rw [parse, lines, meanings, gather_flatMap_meanings]

/-- A path that looks like a hit, a line that never ran, one below zero and the largest count. -/
theorem parse_print_of_two_records :
    parse (print [⟨"DA:1,2 .kt", (Hits.none.add 1 0).add (-3) (2 ^ 53)⟩, ⟨[], Hits.none⟩]) =
      .ok [⟨"DA:1,2 .kt", (Hits.none.add 1 0).add (-3) (2 ^ 53)⟩, ⟨[], Hits.none⟩] ∧
    print [⟨"DA:1,2 .kt", (Hits.none.add 1 0).add (-3) (2 ^ 53)⟩, ⟨[], Hits.none⟩] =
      "SF:DA:1,2 .kt\nDA:1,0\nDA:-3,9007199254740992\nend_of_record\nSF:\nend_of_record\n" :=
  ⟨parse_print (by decide +kernel), by decide +kernel⟩

end Lcov

end FileCoverage
