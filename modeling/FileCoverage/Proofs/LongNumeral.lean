import FileCoverage.Json.Reader
import FileCoverage.Proofs.DecimalText
import Mathlib.Data.List.Basic
import Mathlib.Data.List.TakeWhile

/-!
# Numerals too long to read

Reading a text as JSON can fail for a reason that is no fault in its form: an integer is refused if
it has too many digits.  All that is read at any point is an end of the text, so those digits stand
in a row in the whole of it.  A text of nothing but so many digits is refused for that reason.
-/

namespace FileCoverage

/-- In the text, `n` digits stand in a row, which are more than an integer may have. -/
def Text.HasLongRun (n : Nat) (t : Text) : Prop :=
  Numeral.maxDigits < n ∧ ∃ run, run <:+: t ∧ run.length = n ∧ ∀ c ∈ run, isAsciiDigit c = true

theorem Text.HasLongRun.of_suffix {n : Nat} {s t : Text} (h : HasLongRun n s) (last : s <:+ t) :
    HasLongRun n t := by
  obtain ⟨many, run, inside, length, digits⟩ := h
  exact ⟨many, run, inside.trans last.isInfix, length, digits⟩

namespace Json

open Text (Rest HasLongRun)

variable {s t : Text} {opened : Nat}

/-! ### Digits -/

theorem digits_eq_map (s : Text) :
    digits s = (s.takeWhile Text.isAsciiDigit).map fun c => c.toNat - '0'.toNat := by
  have each : ∀ c ∈ s.takeWhile Text.isAsciiDigit,
      Text.digitValue? c = (some ∘ fun c => c.toNat - '0'.toNat) c := fun c mem =>
    Text.digitValue?_of_isAsciiDigit (List.mem_takeWhile_imp mem)
  rw [digits, List.filterMap_congr each, List.filterMap_eq_map]

theorem hasLongRun_digits (many : Numeral.maxDigits < (digits s).length) :
    HasLongRun (digits s).length s := by
  refine ⟨many, s.takeWhile Text.isAsciiDigit, (List.takeWhile_prefix _).isInfix, ?_, fun c mem =>
    List.mem_takeWhile_imp mem⟩
  rw [digits_eq_map, List.length_map]

/-! ### What a numeral is refused for -/

theorem ofRun_eq_error {negative : Bool} {run : List Nat} {fault : NumeralFault} (ne : run ≠ [])
    (refused : Numeral.ofRun negative run = .error fault) :
    Numeral.maxDigits < run.length ∧ fault = .tooLong run.length := by
  rw [Numeral.ofRun, if_neg ne] at refused
  split at refused
  · next many =>
      cases refused
      exact ⟨many, rfl⟩
  · cases refused

theorem numberValue_eq_error {negative : Bool} {whole : List Nat} {fraction : Option (List Nat)}
    {exponent : Option Int} {fault : NumeralFault}
    (refused : numberValue negative whole fraction exponent = .error fault) :
    Numeral.ofRun negative whole = .error fault := by
  rw [numberValue.eq_def] at refused
  split at refused
  · cases run : Numeral.ofRun negative whole with
    | error other =>
        rw [run] at refused
        cases refused
        rfl
    | ok n =>
        rw [run] at refused
        cases refused
  · cases refused

theorem hasLongRun_whole? {whole : List Nat} {rest : Rest s}
    (found : whole? s = some (whole, rest)) :
    whole ≠ [] ∧ (Numeral.maxDigits < whole.length → HasLongRun whole.length s) := by
  rw [whole?.eq_def] at found
  split at found
  · cases found
  · next c rest =>
      split at found
      · cases found
        exact ⟨List.cons_ne_nil _ _, fun many => absurd many (by decide)⟩
      · split at found
        · next digit =>
            cases found
            refine ⟨?_, hasLongRun_digits⟩
            rw [digits_eq_map, List.takeWhile_cons_of_pos digit]
            exact List.cons_ne_nil _ _
        · cases found

/-- What stops a reading of `s` is no numeral but one with too many digits, and these are in `s`. -/
def Stop.IsWithin (s : Text) : Stop → Prop
  | .malformed _ _ => True
  | .numeral fault => ∃ n, fault = .tooLong n ∧ HasLongRun n s

theorem Stop.IsWithin.of_suffix {stop : Stop} (h : stop.IsWithin s) (last : s <:+ t) :
    stop.IsWithin t := by
  cases stop with
  | malformed problem remaining => trivial
  | numeral fault =>
      obtain ⟨n, eq, run⟩ := h
      exact ⟨n, eq, run.of_suffix last⟩

theorem isWithin_unsignedNumber? {negative : Bool} {fault : NumeralFault} {rest : Rest s}
    (refused : unsignedNumber? negative s = some (.error fault, rest)) :
    (Stop.numeral fault).IsWithin s := by
  obtain ⟨⟨whole, after⟩, found, eq⟩ := Option.map_eq_some_iff.1 refused
  obtain ⟨ne, long⟩ := hasLongRun_whole? found
  obtain ⟨many, rfl⟩ := ofRun_eq_error ne (numberValue_eq_error (Prod.mk.inj eq).1)
  exact ⟨whole.length, rfl, long many⟩

theorem isWithin_number? {fault : NumeralFault} {rest : Rest s}
    (refused : number? s = some (.error fault, rest)) : (Stop.numeral fault).IsWithin s := by
  rw [number?.eq_def] at refused
  split at refused
  · next unsigned =>
      obtain ⟨⟨value, after⟩, found, eq⟩ := Option.map_eq_some_iff.1 refused
      obtain ⟨rfl, _⟩ := Prod.mk.inj eq
      exact (isWithin_unsignedNumber? found).of_suffix (List.suffix_cons _ _)
  · exact isWithin_unsignedNumber? refused

/-! ### What stops a reading -/

/-- If the reading of `s` is stopped, then by something within `s`. -/
def StopsWithin {α : Type} (s : Text) (reading : Except Stop α) : Prop :=
  ∀ stop, reading = .error stop → stop.IsWithin s

theorem stopsWithin_plain (s : Text) : StopsWithin s (plain s) := by
  intro stop stopped
  rw [plain] at stopped
  split at stopped
  · cases stopped
  · cases stopped
  · next refused =>
      cases stopped
      exact isWithin_number? refused
  · cases stopped
    trivial

theorem stopsWithin_secondHalf (s : Text) : StopsWithin s (secondHalf s) := by
  intro stop stopped
  rw [secondHalf.eq_def] at stopped
  split at stopped
  · split at stopped
    · cases stopped
      trivial
    · cases stopped
  · cases stopped

theorem stopsWithin_codeEscape (s : Text) : StopsWithin s (codeEscape s) := by
  intro stop stopped
  rw [codeEscape.eq_def] at stopped
  split at stopped
  · next a b c d e rest =>
      split at stopped
      · cases stopped
        trivial
      · dsimp only at stopped
        split at stopped
        · split at stopped
          · next found =>
              cases stopped
              exact (stopsWithin_secondHalf _ _ found).of_suffix (afterCode a b c d (e :: rest)).3
          · cases stopped
          · cases stopped
        · cases stopped
  · cases stopped
    trivial

theorem stopsWithin_escape (opened : Nat) (s : Text) : StopsWithin s (escape opened s) := by
  intro stop stopped
  rw [escape.eq_def] at stopped
  split at stopped
  · cases stopped
    trivial
  · next letter rest =>
      split at stopped
      · split at stopped
        · next found =>
            cases stopped
            exact (stopsWithin_codeEscape rest _ found).of_suffix (List.suffix_cons _ _)
        · cases stopped
      · split at stopped
        · cases stopped
        · cases stopped
          trivial

theorem stopsWithin_stringFrom (opened : Nat) (s : Text) : StopsWithin s (stringFrom opened s) := by
  intro stop stopped
  fun_induction stringFrom opened s generalizing stop with
  | case1 =>
      cases stopped
      trivial
  | case2 => cases stopped
  | case3 rest _ found =>
      cases stopped
      exact (stopsWithin_escape opened rest _ found).of_suffix (List.suffix_cons _ _)
  | case4 rest _ after _ _ found _ ih =>
      cases stopped
      exact ((ih _ found).of_suffix after.3).of_suffix (List.suffix_cons _ _)
  | case5 => cases stopped
  | case6 =>
      cases stopped
      trivial
  | case7 _ rest _ _ _ _ found ih =>
      cases stopped
      exact (ih _ found).of_suffix (List.suffix_cons _ _)
  | case8 => cases stopped

theorem stopsWithin_string (missing : Problem) (s : Text) : StopsWithin s (string missing s) := by
  intro stop stopped
  rw [string.eq_def] at stopped
  split at stopped
  · next rest =>
      split at stopped
      · next found =>
          cases stopped
          exact (stopsWithin_stringFrom _ rest _ found).of_suffix (List.suffix_cons _ _)
      · cases stopped
  · cases stopped
    trivial

theorem stopsWithin_colon (s : Text) : StopsWithin s (colon s) := by
  intro stop stopped
  rw [colon] at stopped
  split at stopped
  · split at stopped
    · cases stopped
    · cases stopped
      trivial
  · cases stopped
    trivial

theorem stopsWithin_separator (closer : Char) (s : Text) : StopsWithin s (separator closer s) := by
  intro stop stopped
  rw [separator] at stopped
  split at stopped
  · split at stopped
    · cases stopped
    · split at stopped
      · cases stopped
      · cases stopped
        trivial
  · cases stopped
    trivial

theorem stopsWithin_memberName (s : Text) : StopsWithin s (memberName s) := by
  intro stop stopped
  rw [memberName] at stopped
  split at stopped
  · next found =>
      cases stopped
      exact stopsWithin_string _ s _ found
  · next rest _ =>
      split at stopped
      · next found =>
          cases stopped
          exact (stopsWithin_colon _ _ found).of_suffix rest.3
      · cases stopped

theorem stopsWithin_value_of (shorter : ∀ t : Text, t.length < s.length →
    StopsWithin t (items t) ∧ StopsWithin t (members t)) : StopsWithin s (value s) := by
  intro stop stopped
  rw [value.eq_def] at stopped
  split at stopped
  · next rest =>
      split at stopped
      · cases stopped
      · split at stopped
        · next found =>
            cases stopped
            exact ((shorter _ (beyond '[' rest).2).1 _ found).of_suffix (beyond '[' rest).3
        · cases stopped
  · next rest =>
      split at stopped
      · cases stopped
      · split at stopped
        · next found =>
            cases stopped
            exact ((shorter _ (beyond '\x7b' rest).2).2 _ found).of_suffix (beyond '\x7b' rest).3
        · cases stopped
  · split at stopped
    · next found =>
        cases stopped
        exact stopsWithin_string _ _ _ found
    · cases stopped
  · exact stopsWithin_plain s stop stopped

theorem stopsWithin_items_of (first : StopsWithin s (value s))
    (shorter : ∀ t : Text, t.length < s.length → StopsWithin t (items t)) :
    StopsWithin s (items s) := by
  intro stop stopped
  rw [items] at stopped
  split at stopped
  · next found =>
      cases stopped
      exact first _ found
  · next rest _ =>
      split at stopped
      · next found =>
          cases stopped
          exact (stopsWithin_separator _ _ _ found).of_suffix rest.3
      · cases stopped
      · next next _ =>
          split at stopped
          · next found =>
              cases stopped
              exact (shorter _ (rest.trans next).2 _ found).of_suffix (rest.trans next).3
          · cases stopped

theorem stopsWithin_members_of (shorter : ∀ t : Text, t.length < s.length →
    StopsWithin t (value t) ∧ StopsWithin t (members t)) : StopsWithin s (members s) := by
  intro stop stopped
  rw [members] at stopped
  split at stopped
  · next found =>
      cases stopped
      exact stopsWithin_memberName s _ found
  · next rest _ =>
      split at stopped
      · next found =>
          cases stopped
          exact ((shorter _ rest.2).1 _ found).of_suffix rest.3
      · next rest' _ =>
          split at stopped
          · next found =>
              cases stopped
              exact (stopsWithin_separator _ _ _ found).of_suffix (rest.trans rest').3
          · cases stopped
          · next next _ =>
              split at stopped
              · next found =>
                  cases stopped
                  exact ((shorter _ (rest.trans (rest'.trans next)).2).2 _ found).of_suffix
                    (rest.trans (rest'.trans next)).3
              · cases stopped

theorem stopsWithin_parts (s : Text) :
    StopsWithin s (value s) ∧ StopsWithin s (items s) ∧ StopsWithin s (members s) := by
  generalize size : s.length = n
  -- The items of `s` begin with a value of `s` itself, so `first` comes before them.
  induction n using Nat.strong_induction_on generalizing s with
  | _ n ih =>
      subst size
      have shorter : ∀ t : Text, t.length < s.length →
          StopsWithin t (value t) ∧ StopsWithin t (items t) ∧ StopsWithin t (members t) :=
        fun t lt => ih t.length lt t rfl
      have first : StopsWithin s (value s) := stopsWithin_value_of fun t lt => (shorter t lt).2
      exact ⟨first, stopsWithin_items_of first fun t lt => (shorter t lt).2.1,
        stopsWithin_members_of fun t lt => ⟨(shorter t lt).1, (shorter t lt).2.2⟩⟩

theorem stopsWithin_document (t : Text) : StopsWithin t (document t) := by
  intro stop stopped
  rw [document] at stopped
  split at stopped
  · cases stopped
    trivial
  · split at stopped
    · next found =>
        cases stopped
        exact ((stopsWithin_parts (skip t)).1 _ found).of_suffix (List.dropWhile_suffix _)
    · split at stopped
      · cases stopped
      · cases stopped
        trivial

/-- Reading fails for a numeral only if the text has too many digits in a row. -/
theorem hasLongRun_of_read {fault : NumeralFault} (refused : read t = .error (.numeral fault)) :
    ∃ n, fault = .tooLong n ∧ HasLongRun n t := by
  rw [read] at refused
  cases stopped : document t with
  | ok v =>
      rw [stopped] at refused
      cases refused
  | error stop =>
      have within := stopsWithin_document t stop stopped
      rw [stopped] at refused
      cases stop with
      | malformed problem remaining => cases refused
      | numeral other =>
          cases refused
          exact within

/-! ### A text of digits -/

theorem optional_of_nil {α : Type} {read? : (t : Text) → Option (α × Rest t)} {r : Rest s}
    (left : r.1 = []) (absent : read? [] = none) : optional read? r = (none, r) := by
  obtain ⟨rest, shorter, isEnd⟩ := r
  obtain rfl : rest = [] := left
  rw [optional]
  simp only [absent]

/-- A digit is first in the text. -/
def StartsWithDigit (t : Text) : Prop := ∃ c rest, t = c :: rest ∧ Text.isAsciiDigit c = true

theorem StartsWithDigit.head?_ne (h : StartsWithDigit t) {c : Char}
    (other : Text.isAsciiDigit c = false) : t.head? ≠ some c := by
  obtain ⟨d, rest, rfl, digit⟩ := h
  rw [List.head?_cons]
  rintro ⟨⟩
  rw [other] at digit
  cases digit

theorem StartsWithDigit.ne_cons (h : StartsWithDigit t) {c : Char}
    (other : Text.isAsciiDigit c = false) (rest : Text) : t ≠ c :: rest := by
  rintro rfl
  exact h.head?_ne other rfl

theorem after?_eq_none {c : Char} {word : Text} (first : word.head? = some c)
    (other : t.head? ≠ some c) : after? word t = none := by
  rw [after?, dif_neg]
  rintro ⟨begins, _⟩
  obtain ⟨rest, rfl⟩ := List.isPrefixOf_iff_prefix.1 begins
  rw [List.head?_append, first] at other
  exact other rfl

theorem named?_of_startsWithDigit (h : StartsWithDigit t) : named? t = none := by
  have letters : ∀ entry ∈ namedValues,
      entry.1.head?.any (fun c => !Text.isAsciiDigit c) = true := by
    decide
  rw [named?, List.findSome?_eq_none_iff]
  intro entry mem
  obtain ⟨c, first, letter⟩ := (Option.any_eq_true _ _).1 (letters entry mem)
  obtain ⟨word, v⟩ := entry
  simp only [after?_eq_none first (h.head?_ne (by simpa using letter)), Option.map_none]

theorem number?_of_startsWithDigit (h : StartsWithDigit t) :
    number? t = unsignedNumber? false t := by
  rw [number?.eq_def]
  split
  · next rest => exact absurd rfl (h.ne_cons rfl rest)
  · rfl

theorem value_of_startsWithDigit (h : StartsWithDigit t) : value t = plain t := by
  rw [value.eq_def]
  split
  · next rest => exact absurd rfl (h.ne_cons rfl rest)
  · next rest => exact absurd rfl (h.ne_cons rfl rest)
  · next rest => exact absurd rfl (h.ne_cons rfl rest)
  · rfl

theorem number?_of_long_run {c : Char} (digits : ∀ d ∈ c :: s, Text.isAsciiDigit d = true)
    (first : c ≠ '0') (many : Numeral.maxDigits < (c :: s).length) :
    ∃ rest, number? (c :: s) = some (.error (.tooLong (c :: s).length), rest) := by
  have digit := digits c List.mem_cons_self
  have run : Json.digits (c :: s) = (c :: s).map fun d => d.toNat - '0'.toNat := by
    rw [digits_eq_map, List.takeWhile_eq_self_iff.2 digits]
  have refused : numberValue false (Json.digits (c :: s)) none none =
      .error (.tooLong (c :: s).length) := by
    have ne : Json.digits (c :: s) ≠ [] := by rw [run]; exact List.cons_ne_nil _ _
    have length : (Json.digits (c :: s)).length = (c :: s).length := by rw [run, List.length_map]
    rw [numberValue, Numeral.ofRun, if_neg ne, length, if_pos many]
    rfl
  have left : (afterDigits (Rest.tail c s)).1 = [] :=
    List.dropWhile_eq_nil_iff.2 fun d mem => digits d (List.mem_cons_of_mem c mem)
  have whole : whole? (c :: s) =
      some (Json.digits (c :: s), afterDigits (Rest.tail c s)) := by
    rw [whole?, if_neg first, if_pos digit]
  have noFraction : optional fraction? (afterDigits (Rest.tail c s)) = (none, _) :=
    optional_of_nil left rfl
  have noExponent : optional exponent? (afterDigits (Rest.tail c s)) = (none, _) :=
    optional_of_nil left rfl
  refine ⟨afterDigits (Rest.tail c s), ?_⟩
  rw [number?_of_startsWithDigit ⟨c, s, rfl, digit⟩, unsignedNumber?, whole, Option.map_some]
  simp only [noFraction, noExponent, refused]

/-- A text of too many digits is no JSON text, for that reason. -/
theorem read_of_long_run {c : Char} (digits : ∀ d ∈ c :: s, Text.isAsciiDigit d = true)
    (first : c ≠ '0') (many : Numeral.maxDigits < (c :: s).length) :
    read (c :: s) = .error (.numeral (.tooLong (c :: s).length)) := by
  have starts : StartsWithDigit (c :: s) := ⟨c, s, rfl, digits c List.mem_cons_self⟩
  obtain ⟨rest, number⟩ := number?_of_long_run digits first many
  have refused : value (c :: s) = .error (.numeral (.tooLong (c :: s).length)) := by
    rw [value_of_startsWithDigit starts, plain, named?_of_startsWithDigit starts, number]
  have solid : isSpace c = false := by
    cases blank : isSpace c with
    | false => rfl
    | true =>
        simp only [isSpace, Bool.or_eq_true, decide_eq_true_eq] at blank
        rcases blank with ((rfl | rfl) | rfl) | rfl
        all_goals exact absurd rfl (starts.head?_ne rfl)
  have skipped : skip (c :: s) = c :: s := List.dropWhile_cons_of_neg (by simp [solid])
  have refused' : value (skip (c :: s)) = .error (.numeral (.tooLong (c :: s).length)) := by
    rw [skipped]
    exact refused
  have stopped : document (c :: s) = .error (.numeral (.tooLong (c :: s).length)) := by
    rw [document, if_neg (starts.head?_ne rfl), refused']
  rw [read, stopped]
  rfl

end Json

end FileCoverage
