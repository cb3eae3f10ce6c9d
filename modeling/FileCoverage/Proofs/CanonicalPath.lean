import FileCoverage.Proofs.Pieces
import FileCoverage.Proofs.RespelledPath
import Mathlib.Data.List.TakeWhile

/-!
# Canonical paths

The path of a file is canonical if it is normal and written as any path is: then it is the list of
its names with slashes between them.  Such a list gives a canonical path if no blank stands at
either end of the text and no backslash in it, so a name may be exchanged for another one.
-/

namespace FileCoverage

/-! ### Texts that trimming and normalizing leave as they are -/

namespace Text

theorem dropWhile_eq_self_iff (p : Char → Bool) (t : Text) :
    t.dropWhile p = t ↔ ∀ c ∈ t.head?, p c = false := by
  cases t with
  | nil => simp
  | cons c t => simp [List.dropWhile_eq_self_iff]

theorem trim_infix (t : Text) : trim t <:+: t := by
  have kept : trim t <+: t.dropWhile isBlank := by
    rw [← List.reverse_suffix, trim, trimBy, List.reverse_reverse]
    exact List.dropWhile_suffix _
  exact kept.isInfix.trans (List.dropWhile_suffix _).isInfix

theorem trim_eq_self_iff (t : Text) : trim t = t ↔
    (∀ c ∈ t.head?, isBlank c = false) ∧ ∀ c ∈ t.getLast?, isBlank c = false := by
  rw [← List.head?_reverse, ← dropWhile_eq_self_iff, ← dropWhile_eq_self_iff]
  constructor
  · intro same
    have length : (trim t).length ≤ (t.dropWhile isBlank).length := by
      rw [trim, trimBy, List.length_reverse]
      exact (List.dropWhile_suffix _).length_le.trans_eq List.length_reverse
    rw [same] at length
    have first := (List.dropWhile_suffix isBlank).eq_of_length_le length
    rw [trim, trimBy, first] at same
    exact ⟨first, by rw [← List.reverse_inj, same, List.reverse_reverse]⟩
  · rintro ⟨first, last⟩
    rw [trim, trimBy, first, last, List.reverse_reverse]

end Text

namespace RepositoryPath

theorem dropDots_suffix (t : Text) : dropDots t <:+ t := by
  fun_induction dropDots t with
  | case1 rest ih => exact ih.trans ⟨['.', '/'], rfl⟩
  | case2 => exact List.suffix_rfl

theorem dropDots_eq_self_iff (t : Text) : dropDots t = t ↔ ¬ ['.', '/'] <+: t := by
  refine ⟨?_, dropDots_of_not_dotted⟩
  rintro same ⟨rest, rfl⟩
  have shorter := (dropDots_suffix rest).length_le
  change dropDots rest = _ at same
  rw [same, List.length_append, List.length_cons] at shorter
  omega

theorem slash_ne_backslash (c : Char) : slash c ≠ '\\' := by
  rw [slash]
  split
  · decide
  · assumption

theorem map_slash_eq_self_iff (t : Text) : t.map slash = t ↔ '\\' ∉ t := by
  constructor
  · intro same backslash
    rw [← same, List.mem_map] at backslash
    obtain ⟨c, _, eq⟩ := backslash
    exact slash_ne_backslash c eq
  · intro clear
    refine (List.map_congr_left fun c mem => if_neg ?_).trans (List.map_id t)
    rintro rfl
    exact clear mem

/-- What is normal: nothing is trimmed, exchanged or dropped. -/
theorem normalize_eq_self_iff (t : Text) : normalize t = t ↔
    Text.trim t = t ∧ '\\' ∉ t ∧ ¬ ['.', '/'] <+: t ∧ t.head? ≠ some '/' := by
  have start : t.head? ≠ some '/' ↔ t.dropWhile (· = '/') = t := by
    rw [Text.dropWhile_eq_self_iff]
    cases t <;> simp
  rw [← map_slash_eq_self_iff, ← dropDots_eq_self_iff, start]
  constructor
  · intro same
    change (dropDots ((Text.trim t).map slash)).dropWhile (· = '/') = t at same
    -- No step makes the text longer, so none of them makes it shorter.
    have trimmed : ((Text.trim t).map slash).length ≤ t.length := by
      rw [List.length_map]
      exact (Text.trim_infix t).length_le
    have undotted := (dropDots_suffix ((Text.trim t).map slash)).length_le
    have kept := (List.dropWhile_suffix (· = '/')).eq_of_length_le
      ((undotted.trans trimmed).trans_eq (congrArg List.length same.symm))
    rw [kept] at same
    have kept' := (dropDots_suffix ((Text.trim t).map slash)).eq_of_length_le
      (trimmed.trans_eq (congrArg List.length same.symm))
    have slashes := kept'.symm.trans same
    have length := (congrArg List.length slashes).symm.trans (List.length_map slash)
    have trim := (Text.trim_infix t).eq_of_length_le length.le
    rw [trim] at slashes kept'
    rw [slashes] at kept'
    exact ⟨trim, slashes, kept', by rwa [trim, slashes, kept'] at kept⟩
  · rintro ⟨trimmed, slashes, undotted, unslashed⟩
    change (dropDots ((Text.trim t).map slash)).dropWhile _ = t
    rw [trimmed, slashes, undotted, unslashed]

end RepositoryPath

/-! ### Names with slashes between them -/

theorem Text.head?_join {separator name : Text} (ne : name ≠ []) (names : List Text) :
    (join separator (name :: names)).head? = name.head? := by
  obtain ⟨c, name, rfl⟩ := List.exists_cons_of_ne_nil ne
  cases names with
  | nil => rw [join, List.intercalate_singleton]
  | cons next names => rw [join, List.intercalate_cons_cons]; rfl

theorem Text.getLast?_join {separator name : Text} (ne : name ≠ []) (names : List Text) :
    (join separator (names ++ [name])).getLast? = name.getLast? := by
  have alone : join separator [name] = name := by rw [join, List.intercalate_singleton]
  cases names with
  | nil => rw [List.nil_append, alone]
  | cons first names =>
      rw [join_append (List.cons_ne_nil _ _) (List.cons_ne_nil _ _), alone, ← List.append_assoc,
        List.getLast?_append_of_ne_nil _ ne]

theorem Text.mem_join_of_mem {separator part : Text} {parts : List Text} (mem : part ∈ parts)
    {c : Char} (here : c ∈ part) : c ∈ join separator parts := by
  induction parts with
  | nil => exact absurd mem List.not_mem_nil
  | cons first parts ih =>
      cases parts with
      | nil =>
          obtain rfl := List.mem_singleton.1 mem
          rwa [join, List.intercalate_singleton]
      | cons next parts =>
          rw [join, List.intercalate_cons_cons, ← join, List.mem_append, List.mem_append]
          rcases List.mem_cons.1 mem with rfl | later
          · exact .inl (.inl here)
          · exact .inr (ih later)

namespace Path

/-- A name as it stands in a normal path. -/
structure IsFileName (name : Text) : Prop where
  isName : isName name = true
  slash : '/' ∉ name
  backslash : '\\' ∉ name

instance (name : Text) : Decidable (IsFileName name) :=
  decidable_of_iff (isName name = true ∧ '/' ∉ name ∧ '\\' ∉ name)
    ⟨fun ⟨isName, slash, backslash⟩ => ⟨isName, slash, backslash⟩,
      fun name => ⟨name.isName, name.slash, name.backslash⟩⟩

theorem isName_iff (piece : Text) : isName piece = true ↔ piece ≠ [] ∧ piece ≠ "." := by
  simp [isName]

theorem anchor_ofText {t : Text} (start : t.head? ≠ some '/') : (ofText t).anchor = .relative := by
  have none : t.takeWhile (· = '/') = [] := by
    cases t with
    | nil => rfl
    | cons c t => exact List.takeWhile_cons_of_neg (by simpa using start)
  rw [ofText, none]
  rfl

theorem child_of_relative (p : Path) {t : Text} (relative : (ofText t).anchor = .relative) :
    p.child t = ⟨p.anchor, p.names ++ (ofText t).names⟩ := by
  rw [child, join, isAnchored, relative]
  rfl

theorem ofText_of_notMem {piece : Text} (clear : '/' ∉ piece) :
    ofText piece = ⟨.relative, [piece].filter isName⟩ := by
  have relative := anchor_ofText fun first => clear (List.mem_of_head? first)
  have names : (ofText piece).names = [piece].filter isName := by
    rw [ofText, Text.splitOn_of_notMem clear]
  exact congrArg₂ Path.mk relative names

theorem ofPieces_of_notMem {pieces : List Text} (clear : ∀ piece ∈ pieces, '/' ∉ piece) :
    ofPieces pieces = ⟨.relative, pieces.filter isName⟩ := by
  suffices ∀ names, pieces.foldl child ⟨.relative, names⟩ =
      ⟨.relative, names ++ pieces.filter isName⟩ from this []
  induction pieces with
  | nil => simp
  | cons piece pieces ih =>
      obtain ⟨first, later⟩ := List.forall_mem_cons.1 clear
      intro names
      have step : child ⟨.relative, names⟩ piece = ⟨.relative, names ++ [piece].filter isName⟩ := by
        rw [child, ofText_of_notMem first, join, if_neg (by simp [isAnchored])]
      rw [List.foldl_cons, step, ih later, List.append_assoc, ← List.filter_append,
        List.singleton_append]

theorem toText_relative {names : List Text} (ne : names ≠ []) :
    toText ⟨.relative, names⟩ = Text.join ['/'] names := by
  rw [toText, if_neg fun eq => ne (congrArg Path.names eq)]
  rfl

theorem ofText_join {names : List Text} (plain : ∀ name ∈ names, IsFileName name)
    (ne : names ≠ []) : ofText (Text.join ['/'] names) = ⟨.relative, names⟩ := by
  have names_eq : (ofText (Text.join ['/'] names)).names = names := by
    rw [ofText, Text.splitOn_join ne fun name mem => (plain name mem).slash,
      List.filter_eq_self.2 fun name mem => (plain name mem).isName]
  have relative : (ofText (Text.join ['/'] names)).anchor = .relative := by
    obtain ⟨name, more, rfl⟩ := List.exists_cons_of_ne_nil ne
    have first := plain name List.mem_cons_self
    apply anchor_ofText
    rw [Text.head?_join ((isName_iff name).1 first.isName).1]
    exact fun start => first.slash (List.mem_of_head? start)
  exact congrArg₂ Path.mk relative names_eq

theorem ofText_toText {names : List Text} (plain : ∀ name ∈ names, IsFileName name) :
    ofText (toText ⟨.relative, names⟩) = ⟨.relative, names⟩ := by
  rcases eq_or_ne names [] with rfl | ne
  · decide
  · rw [toText_relative ne, ofText_join plain ne]

end Path

namespace RepositoryPath

open FileCoverage.Path

/-! ### The names of a canonical path -/

/-- A path of at least one name, as it is written from the repository root. -/
structure IsCanonical (t : Text) : Prop where
  normal : normalize t = t
  written : (Path.ofText t).toText = t
  ne_here : Path.ofText t ≠ Path.here

instance (t : Text) : Decidable (IsCanonical t) :=
  decidable_of_iff (normalize t = t ∧ (Path.ofText t).toText = t ∧ Path.ofText t ≠ Path.here)
    ⟨fun ⟨normal, written, ne⟩ => ⟨normal, written, ne⟩,
      fun canonical => ⟨canonical.normal, canonical.written, canonical.ne_here⟩⟩

theorem isRelative_of_normal {t : Text} (normal : normalize t = t) :
    (Path.ofText t).anchor = .relative :=
  anchor_ofText ((normalize_eq_self_iff t).1 normal).2.2.2

theorem ofText_of_normal {t : Text} (normal : normalize t = t) :
    Path.ofText t = ⟨.relative, (Path.ofText t).names⟩ :=
  congrArg₂ Path.mk (isRelative_of_normal normal) rfl

theorem IsCanonical.names_ne_nil {t : Text} (canonical : IsCanonical t) :
    (Path.ofText t).names ≠ [] := by
  intro none
  exact canonical.ne_here
    ((ofText_of_normal canonical.normal).trans (congrArg (Path.mk .relative) none))

/-- A canonical path is the list of its names with slashes between them. -/
theorem IsCanonical.join_names {t : Text} (canonical : IsCanonical t) :
    Text.join ['/'] (Path.ofText t).names = t := by
  rw [← toText_relative canonical.names_ne_nil, ← ofText_of_normal canonical.normal,
    canonical.written]

/-- The pieces of a canonical path are the names of the file. -/
theorem IsCanonical.splitOn_eq {t : Text} (canonical : IsCanonical t) :
    Text.splitOn '/' t = (Path.ofText t).names := by
  have clear : ∀ name ∈ (Path.ofText t).names, '/' ∉ name := fun name mem =>
    Text.notMem_of_mem_splitOn (List.mem_filter.1 mem).1
  rw [← Text.splitOn_join canonical.names_ne_nil clear, canonical.join_names]

/-- Names that are those of a canonical path. -/
structure AreCanonical (names : List Text) : Prop where
  ne_nil : names ≠ []
  plain : ∀ name ∈ names, IsFileName name
  first : ∀ name ∈ names.head?, ∀ c ∈ name.head?, Text.isBlank c = false
  last : ∀ name ∈ names.getLast?, ∀ c ∈ name.getLast?, Text.isBlank c = false

/-- A name that may stand first in a canonical path, before others. -/
structure IsFolderName (name : Text) : Prop extends IsFileName name where
  solid : ∀ c ∈ name.head?, Text.isBlank c = false

instance (name : Text) : Decidable (IsFolderName name) :=
  decidable_of_iff (IsFileName name ∧ name.head?.any Text.isBlank = false)
    ⟨fun ⟨name, solid⟩ => ⟨name, (Option.any_eq_false _ _).1 solid⟩,
      fun name => ⟨name.toIsFileName, (Option.any_eq_false _ _).2 name.solid⟩⟩

/-- What stands first and last in names joined to a text. -/
theorem AreCanonical.trim_join_eq_self_iff {names : List Text} (ne : names ≠ [])
    (plain : ∀ name ∈ names, IsFileName name) :
    Text.trim (Text.join ['/'] names) = Text.join ['/'] names ↔
      (∀ name ∈ names.head?, ∀ c ∈ name.head?, Text.isBlank c = false) ∧
        ∀ name ∈ names.getLast?, ∀ c ∈ name.getLast?, Text.isBlank c = false := by
  have solid : ∀ name ∈ names, name ≠ [] := fun name mem =>
    ((isName_iff name).1 (plain name mem).isName).1
  rw [Text.trim_eq_self_iff]
  refine and_congr ?_ ?_
  · obtain ⟨name, more, rfl⟩ := List.exists_cons_of_ne_nil ne
    rw [Text.head?_join (solid name List.mem_cons_self)]
    simp
  · obtain ⟨more, name, rfl⟩ := List.eq_nil_or_concat' names |>.resolve_left ne
    rw [Text.getLast?_join (solid name (by simp))]
    simp

theorem IsCanonical.areCanonical {t : Text} (canonical : IsCanonical t) :
    AreCanonical (Path.ofText t).names := by
  obtain ⟨trimmed, backslash, _⟩ := (normalize_eq_self_iff t).1 canonical.normal
  have plain : ∀ name ∈ (Path.ofText t).names, IsFileName name := by
    intro name mem
    obtain ⟨piece, isName⟩ := List.mem_filter.1 mem
    refine ⟨isName, Text.notMem_of_mem_splitOn piece, fun here => backslash ?_⟩
    rw [← canonical.join_names]
    exact Text.mem_join_of_mem mem here
  rw [← canonical.join_names] at trimmed
  obtain ⟨first, last⟩ :=
    (AreCanonical.trim_join_eq_self_iff canonical.names_ne_nil plain).1 trimmed
  exact ⟨canonical.names_ne_nil, plain, first, last⟩

theorem AreCanonical.normalize_join {names : List Text} (canonical : AreCanonical names) :
    normalize (Text.join ['/'] names) = Text.join ['/'] names := by
  have pieces := Text.splitOn_join canonical.ne_nil fun name mem => (canonical.plain name mem).slash
  rw [normalize_eq_self_iff]
  refine ⟨?_, fun backslash => ?_, ?_, fun start => ?_⟩
  · exact (AreCanonical.trim_join_eq_self_iff canonical.ne_nil canonical.plain).2
      ⟨canonical.first, canonical.last⟩
  · rcases Text.mem_join backslash with between | ⟨name, mem, here⟩
    · exact absurd between (by decide)
    · exact (canonical.plain name mem).backslash here
  · rintro ⟨rest, eq⟩
    rw [← eq] at pieces
    have mem : ['.'] ∈ names := by
      rw [← pieces]
      exact List.mem_cons_self
    exact absurd (canonical.plain _ mem).isName (by decide)
  · obtain ⟨rest, eq⟩ := List.head?_eq_some_iff.1 start
    rw [eq] at pieces
    have mem : [] ∈ names := by
      rw [← pieces]
      exact List.mem_cons_self
    exact absurd (canonical.plain _ mem).isName (by decide)

theorem AreCanonical.path_join {names : List Text} (canonical : AreCanonical names) :
    path (Text.join ['/'] names) = ⟨.relative, names⟩ := by
  rw [path, canonical.normalize_join, ofText_join canonical.plain canonical.ne_nil]

/-- In a canonical path, a folder and the name of the file may be exchanged for others. -/
theorem AreCanonical.exchange {before inside : List Text} {folder folder' name name' : Text}
    (canonical : AreCanonical (before ++ folder :: (inside ++ [name])))
    (plain : IsFolderName folder') (plain' : IsFileName name')
    (solid : ∀ c ∈ name'.getLast?, Text.isBlank c = false) :
    AreCanonical (before ++ folder' :: (inside ++ [name'])) := by
  obtain ⟨_, names, first, _⟩ := canonical
  refine ⟨by simp, ?_, ?_, ?_⟩
  · intro other mem
    simp only [List.mem_append, List.mem_cons, List.not_mem_nil, or_false] at mem names
    rcases mem with early | rfl | late | rfl
    · exact names other (.inl early)
    · exact plain.toIsFileName
    · exact names other (.inr (.inr (.inl late)))
    · exact plain'
  · cases before with
    | nil => simpa using plain.solid
    | cons other before => simpa using first
  · rw [← List.cons_append, ← List.append_assoc, List.getLast?_concat]
    simpa using solid

end RepositoryPath

end FileCoverage
