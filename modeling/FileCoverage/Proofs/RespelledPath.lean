import FileCoverage.Path.Repository
import Mathlib.Data.List.Basic
import Mathlib.Logic.Relation

/-!
# Spellings of a repository path

Normalization does not see blanks around a path, a `./` or a `/` in front of it, or a backslash in
the place of a slash.  It does see doubled slashes, a slash at the end and `.` names further in,
though the path that is meant is the same.

Normalization may uncover at the start what it would have dropped, as in `/./a`.  A path is settled
if it does not: then its normal form is the normal form of itself.
-/

namespace FileCoverage

namespace Text

theorem trim_eq_trimRight {t : Text} (solid : ∀ c ∈ t.head?, isBlank c = false) :
    trim t = trimRight t := by
  cases t with
  | nil => rfl
  | cons c t =>
      have first : isBlank c = false := solid c rfl
      rw [trim, trimBy, List.dropWhile_cons_of_neg (by simp [first]), trimRight]

theorem trimRight_cons_of_solid {c : Char} (solid : isBlank c = false) (t : Text) :
    trimRight (c :: t) = c :: trimRight t := by
  have kept : [c].dropWhile isBlank = [c] := List.dropWhile_cons_of_neg (by simp [solid])
  rw [trimRight, List.reverse_cons, List.dropWhile_append]
  split
  · next empty => rw [kept, trimRight, List.isEmpty_iff.1 empty]; rfl
  · rw [List.reverse_append, trimRight]; rfl

theorem trimRight_prefix (t : Text) : trimRight t <+: t := by
  rw [← List.reverse_suffix, trimRight, List.reverse_reverse]
  exact List.dropWhile_suffix _

theorem trim_cons_of_blank {c : Char} (blank : isBlank c = true) (t : Text) :
    trim (c :: t) = trim t := by
  rw [trim, trimBy, List.dropWhile_cons_of_pos blank]
  rfl

theorem trim_append_of_blank {c : Char} (blank : isBlank c = true) (t : Text) :
    trim (t ++ [c]) = trim t := by
  have dropped : [c].dropWhile isBlank = [] := List.dropWhile_cons_of_pos blank
  rw [trim, trim, trimBy, trimBy, List.dropWhile_append]
  split
  · next empty => rw [dropped, List.isEmpty_iff.1 empty]
  · rw [List.reverse_append, List.reverse_singleton, List.singleton_append,
      List.dropWhile_cons_of_pos blank]

theorem trim_map {f : Char → Char} (kept : ∀ c, isBlank (f c) = isBlank c) (t : Text) :
    trim (t.map f) = (trim t).map f := by
  have same : isBlank ∘ f = isBlank := funext kept
  simp only [trim, trimBy, List.dropWhile_map, ← List.map_reverse, same]

end Text

namespace RepositoryPath

def slash (c : Char) : Char := if c = '\\' then '/' else c

theorem isBlank_slash (c : Char) : Text.isBlank (slash c) = Text.isBlank c := by
  rw [slash]
  split
  · next backslash => rw [backslash]; rfl
  · rfl

theorem normalize_eq (t : Text) :
    normalize t = (dropDots (Text.trim (t.map slash))).dropWhile (· = '/') := by
  rw [Text.trim_map isBlank_slash]
  rfl

theorem dropDots_of_not_dotted {t : Text} (undotted : ¬ ['.', '/'] <+: t) : dropDots t = t := by
  fun_cases dropDots t with
  | case1 rest => exact absurd ⟨rest, rfl⟩ undotted
  | case2 => rfl

/-- One change of a path that normalization does not see. -/
inductive Respelling : Text → Text → Prop where
  | blankBefore {c : Char} (blank : Text.isBlank c = true) (t : Text) : Respelling t (c :: t)
  | blankAfter {c : Char} (blank : Text.isBlank c = true) (t : Text) : Respelling t (t ++ [c])
  | backslash (before after : Text) : Respelling (before ++ '/' :: after) (before ++ '\\' :: after)
  | dot {t : Text} (solid : ∀ c ∈ t.head?, Text.isBlank c = false) : Respelling t ('.' :: '/' :: t)
  | slash {t : Text} (solid : ∀ c ∈ t.head?, Text.isBlank c = false)
      (undotted : ¬ ['.', '/'] <+: t.map slash) : Respelling t ('/' :: t)

theorem trim_map_slash {t : Text} (solid : ∀ c ∈ t.head?, Text.isBlank c = false) :
    Text.trim (t.map slash) = Text.trimRight (t.map slash) := by
  apply Text.trim_eq_trimRight
  intro c first
  rw [List.head?_map, Option.mem_def, Option.map_eq_some_iff] at first
  obtain ⟨d, first, rfl⟩ := first
  rw [isBlank_slash, solid d first]

theorem normalize_of_respelling {s t : Text} (respelled : Respelling s t) :
    normalize t = normalize s := by
  cases respelled with
  | blankBefore blank => rw [normalize, Text.trim_cons_of_blank blank, normalize]
  | blankAfter blank => rw [normalize, Text.trim_append_of_blank blank, normalize]
  | backslash before after =>
      rw [normalize_eq, normalize_eq, List.map_append, List.map_append]
      rfl
  | dot solid =>
      have trimmed : Text.trim (('.' :: '/' :: s).map slash) =
          '.' :: '/' :: Text.trim (s.map slash) := by
        change Text.trim ('.' :: '/' :: s.map slash) = _
        rw [Text.trim_eq_trimRight (by rintro c ⟨⟩; rfl), Text.trimRight_cons_of_solid rfl,
          Text.trimRight_cons_of_solid rfl, trim_map_slash solid]
      rw [normalize_eq, trimmed, normalize_eq, dropDots]
  | slash solid undotted =>
      have trimmed : Text.trim (('/' :: s).map slash) = '/' :: Text.trim (s.map slash) := by
        change Text.trim ('/' :: s.map slash) = _
        rw [Text.trim_eq_trimRight (by rintro c ⟨⟩; rfl), Text.trimRight_cons_of_solid rfl,
          trim_map_slash solid]
      have undotted : ¬ ['.', '/'] <+: Text.trim (s.map slash) := by
        rw [trim_map_slash solid]
        exact fun dotted => undotted (dotted.trans (Text.trimRight_prefix _))
      rw [normalize_eq, trimmed, dropDots_of_not_dotted (by rintro ⟨_, ⟨⟩⟩), normalize_eq,
        dropDots_of_not_dotted undotted, List.dropWhile_cons_of_pos rfl]

/-- Changes that normalization does not see, one after the other and in both directions. -/
abbrev Respelled : Text → Text → Prop := Relation.EqvGen Respelling

theorem normalize_of_respelled {s t : Text} (respelled : Respelled s t) :
    normalize s = normalize t := by
  induction respelled with
  | rel _ _ step => exact (normalize_of_respelling step).symm
  | refl _ => rfl
  | symm _ _ _ ih => exact ih.symm
  | trans _ _ _ _ _ ih ih' => exact ih.trans ih'

/-- Nothing is dropped from the normal form of the path. -/
def IsSettled (t : Text) : Prop := normalize (normalize t) = normalize t

instance (t : Text) : Decidable (IsSettled t) := inferInstanceAs (Decidable (_ = _))

end RepositoryPath

end FileCoverage
