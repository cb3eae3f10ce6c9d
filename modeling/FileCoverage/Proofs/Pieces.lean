import FileCoverage.Text.Basic
import Mathlib.Data.List.Basic

/-!
# Pieces of a text

Cutting a text at a character and joining the pieces with that character undo each other, so two
texts with the same pieces are the same, and pieces that do not hold the character come back.  The
pieces of one text are the last pieces of another if the texts are the same, or if the other ends
with the character and the first text.
-/

namespace FileCoverage.Text

theorem splitOn_append (c : Char) (s t : Text) :
    splitOn c (s ++ c :: t) = splitOn c s ++ splitOn c t := by
  induction s with
  | nil => simp [splitOn]
  | cons d s ih =>
      rw [List.cons_append, splitOn, splitOn]
      split
      · rw [ih, List.cons_append]
      · obtain ⟨piece, pieces, eq⟩ := List.exists_cons_of_ne_nil (splitOn_ne_nil c s)
        rw [ih, eq]
        rfl

theorem join_append {separator : Text} {parts more : List Text} (ne : parts ≠ [])
    (ne' : more ≠ []) :
    join separator (parts ++ more) =
      join separator parts ++ (separator ++ join separator more) := by
  obtain ⟨first, more, rfl⟩ := List.exists_cons_of_ne_nil ne'
  induction parts with
  | nil => exact absurd rfl ne
  | cons part parts ih =>
      cases parts with
      | nil => simp [join, List.intercalate_cons_cons]
      | cons next parts =>
          have rest := ih (List.cons_ne_nil next parts)
          simp only [join, List.cons_append, List.intercalate_cons_cons] at rest ⊢
          rw [rest]
          simp only [List.append_assoc]

theorem mem_join {separator : Text} {parts : List Text} {c : Char} (h : c ∈ join separator parts) :
    c ∈ separator ∨ ∃ part ∈ parts, c ∈ part := by
  induction parts with
  | nil => simp [join, List.intercalate_nil] at h
  | cons part parts ih =>
      cases parts with
      | nil =>
          rw [join, List.intercalate_singleton] at h
          exact .inr ⟨part, List.mem_cons_self, h⟩
      | cons next parts =>
          rw [join, List.intercalate_cons_cons, ← join, List.mem_append, List.mem_append] at h
          rcases h with (here | between) | later
          · exact .inr ⟨part, List.mem_cons_self, here⟩
          · exact .inl between
          · rcases ih later with between | ⟨other, mem, there⟩
            · exact .inl between
            · exact .inr ⟨other, List.mem_cons_of_mem _ mem, there⟩

theorem join_splitOn (c : Char) (t : Text) : join [c] (splitOn c t) = t := by
  induction t with
  | nil => rfl
  | cons d t ih =>
      obtain ⟨piece, pieces, eq⟩ := List.exists_cons_of_ne_nil (splitOn_ne_nil c t)
      rw [splitOn]
      split
      · next same =>
          rw [eq] at ih ⊢
          rw [join, List.intercalate_cons_cons, ← join, ih, same]
          rfl
      · rw [eq] at ih ⊢
        simp only [join, List.intercalate_cons_cons_left] at ih ⊢
        rw [ih]

theorem splitOn_injective (c : Char) : Function.Injective (splitOn c) := by
  intro s t eq
  rw [← join_splitOn c s, eq, join_splitOn]

theorem splitOn_of_notMem {c : Char} {t : Text} (h : c ∉ t) : splitOn c t = [t] := by
  induction t with
  | nil => rfl
  | cons d t ih =>
      rw [List.mem_cons, not_or] at h
      rw [splitOn, if_neg (Ne.symm h.1), ih h.2]

/-- The first piece is what stands before the first occurrence. -/
theorem splitOn_eq_cons (c : Char) (t : Text) :
    splitOn c t = t.takeWhile (fun d => decide (d ≠ c)) :: (splitOn c t).tail := by
  induction t with
  | nil => rfl
  | cons d t ih =>
      rw [splitOn]
      split
      · next same => rw [List.takeWhile_cons_of_neg (by simpa using same), List.tail_cons]
      · next other =>
          rw [ih, List.takeWhile_cons_of_pos (by simpa using other)]
          rfl

theorem cutAt?_append {c : Char} {s : Text} (clear : c ∉ s) (t : Text) :
    cutAt? c (s ++ c :: t) = some (s, t) := by
  induction s with
  | nil => exact if_pos rfl
  | cons d s ih =>
      rw [List.mem_cons, not_or] at clear
      rw [List.cons_append, cutAt?, if_neg (Ne.symm clear.1), ih clear.2]
      rfl

theorem cutAt?_eq_some_iff {c : Char} {t before after : Text} :
    cutAt? c t = some (before, after) ↔ c ∉ before ∧ t = before ++ c :: after := by
  refine ⟨fun found => ?_, ?_⟩
  · induction t generalizing before with
    | nil => cases found
    | cons d t ih =>
        rw [cutAt?] at found
        split at found
        · next same =>
            cases found
            exact ⟨List.not_mem_nil, by rw [same]; rfl⟩
        · next other =>
            obtain ⟨⟨early, late⟩, found, same⟩ := Option.map_eq_some_iff.1 found
            cases same
            obtain ⟨clear, rfl⟩ := ih found
            refine ⟨?_, rfl⟩
            rw [List.mem_cons, not_or]
            exact ⟨Ne.symm other, clear⟩
  · rintro ⟨clear, rfl⟩
    exact cutAt?_append clear after

theorem notMem_of_mem_splitOn {c : Char} {t piece : Text} (mem : piece ∈ splitOn c t) :
    c ∉ piece := by
  induction t generalizing piece with
  | nil =>
      obtain rfl := List.mem_singleton.1 mem
      exact List.not_mem_nil
  | cons d t ih =>
      rw [splitOn] at mem
      split at mem
      · rcases List.mem_cons.1 mem with rfl | later
        · exact List.not_mem_nil
        · exact ih later
      · next other =>
          obtain ⟨first, pieces, eq⟩ := List.exists_cons_of_ne_nil (splitOn_ne_nil c t)
          simp only [eq] at mem ih
          rcases List.mem_cons.1 mem with rfl | later
          · rw [List.mem_cons, not_or]
            exact ⟨Ne.symm other, ih List.mem_cons_self⟩
          · exact ih (List.mem_cons_of_mem _ later)

theorem splitOn_join {c : Char} {parts : List Text} (ne : parts ≠ [])
    (clear : ∀ part ∈ parts, c ∉ part) : splitOn c (join [c] parts) = parts := by
  induction parts with
  | nil => exact absurd rfl ne
  | cons part parts ih =>
      have here := splitOn_of_notMem (clear part List.mem_cons_self)
      cases parts with
      | nil => rw [join, List.intercalate_singleton, here]
      | cons next parts =>
          have later := ih (List.cons_ne_nil _ _) fun p mem => clear p (List.mem_cons_of_mem _ mem)
          rw [join, List.intercalate_cons_cons, ← join, List.append_assoc, List.singleton_append,
            splitOn_append, here, later, List.singleton_append]

theorem splitOn_suffix_iff (c : Char) (s t : Text) :
    splitOn c s <:+ splitOn c t ↔ t = s ∨ c :: s <:+ t := by
  constructor
  · intro last
    rcases last with ⟨before, eq⟩
    rcases eq_or_ne before [] with rfl | ne
    · exact .inl (splitOn_injective c eq.symm)
    · refine .inr ⟨join [c] before, ?_⟩
      rw [← join_splitOn c t, ← eq, join_append ne (splitOn_ne_nil c s), join_splitOn]
      rfl
  · intro ends
    rcases ends with rfl | ⟨before, rfl⟩
    · exact List.suffix_rfl
    · rw [splitOn_append]
      exact List.suffix_append _ _

end FileCoverage.Text
