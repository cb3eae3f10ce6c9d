import FileCoverage.Text.Basic
import Mathlib.Data.List.Infix

/-!
# Replacing a pattern

A text is read from left to right as occurrences of a pattern and characters at which none begins.
Replacing changes the occurrences and keeps the characters, so it leaves a text as it was exactly if
the pattern is not in it or is replaced by itself.
-/

namespace FileCoverage.Text

variable {pattern replacement s t : Text}

/-- What holds of a text if it holds of what is left after a pattern at its start, or after a
character at which no pattern begins, holds of every text. -/
theorem induction_on_patterns {P motive : Text → Prop} (solid : ∀ p, P p → p ≠ []) (nil : motive [])
    (found : ∀ p, P p → ∀ rest, motive rest → motive (p ++ rest))
    (other : ∀ c rest, (∀ p, P p → ¬ p <+: c :: rest) → motive rest → motive (c :: rest))
    (t : Text) : motive t := by
  induction h : t.length using Nat.strong_induction_on generalizing t with
  | _ n ih =>
    subst h
    cases t with
    | nil => exact nil
    | cons c rest =>
        by_cases here : ∃ p, P p ∧ p <+: c :: rest
        · obtain ⟨p, isPattern, after, split⟩ := here
          rw [← split]
          refine found p isPattern after (ih _ ?_ after rfl)
          rw [← split, List.length_append]
          have := List.length_pos_iff.2 (solid p isPattern)
          omega
        · refine other c rest (fun p isPattern begins => here ⟨p, isPattern, begins⟩) ?_
          exact ih _ (Nat.lt_succ_self _) rest rfl

theorem replaceFrom_eq_replace_drop (pattern replacement : Text) (skip : Nat) (t : Text) :
    replaceFrom pattern replacement skip t = replace pattern replacement (t.drop skip) := by
  induction t generalizing skip with
  | nil => cases skip <;> rfl
  | cons c rest ih =>
      cases skip with
      | zero => rfl
      | succ skip => exact ih skip

theorem replace_append_of_pattern (ne : pattern ≠ []) (replacement t : Text) :
    replace pattern replacement (pattern ++ t) = replacement ++ replace pattern replacement t := by
  obtain ⟨c, more, rfl⟩ := List.exists_cons_of_ne_nil ne
  have begins : List.isPrefixOf (c :: more) (c :: (more ++ t)) = true :=
    List.isPrefixOf_iff_prefix.2 (List.prefix_append (c :: more) t)
  rw [List.cons_append, replace, replaceFrom, if_pos begins, replaceFrom_eq_replace_drop]
  simp

theorem replace_cons_of_not_pattern {c : Char} (other : ¬ pattern <+: c :: t)
    (replacement : Text) :
    replace pattern replacement (c :: t) = c :: replace pattern replacement t := by
  rw [replace, replaceFrom, if_neg (by rwa [List.isPrefixOf_iff_prefix]), replace]

/-- A text in which no occurrence begins, not even one that goes on in what follows, is kept. -/
theorem replace_append_of_not_pattern
    (other : ∀ part, part <:+ s → part ≠ [] → ¬ pattern <+: part ++ t) (replacement : Text) :
    replace pattern replacement (s ++ t) = s ++ replace pattern replacement t := by
  induction s with
  | nil => rfl
  | cons c s ih =>
      have later : ∀ part, part <:+ s → part ≠ [] → ¬ pattern <+: part ++ t :=
        fun part ends => other part (ends.trans (List.suffix_cons c s))
      have first : ¬ pattern <+: c :: (s ++ t) :=
        other (c :: s) List.suffix_rfl (List.cons_ne_nil c s)
      rw [List.cons_append, replace_cons_of_not_pattern first, ih later, List.cons_append]

/-- The texts in which a pattern is replaced, read from left to right. -/
theorem induction_on_pattern {motive : Text → Prop} (ne : pattern ≠ []) (nil : motive [])
    (found : ∀ rest, motive rest → motive (pattern ++ rest))
    (other : ∀ c rest, ¬ pattern <+: c :: rest → motive rest → motive (c :: rest)) (t : Text) :
    motive t := by
  refine induction_on_patterns (P := (· = pattern)) ?_ nil ?_ ?_ t
  · rintro _ rfl
    exact ne
  · rintro _ rfl rest
    exact found rest
  · intro c rest none
    exact other c rest (none pattern rfl)

theorem length_replace_le (ne : pattern ≠ []) (le : replacement.length ≤ pattern.length)
    (t : Text) : (replace pattern replacement t).length ≤ t.length := by
  induction t using induction_on_pattern ne with
  | nil => rfl
  | found rest ih =>
      rw [replace_append_of_pattern ne, List.length_append, List.length_append]
      omega
  | other c rest none ih =>
      rw [replace_cons_of_not_pattern none, List.length_cons, List.length_cons]
      omega

theorem le_length_replace (ne : pattern ≠ []) (le : pattern.length ≤ replacement.length)
    (t : Text) : t.length ≤ (replace pattern replacement t).length := by
  induction t using induction_on_pattern ne with
  | nil => rfl
  | found rest ih =>
      rw [replace_append_of_pattern ne, List.length_append, List.length_append]
      omega
  | other c rest none ih =>
      rw [replace_cons_of_not_pattern none, List.length_cons, List.length_cons]
      omega

theorem replace_of_not_infix (none : ¬ pattern <:+: t) (replacement : Text) :
    replace pattern replacement t = t := by
  have kept := replace_append_of_not_pattern (s := t) (t := []) (fun part ends _ begins => by
    rw [List.append_nil] at begins
    exact none (begins.isInfix.trans ends.isInfix)) replacement
  simpa using kept

theorem replace_self (ne : pattern ≠ []) (t : Text) : replace pattern pattern t = t := by
  induction t using induction_on_pattern ne with
  | nil => rfl
  | found rest ih => rw [replace_append_of_pattern ne, ih]
  | other c rest none ih => rw [replace_cons_of_not_pattern none, ih]

/-- Replacing changes a text unless there is nothing to replace. -/
theorem replace_eq_self_iff (ne : pattern ≠ []) :
    replace pattern replacement t = t ↔ replacement = pattern ∨ ¬ pattern <:+: t := by
  constructor
  · intro same
    rw [or_iff_not_imp_right, not_not]
    intro held
    induction t using induction_on_pattern ne with
    | nil => exact absurd (List.infix_nil.1 held) ne
    | found rest _ =>
        rw [replace_append_of_pattern ne] at same
        have length := congrArg List.length same
        rw [List.length_append, List.length_append] at length
        refine List.append_inj_left same ?_
        rcases Nat.le_total replacement.length pattern.length with le | le
        · have := length_replace_le ne le rest
          omega
        · have := le_length_replace ne le rest
          omega
    | other c rest none ih =>
        rw [replace_cons_of_not_pattern none] at same
        exact ih (List.cons.inj same).2 ((List.infix_cons_iff.1 held).resolve_left none)
  · rintro (rfl | none)
    · exact replace_self ne t
    · exact replace_of_not_infix none replacement

end FileCoverage.Text
