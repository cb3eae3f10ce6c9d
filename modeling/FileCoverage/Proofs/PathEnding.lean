import FileCoverage.Proofs.CanonicalPath

/-!
# The end of a path

What stands at the end of a path without a slash is the end of its name.  Normalizing leaves it
there, if it neither starts nor ends with a blank and holds no backslash.
-/

namespace FileCoverage

namespace Text

variable {ending t : Text}

theorem suffix_dropWhile {p : Char → Bool} (solid : ∀ c ∈ ending.head?, p c = false)
    (ends : ending <:+ t) : ending <:+ t.dropWhile p := by
  induction t with
  | nil => exact ends
  | cons c t ih =>
      rcases List.suffix_cons_iff.1 ends with rfl | later
      · have kept := (dropWhile_eq_self_iff p (c :: t)).2 solid
        exact ⟨[], kept.symm⟩
      · rw [List.dropWhile_cons]
        split
        · exact ih later
        · exact ends

theorem suffix_trim (first : ∀ c ∈ ending.head?, isBlank c = false)
    (last : ∀ c ∈ ending.getLast?, isBlank c = false) (ends : ending <:+ t) :
    ending <:+ trim t := by
  by_cases nil : ending = []
  · rw [nil]
    exact List.nil_suffix
  · obtain ⟨before, eq⟩ := suffix_dropWhile first ends
    have kept : (ending.reverse ++ before.reverse).dropWhile isBlank =
        ending.reverse ++ before.reverse := by
      rw [dropWhile_eq_self_iff, List.head?_append_of_ne_nil _ (mt List.reverse_eq_nil_iff.1 nil),
        List.head?_reverse]
      exact last
    rw [trim, trimBy, ← eq, List.reverse_append, kept, List.reverse_append, List.reverse_reverse,
      List.reverse_reverse]
    exact List.suffix_append _ _

end Text

namespace RepositoryPath

variable {ending t : Text}

theorem suffix_dropDots (clear : '/' ∉ ending) (ends : ending <:+ t) : ending <:+ dropDots t := by
  fun_induction dropDots t with
  | case1 rest ih =>
      rcases List.suffix_cons_iff.1 ends with rfl | ends
      · exact absurd (by simp) clear
      · rcases List.suffix_cons_iff.1 ends with rfl | ends
        · exact absurd List.mem_cons_self clear
        · exact ih ends
  | case2 => exact ends

/-- Normalizing leaves what stands at the end, if nothing is to be trimmed or to be a slash. -/
theorem suffix_normalize (first : ∀ c ∈ ending.head?, Text.isBlank c = false)
    (last : ∀ c ∈ ending.getLast?, Text.isBlank c = false) (slash : '/' ∉ ending)
    (backslash : '\\' ∉ ending) (ends : ending <:+ t) : ending <:+ normalize t := by
  have same : ending.map RepositoryPath.slash = ending := (map_slash_eq_self_iff ending).2 backslash
  have trimmed : ending <:+ (Text.trim t).map RepositoryPath.slash := by
    have mapped := (Text.suffix_trim first last ends).map RepositoryPath.slash
    rwa [same] at mapped
  refine Text.suffix_dropWhile (fun c here => ?_) (suffix_dropDots slash trimmed)
  exact decide_eq_false fun eq => slash (eq ▸ List.mem_of_head? here)

end RepositoryPath

namespace Path

variable {ending t : Text}

theorem slash_notMem_name (t : Text) : '/' ∉ (ofText t).name := by
  rw [name, List.getLastD_eq_getLast?]
  cases last : (ofText t).names.getLast? with
  | none => exact List.not_mem_nil
  | some piece =>
      have mem := (List.mem_filter.1 (List.mem_of_getLast? last)).1
      exact Text.notMem_of_mem_splitOn mem

theorem slash_notMem_stem (t : Text) : '/' ∉ (ofText t).stem := by
  intro mem
  apply slash_notMem_name t
  rw [← cutSuffix_append (ofText t).name]
  exact List.mem_append_left _ mem

theorem suffix_after_slash {before after : Text} (clear : '/' ∉ ending)
    (ends : ending <:+ before ++ '/' :: after) : ending <:+ after := by
  have last : '/' :: after <:+ before ++ '/' :: after := List.suffix_append _ _
  rcases Nat.lt_or_ge after.length ending.length with longer | shorter
  · have within := List.suffix_of_suffix_length_le last ends longer
    exact absurd (within.subset List.mem_cons_self) clear
  · exact List.suffix_of_suffix_length_le ends
      ((List.suffix_cons '/' after).trans last) shorter

theorem name_ofText_of_notMem (clear : '/' ∉ t) (isName : isName t = true) :
    (ofText t).name = t := by
  rw [ofText_of_notMem clear, List.filter_cons_of_pos isName, List.filter_nil]
  rfl

theorem name_ofText_append_slash (clear : '/' ∉ t) (isName : isName t = true) (before : Text) :
    (ofText (before ++ '/' :: t)).name = t := by
  rw [name, ofText, Text.splitOn_append, Text.splitOn_of_notMem clear, List.filter_append,
    List.filter_cons_of_pos isName, List.filter_nil, List.getLastD_concat]

theorem isName_of_suffix {piece : Text} (isName : isName ending = true) (ends : ending <:+ piece) :
    Path.isName piece = true := by
  obtain ⟨ne, ne'⟩ := (isName_iff ending).1 isName
  refine (isName_iff piece).2 ⟨?_, ?_⟩
  · rintro rfl
    exact ne (List.suffix_nil.1 ends)
  · rintro rfl
    rcases List.suffix_cons_iff.1 ends with eq | ends
    · exact ne' eq
    · exact ne (List.suffix_nil.1 ends)

/-- What stands at the end of a path without a slash is the end of its name. -/
theorem suffix_name (clear : '/' ∉ ending) (isName : isName ending = true) (ends : ending <:+ t) :
    ending <:+ (ofText t).name ∧ (ofText t).name <:+ t := by
  cases cut : Text.cutAtLast? '/' t with
  | none =>
      rw [name_ofText_of_notMem (Text.cutAtLast?_eq_none cut) (isName_of_suffix isName ends)]
      exact ⟨ends, List.suffix_rfl⟩
  | some parts =>
      obtain ⟨before, after⟩ := parts
      obtain ⟨rfl, clear'⟩ := Text.cutAtLast?_eq_some cut
      have ends' := suffix_after_slash clear ends
      rw [name_ofText_append_slash clear' (isName_of_suffix isName ends')]
      exact ⟨ends', (List.suffix_cons '/' after).trans (List.suffix_append _ _)⟩

/-- The name does not depend on what stands in front of a slash. -/
theorem name_ofText_eq_of_suffix {s : Text} (later : s <:+ t) (slash : '/' ∈ s)
    (clear : '/' ∉ ending) (isName : isName ending = true) (ends : ending <:+ s) :
    (ofText s).name = (ofText t).name := by
  cases cut : Text.cutAtLast? '/' s with
  | none => exact absurd slash (Text.cutAtLast?_eq_none cut)
  | some parts =>
      obtain ⟨before, after⟩ := parts
      obtain ⟨rfl, clear'⟩ := Text.cutAtLast?_eq_some cut
      have isName' := isName_of_suffix isName (suffix_after_slash clear ends)
      obtain ⟨front, rfl⟩ := later
      rw [name_ofText_append_slash clear' isName', ← List.append_assoc,
        name_ofText_append_slash clear' isName']

/-- The last name of a path is read back from how the path is written. -/
theorem name_ofText_toText {last : Text} (clear : '/' ∉ last) (isName : isName last = true)
    (anchor : Anchor) (names : List Text) :
    (ofText (toText ⟨anchor, names ++ [last]⟩)).name = last := by
  have ne : (⟨anchor, names ++ [last]⟩ : Path) ≠ here := fun eq =>
    List.append_ne_nil_of_right_ne_nil names (List.cons_ne_nil last []) (congrArg Path.names eq)
  have written : toText ⟨anchor, names ++ [last]⟩ =
      anchor.toText ++ Text.join ['/'] (names ++ [last]) := if_neg ne
  have alone : Text.join ['/'] [last] = last := by rw [Text.join, List.intercalate_singleton]
  rw [written]
  cases names with
  | nil =>
      rw [List.nil_append, alone]
      cases anchor with
      | relative => exact name_ofText_of_notMem clear isName
      | root => exact name_ofText_append_slash clear isName []
      | doubleRoot => exact name_ofText_append_slash clear isName ['/']
  | cons first names =>
      rw [Text.join_append (List.cons_ne_nil _ _) (List.cons_ne_nil _ _), alone,
        ← List.append_assoc]
      exact name_ofText_append_slash clear isName _

theorem ofPieces_append_singleton {last : Text} (clear : '/' ∉ last) (isName : isName last = true)
    (pieces : List Text) : ofPieces (pieces ++ [last]) =
      ⟨(ofPieces pieces).anchor, (ofPieces pieces).names ++ [last]⟩ := by
  rw [ofPieces, List.foldl_append, List.foldl_cons, List.foldl_nil, ← ofPieces, child,
    ofText_of_notMem clear, List.filter_cons_of_pos isName, List.filter_nil]
  rfl

/-- The last of some names with slashes between them is the name of the path. -/
theorem name_ofText_join {names : List Text} {last : Text} (clear : '/' ∉ last)
    (isName : isName last = true) (here : last ∈ names.getLast?) :
    (ofText (Text.join ['/'] names)).name = last := by
  obtain ⟨before, rfl⟩ := List.getLast?_eq_some_iff.1 here
  rw [← toText_relative (List.append_ne_nil_of_right_ne_nil before (List.cons_ne_nil last []))]
  exact name_ofText_toText clear isName _ _

theorem exists_names_eq {p : Path} (ne : p.name ≠ []) : ∃ before, p.names = before ++ [p.name] := by
  rcases List.eq_nil_or_concat p.names with none | ⟨before, last, eq⟩
  · exact absurd (by rw [name, none]; rfl) ne
  · rw [List.concat_eq_append] at eq
    exact ⟨before, by rw [name, eq, List.getLastD_concat]⟩

theorem exists_names_child (p : Path) (ne : (ofText t).name ≠ []) :
    ∃ before, (p.child t).names = before ++ [(ofText t).name] := by
  obtain ⟨before, eq⟩ := exists_names_eq ne
  rw [child, join]
  split
  · exact ⟨before, eq⟩
  · exact ⟨p.names ++ before, by rw [eq, List.append_assoc]⟩

end Path

end FileCoverage
