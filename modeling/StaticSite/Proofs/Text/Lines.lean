import StaticSite.Proofs.Text.Words

/-! # Lines of a text

How a text is cut at a character, and what the lines at its ends and its margin are.
-/

namespace StaticSite.Text

/-! ## Cutting at a character -/

theorem splitAt_of_not_mem {separator : Char} {t : Text} (inside : separator ∉ t) :
    splitAt separator t = [t] := by
  induction t with
  | nil => rfl
  | cons c rest ih =>
    simp only [List.mem_cons, not_or] at inside
    rw [splitAt, if_neg (Ne.symm inside.1), ih inside.2]

theorem not_mem_of_mem_splitAt {separator : Char} {t piece : Text}
    (member : piece ∈ splitAt separator t) : separator ∉ piece := by
  induction t generalizing piece with
  | nil =>
    obtain rfl := List.mem_singleton.mp member
    exact List.not_mem_nil
  | cons c rest ih =>
    rw [splitAt] at member
    split at member
    · rcases List.mem_cons.mp member with rfl | later
      · exact List.not_mem_nil
      · exact ih later
    · next other =>
      cases pieces : splitAt separator rest with
      | nil => exact absurd pieces (splitAt_ne_nil separator rest)
      | cons first others =>
        rw [pieces] at member ih
        rcases List.mem_cons.mp member with rfl | later
        · simpa [Ne.symm other] using ih List.mem_cons_self
        · exact ih (List.mem_cons_of_mem first later)

/-- What stands behind the last separator belongs to the last piece. -/
theorem splitAt_append_of_not_mem {separator : Char} (t : Text) {s : Text} (inside : separator ∉ s) :
    ∃ front last, splitAt separator (t ++ s) = front ++ [last ++ s] := by
  induction t with
  | nil => exact ⟨[], [], splitAt_of_not_mem inside⟩
  | cons c rest ih =>
    obtain ⟨front, last, pieces⟩ := ih
    rw [List.cons_append, splitAt, pieces]
    split
    · exact ⟨[] :: front, last, rfl⟩
    · cases front with
      | nil => exact ⟨[], c :: last, rfl⟩
      | cons first others => exact ⟨(c :: first) :: others, last, rfl⟩

theorem splitAt_append_cons (separator : Char) (s t : Text) :
    splitAt separator (s ++ separator :: t) = splitAt separator s ++ splitAt separator t := by
  induction s with
  | nil => simp [splitAt]
  | cons c rest ih =>
    rw [List.cons_append, splitAt, splitAt, ih]
    split
    · rfl
    · obtain ⟨first, others, pieces⟩ := List.exists_cons_of_ne_nil (splitAt_ne_nil separator rest)
      rw [pieces]
      rfl

/-- The first line of a text that starts with a visible character is not blank. -/
theorem visible_head?_lines {t : Text} {c : Char} (first : c ∈ t.head?)
    (visible : StaticSite.isBlank c = false) :
    ∃ line ∈ (lines t).head?, c ∈ line.head? := by
  obtain ⟨rest, rfl⟩ := List.head?_eq_some_iff.mp first
  have other : c ≠ '\n' := by
    rintro rfl
    exact absurd visible (by decide)
  obtain ⟨line, others, pieces⟩ := List.exists_cons_of_ne_nil (splitAt_ne_nil '\n' rest)
  refine ⟨c :: line, ?_, rfl⟩
  rw [lines, splitAt, if_neg other, pieces]
  rfl

/-- The last line of a text that ends with a visible character is not blank. -/
theorem visible_getLast?_lines {t : Text} {c : Char} (last : c ∈ t.getLast?)
    (visible : StaticSite.isBlank c = false) :
    ∃ line ∈ (lines t).getLast?, c ∈ line := by
  have other : '\n' ≠ c := by
    rintro rfl
    exact absurd visible (by decide)
  obtain ⟨front, rfl⟩ := List.getLast?_eq_some_iff.mp last
  induction front with
  | nil =>
    refine ⟨[c], ?_, List.mem_singleton_self c⟩
    simp [lines, splitAt, Ne.symm other]
  | cons d rest ih =>
    obtain ⟨line, final, inside⟩ := ih (by simp)
    obtain ⟨first, others, pieces⟩ := List.exists_cons_of_ne_nil (splitAt_ne_nil '\n' (rest ++ [c]))
    rw [lines, pieces] at final
    rw [lines, List.cons_append, splitAt, pieces]
    split
    · exact ⟨line, by simpa using final, inside⟩
    · cases others with
      | nil =>
        obtain rfl : first = line := by simpa using final
        exact ⟨d :: first, rfl, List.mem_cons_of_mem d inside⟩
      | cons second more => exact ⟨line, by simpa using final, inside⟩

/-! ## Blank lines at the ends -/

theorem exists_trimLines (ls : List Text) : ∃ before behind,
    ls = before ++ trimLines ls ++ behind ∧ ∀ l ∈ before ++ behind, isBlank l = true := by
  obtain ⟨before, behind, whole, first, last⟩ := exists_dropped isBlank ls
  exact ⟨before, behind, whole, List.forall_mem_append.mpr ⟨first, last⟩⟩

theorem trimLines_map {f : Text → Text} (same : ∀ l, isBlank (f l) = isBlank l) (ls : List Text) :
    trimLines (ls.map f) = (trimLines ls).map f := by
  have class_ : (isBlank ∘ f) = isBlank := funext same
  simp only [trimLines, List.dropWhile_map, ← List.map_reverse, class_]

theorem isBlank_trimRight (l : Text) : isBlank (trimRight StaticSite.isBlank l) = isBlank l := by
  have all : ∀ c ∈ l.rtakeWhile StaticSite.isBlank, StaticSite.isBlank c = true :=
    fun c member => List.mem_rtakeWhile_imp member
  have whole : isBlank (l.rdropWhile StaticSite.isBlank ++ l.rtakeWhile StaticSite.isBlank) =
      isBlank (l.rdropWhile StaticSite.isBlank) := by
    rw [isBlank, List.all_append, List.all_eq_true.mpr all, Bool.and_true]
    rfl
  rw [List.rdropWhile_append_rtakeWhile] at whole
  exact whole.symm

theorem trim_of_isBlank {l : Text} (blank : isBlank l = true) : l.trim = [] := by
  have none := trim_blanks_append (List.all_eq_true.mp blank) []
  rwa [List.append_nil] at none

/-! ## The margin -/

/-- Without a visible line at the margin nothing is taken off. -/
theorem margin_of_flush {ls : List Text} {l : Text} (member : l ∈ ls)
    (flush : ∃ c ∈ l.head?, StaticSite.isBlank c = false) : (margin ls).getD [] = [] := by
  obtain ⟨c, first, visible⟩ := flush
  obtain ⟨rest, rfl⟩ := List.head?_eq_some_iff.mp first
  have outside : isIndent c = false := by
    by_contra indents
    rw [isBlank_of_isIndent (by simpa using indents)] at visible
    cases visible
  cases found : margin ls with
  | none => rfl
  | some m =>
    have start := margin_prefix found _ member (by simp [isBareLine, outside])
    rw [List.takeWhile_cons_of_neg (by simp [outside])] at start
    exact List.prefix_nil.mp start

end StaticSite.Text
