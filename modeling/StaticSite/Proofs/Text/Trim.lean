import Mathlib.Data.List.DropRight
import StaticSite.Text.Blank

/-! # Trimming and splitting

What trimming does at the ends of a list depends on the nearest element that is kept: what stands
beyond it stays. A trimmed text keeps its ends, and a text is split at a separator where the part
before it holds none.
-/

namespace StaticSite

section Lists

variable {α : Type} {p : α → Bool}

theorem rdropWhile_append_of_forall {ms : List α} (all : ∀ m ∈ ms, p m = true) (ls : List α) :
    (ls ++ ms).rdropWhile p = ls.rdropWhile p := by
  induction ms using List.reverseRecOn with
  | nil => rw [List.append_nil]
  | append_singleton rest m ih =>
    rw [← List.append_assoc, List.rdropWhile_concat_pos _ _ _ (all m (by simp))]
    exact ih fun d member => all d (List.mem_append_left _ member)

theorem dropWhile_append_of_exists {ls : List α} (kept : ∃ l ∈ ls, p l = false) (ms : List α) :
    (ls ++ ms).dropWhile p = ls.dropWhile p ++ ms := by
  rw [List.dropWhile_append, if_neg]
  intro none
  obtain ⟨l, member, stays⟩ := kept
  have drops := List.dropWhile_eq_nil_iff.mp (List.isEmpty_iff.mp none) l member
  simp [stays] at drops

theorem rdropWhile_append_of_exists {ms : List α} (kept : ∃ m ∈ ms, p m = false) (ls : List α) :
    (ls ++ ms).rdropWhile p = ls ++ ms.rdropWhile p := by
  have turned : ∃ m ∈ ms.reverse, p m = false := by simpa using kept
  have reversed := dropWhile_append_of_exists turned ls.reverse
  simp [List.rdropWhile, reversed]

/-- An element goes with what stands behind it, or stays with what is kept of that. -/
theorem rdropWhile_append_cases (ls ms : List α) :
    (ls ++ ms).rdropWhile p = ls ++ ms.rdropWhile p ∨
      ms.rdropWhile p = [] ∧ (ls ++ ms).rdropWhile p = ls.rdropWhile p := by
  by_cases kept : ∃ m ∈ ms, p m = false
  · exact .inl (rdropWhile_append_of_exists kept ls)
  · have all : ∀ m ∈ ms, p m = true := by simpa using kept
    exact .inr ⟨List.rdropWhile_eq_nil_iff.mpr all, rdropWhile_append_of_forall all ls⟩

theorem dropWhile_of_head? {ls : List α} (head : ∀ l ∈ ls.head?, p l = false) :
    ls.dropWhile p = ls := by
  cases ls with
  | nil => rfl
  | cons l rest => simp [head l rfl]

theorem rdropWhile_of_getLast? {ls : List α} (last : ∀ l ∈ ls.getLast?, p l = false) :
    ls.rdropWhile p = ls := by
  rw [List.rdropWhile_eq_self_iff]
  intro some
  simpa using last _ (List.getLast?_eq_some_getLast some)

theorem head?_dropWhile (ls : List α) : ∀ l ∈ (ls.dropWhile p).head?, p l = false := by
  intro l first
  have stays := List.head?_dropWhile_not p ls
  rw [first] at stays
  simpa using stays

theorem getLast?_rdropWhile (ls : List α) : ∀ l ∈ (ls.rdropWhile p).getLast?, p l = false := by
  intro l last
  rw [List.rdropWhile, List.getLast?_reverse] at last
  exact head?_dropWhile _ l last

/-- Nothing is dropped beyond a last element that is kept. -/
theorem rdropWhile_append_of_getLast? (ls : List α) (last : ∀ l ∈ ls.getLast?, p l = false)
    (ms : List α) : (ls ++ ms).rdropWhile p = ls ++ ms.rdropWhile p := by
  rcases rdropWhile_append_cases ls ms with kept | ⟨none, kept⟩
  · exact kept
  · rw [kept, none, rdropWhile_of_getLast? last, List.append_nil]

/-- Nothing is dropped beyond a first element that is kept. -/
theorem dropWhile_append_of_head? (ms : List α) (head : ∀ m ∈ ms.head?, p m = false)
    (ls : List α) : (ls ++ ms).dropWhile p = ls.dropWhile p ++ ms := by
  rw [List.dropWhile_append]
  split
  · next empty => rw [dropWhile_of_head? head, List.isEmpty_iff.mp empty, List.nil_append]
  · rfl

theorem head?_rdropWhile {ls : List α} (head : ∀ l ∈ ls.head?, p l = false) :
    (ls.rdropWhile p).head? = ls.head? := by
  cases ls with
  | nil => rfl
  | cons l rest =>
    have kept := rdropWhile_append_of_getLast? (p := p) [l] (by simpa using head) rest
    rw [show l :: rest = [l] ++ rest from rfl, kept]
    rfl

/-- What is dropped at the ends of a list are elements of the class. -/
theorem exists_dropped (p : α → Bool) (ls : List α) : ∃ before behind,
    ls = before ++ (ls.dropWhile p).rdropWhile p ++ behind ∧ (∀ l ∈ before, p l = true) ∧
      ∀ l ∈ behind, p l = true := by
  refine ⟨ls.takeWhile p, (ls.dropWhile p).rtakeWhile p, ?_,
    fun l member => List.mem_takeWhile_imp member, fun l member => List.mem_rtakeWhile_imp member⟩
  have ends : (ls.dropWhile p).rdropWhile p ++ (ls.dropWhile p).rtakeWhile p = ls.dropWhile p :=
    List.rdropWhile_append_rtakeWhile
  rw [List.append_assoc, ends, List.takeWhile_append_dropWhile]

/-- A run of elements of a class ends where the next element is of another class. -/
theorem takeWhile_append_of_head? {ls ms : List α} (all : ∀ l ∈ ls, p l = true)
    (head : ∀ m ∈ ms.head?, p m = false) : (ls ++ ms).takeWhile p = ls := by
  have none : ms.takeWhile p = [] := by
    cases ms with
    | nil => rfl
    | cons m rest => simp [head m rfl]
  rw [List.takeWhile_append_of_pos all, none, List.append_nil]

/-- A list that is not of one class is a run of that class up to the first other element. -/
theorem exists_first {ls : List α} (other : ¬ ∀ l ∈ ls, p l = true) :
    ∃ before l behind, ls = before ++ l :: behind ∧ (∀ m ∈ before, p m = true) ∧ p l = false := by
  induction ls with
  | nil => simp at other
  | cons l rest ih =>
    by_cases here : p l = true
    · obtain ⟨before, m, behind, rfl, run, ends⟩ := ih fun all =>
        other (List.forall_mem_cons.mpr ⟨here, all⟩)
      exact ⟨l :: before, m, behind, rfl, List.forall_mem_cons.mpr ⟨here, run⟩, ends⟩
    · exact ⟨[], l, rest, rfl, by simp, by simpa using here⟩

theorem mem_head?_of_start {ls ms : List α} (start : ms <+: ls) : ∀ l ∈ ms.head?, l ∈ ls.head? := by
  obtain ⟨rest, rfl⟩ := start
  intro l first
  cases ms with
  | nil => simp at first
  | cons m more => simpa using first

theorem mem_getLast?_of_ending {ls ms : List α} (ending : ms <:+ ls) :
    ∀ l ∈ ms.getLast?, l ∈ ls.getLast? := by
  obtain ⟨rest, rfl⟩ := ending
  intro l last
  simp_all

theorem drop_length_takeWhile (p : α → Bool) (l : List α) :
    l.drop (l.takeWhile p).length = l.dropWhile p := by
  have whole : (l.takeWhile p ++ l.dropWhile p).drop (l.takeWhile p).length = l.dropWhile p :=
    List.drop_left
  rwa [List.takeWhile_append_dropWhile] at whole

end Lists

namespace Text

theorem trim_of_ends {t : Text} (head : ∀ c ∈ t.head?, StaticSite.isBlank c = false)
    (last : ∀ c ∈ t.getLast?, StaticSite.isBlank c = false) : t.trim = t := by
  change (t.dropWhile StaticSite.isBlank).rdropWhile StaticSite.isBlank = t
  rw [dropWhile_of_head? head, rdropWhile_of_getLast? last]

theorem head?_trim (t : Text) : ∀ c ∈ t.trim.head?, StaticSite.isBlank c = false := fun c first =>
  head?_dropWhile t c (mem_head?_of_start (List.rdropWhile_prefix _ _) c first)

theorem getLast?_trim (t : Text) : ∀ c ∈ t.trim.getLast?, StaticSite.isBlank c = false :=
  getLast?_rdropWhile _

@[simp] theorem trim_trim (t : Text) : t.trim.trim = t.trim :=
  trim_of_ends (head?_trim t) (getLast?_trim t)

/-- Blanks in front of a text are trimmed with it. -/
theorem trim_blanks_append {blanks : Text} (all : ∀ c ∈ blanks, StaticSite.isBlank c = true)
    (t : Text) : trim (blanks ++ t) = t.trim := by
  change ((blanks ++ t).dropWhile _).rdropWhile _ = (t.dropWhile _).rdropWhile _
  rw [List.dropWhile_append_of_pos all]

/-- Blanks behind a text are trimmed with it. -/
theorem trim_append_blanks {blanks : Text} (all : ∀ c ∈ blanks, StaticSite.isBlank c = true)
    (t : Text) : trim (t ++ blanks) = t.trim := by
  change ((t ++ blanks).dropWhile _).rdropWhile _ = (t.dropWhile _).rdropWhile _
  rw [List.dropWhile_append]
  split
  · next empty => simp [List.dropWhile_eq_nil_iff.mpr all, List.isEmpty_iff.mp empty]
  · rw [rdropWhile_append_of_forall all]

@[simp] theorem trim_space_cons (t : Text) : trim (' ' :: t) = t.trim :=
  trim_blanks_append (show ∀ c ∈ [' '], StaticSite.isBlank c = true by decide) t

/-- Only the right end of a text is trimmed when its start is visible. -/
theorem trim_append_left {s t : Text} (head : ∀ c ∈ (s ++ t).head?, StaticSite.isBlank c = false)
    (kept : ∃ c ∈ t, StaticSite.isBlank c = false) :
    trim (s ++ t) = s ++ t.rdropWhile StaticSite.isBlank := by
  change ((s ++ t).dropWhile StaticSite.isBlank).rdropWhile StaticSite.isBlank = _
  rw [dropWhile_of_head? head, rdropWhile_append_of_exists kept]

/-- Only the left end of a text is trimmed when its end is visible. -/
theorem trim_append_right {s t : Text}
    (last : ∀ c ∈ (s ++ t).getLast?, StaticSite.isBlank c = false)
    (kept : ∃ c ∈ s, StaticSite.isBlank c = false) :
    trim (s ++ t) = s.dropWhile StaticSite.isBlank ++ t := by
  change ((s ++ t).dropWhile StaticSite.isBlank).rdropWhile StaticSite.isBlank = _
  rw [rdropWhile_of_getLast? fun c final =>
      last c (mem_getLast?_of_ending (List.dropWhile_suffix _) c final),
    dropWhile_append_of_exists kept]

/-- Blanks at the end are trimmed in any case. -/
theorem trim_rdropWhile (t : Text) : trim (t.rdropWhile StaticSite.isBlank) = t.trim := by
  have all : ∀ c ∈ t.rtakeWhile StaticSite.isBlank, StaticSite.isBlank c = true :=
    fun c member => List.mem_rtakeWhile_imp member
  have padded := trim_append_blanks all (t.rdropWhile StaticSite.isBlank)
  rwa [List.rdropWhile_append_rtakeWhile, eq_comm] at padded

/-- A text that starts with a visible character keeps it. -/
theorem head?_trim_of_head? {t : Text} (head : ∀ c ∈ t.head?, StaticSite.isBlank c = false) :
    t.trim.head? = t.head? := by
  change ((t.dropWhile StaticSite.isBlank).rdropWhile StaticSite.isBlank).head? = _
  rw [dropWhile_of_head? head, head?_rdropWhile head]

/-- A text is split where the part before the separator holds none. -/
theorem splitFirst_append {separator : Char} {before : Text} (none : separator ∉ before)
    (behind : Text) : splitFirst separator (before ++ separator :: behind) = (before, behind) := by
  have others : ∀ c ∈ before, (c != separator) = true := by
    intro c member
    exact bne_iff_ne.mpr fun same => none (same ▸ member)
  simp [splitFirst, List.takeWhile_append_of_pos others, List.dropWhile_append_of_pos others]

end Text

end StaticSite
