import Mathlib.Data.Nat.Init
import StaticSite.Text.Lines

/-! # Indentation of foreign text

Every line of a text that is not blank gets an indentation, where lines end at any line boundary. The
lines of the result are the lines of the text, so that taking the indentation off them again gives
the text back.
-/

namespace StaticSite.Text

/-- A line behind an indentation, unless it is blank. -/
def indentLine (unit line : Text) : Text := if isBlank line then line else unit ++ line

/-- Takes an indentation off a line that is not blank. -/
def unindentLine (unit line : Text) : Text := if isBlank line then line else line.drop unit.length

/-- Takes an indentation off every line that is not blank. -/
def unindent (unit t : Text) : Text := ((cutLines t).map (unindentLine unit)).flatten

/-- A text in which no line ends. -/
def Unbroken (t : Text) : Prop := ∀ c ∈ t, isLineEnd c = false

/-- A line boundary in front of a text: a carriage return and a newline behind it are one. -/
def Boundary (boundary rest : Text) : Prop :=
  boundary = ['\r', '\n'] ∨
    ∃ c, boundary = [c] ∧ isLineEnd c = true ∧ ¬ (c = '\r' ∧ rest.head? = some '\n')

/-! ## Cutting into lines -/

theorem cutLines_of_unbroken {t : Text} (unbroken : Unbroken t) (some : t ≠ []) : cutLines t = [t] := by
  fun_induction cutLines t with
  | case1 => exact absurd rfl some
  | case2 rest ih => exact absurd (unbroken '\r' List.mem_cons_self) (by decide)
  | case3 c rest _ ends => simp [unbroken c List.mem_cons_self] at ends
  | case4 c rest _ _ none =>
    cases rest with
    | nil => rfl
    | cons d more =>
      have whole := flatten_cutLines (d :: more)
      simp [none] at whole
  | case5 c rest _ _ first others cut ih =>
    have some : rest ≠ [] := by
      rintro rfl
      simp [cutLines] at cut
    have single := ih (fun d member => unbroken d (List.mem_cons_of_mem c member)) some
    rw [cut] at single
    obtain ⟨rfl, rfl⟩ := List.cons.inj single
    rfl

/-- A line up to its boundary is the first line. -/
theorem cutLines_boundary {body boundary rest : Text} (unbroken : Unbroken body)
    (ends : Boundary boundary rest) :
    cutLines (body ++ (boundary ++ rest)) = (body ++ boundary) :: cutLines rest := by
  induction body with
  | nil =>
    rcases ends with rfl | ⟨c, rfl, ends, single⟩
    · simp [cutLines]
    · rw [List.nil_append, List.singleton_append, cutLines]
      · simp [ends]
      · rintro more rfl rfl
        exact single ⟨rfl, rfl⟩
  | cons c more ih =>
    have here := unbroken c List.mem_cons_self
    rw [List.cons_append, cutLines, if_neg (by simp [here]),
      ih fun d member => unbroken d (List.mem_cons_of_mem c member)]
    · rfl
    · rintro others rfl -
      exact absurd here (by decide)

/-- A text is one line without a boundary, or a line up to its boundary and a shorter text. -/
theorem unbroken_or_boundary (t : Text) :
    Unbroken t ∨ ∃ body boundary rest, t = body ++ (boundary ++ rest) ∧ Unbroken body ∧
      Boundary boundary rest ∧ rest.length < t.length := by
  induction t with
  | nil => exact .inl (by simp [Unbroken])
  | cons c rest ih =>
    by_cases ends : isLineEnd c = true
    · right
      by_cases pair : c = '\r' ∧ rest.head? = some '\n'
      · obtain ⟨rfl, newline⟩ := pair
        obtain ⟨more, rfl⟩ := List.head?_eq_some_iff.mp newline
        exact ⟨[], ['\r', '\n'], more, rfl, by simp [Unbroken], .inl rfl,
          by simp only [List.length_cons]; omega⟩
      · exact ⟨[], [c], rest, rfl, by simp [Unbroken], .inr ⟨c, rfl, ends, pair⟩, by simp⟩
    · have plain : isLineEnd c = false := by simpa using ends
      rcases ih with unbroken | ⟨body, boundary, more, rfl, unbroken, ends, shorter⟩
      · exact .inl (List.forall_mem_cons.mpr ⟨plain, unbroken⟩)
      · exact .inr ⟨c :: body, boundary, more, rfl, List.forall_mem_cons.mpr ⟨plain, unbroken⟩, ends,
          by simpa using Nat.lt_succ_of_lt shorter⟩

theorem ne_nil_of_mem_cutLines {t line : Text} (member : line ∈ cutLines t) : line ≠ [] := by
  fun_induction cutLines t with
  | case1 => simp at member
  | case2 rest ih =>
    rcases List.mem_cons.mp member with rfl | later
    · simp
    · exact ih later
  | case3 c rest _ _ ih =>
    rcases List.mem_cons.mp member with rfl | later
    · simp
    · exact ih later
  | case4 c => simp [List.mem_singleton.mp member]
  | case5 c rest _ _ first others cut ih =>
    rcases List.mem_cons.mp member with rfl | later
    · simp
    · exact ih (by simp [cut, later])

/-! ## Lines of an indented text -/

theorem indent_eq (unit t : Text) : indent unit t = ((cutLines t).map (indentLine unit)).flatten := rfl

theorem unbroken_append {s t : Text} (first : Unbroken s) (second : Unbroken t) : Unbroken (s ++ t) := by
  intro c member
  rcases List.mem_append.mp member with inside | behind
  · exact first c inside
  · exact second c behind

section Unit

variable {unit : Text} (unbroken : Unbroken unit)
include unbroken

/-- A newline comes first in an indented text only when it does in the text. -/
theorem head?_of_head?_indent {t : Text} (first : (indent unit t).head? = some '\n') :
    t.head? = some '\n' := by
  have whole := flatten_cutLines t
  rw [indent_eq] at first
  cases cut : cutLines t with
  | nil => simp [cut] at first
  | cons line others =>
    rw [cut, List.map_cons, List.flatten_cons, indentLine] at first
    rw [← whole, cut, List.flatten_cons]
    obtain ⟨c, more, rfl⟩ := List.exists_cons_of_ne_nil
      (ne_nil_of_mem_cutLines (cut ▸ List.mem_cons_self : line ∈ cutLines t))
    split at first
    · simpa using first
    · cases unit with
      | nil => simpa using first
      | cons d behind =>
        obtain rfl : d = '\n' := by simpa using first
        exact absurd (unbroken '\n' List.mem_cons_self) (by decide)

/-- The lines of an indented text are the lines of the text, indented. -/
theorem cutLines_indent (t : Text) : cutLines (indent unit t) = (cutLines t).map (indentLine unit) := by
  induction length : t.length using Nat.strong_induction_on generalizing t with
  | _ n ih =>
    subst length
    rcases unbroken_or_boundary t with plain | ⟨body, boundary, rest, rfl, plain, ends, shorter⟩
    · by_cases none : t = []
      · subst none
        rfl
      · rw [indent_eq, cutLines_of_unbroken plain none]
        simp only [List.map_cons, List.map_nil, List.flatten_cons, List.flatten_nil, List.append_nil]
        unfold indentLine
        split
        · exact cutLines_of_unbroken plain none
        · exact cutLines_of_unbroken (unbroken_append unbroken plain) (by simp [none])
    · obtain ⟨front, unbrokenFront, line⟩ : ∃ front, Unbroken front ∧
          indentLine unit (body ++ boundary) = front ++ boundary := by
        unfold indentLine
        split
        · exact ⟨body, plain, rfl⟩
        · exact ⟨unit ++ body, unbroken_append unbroken plain, (List.append_assoc ..).symm⟩
      have still : Boundary boundary (indent unit rest) := by
        rcases ends with pair | ⟨c, single, ends, alone⟩
        · exact .inl pair
        · exact .inr ⟨c, single, ends, fun ⟨same, newline⟩ =>
            alone ⟨same, head?_of_head?_indent unbroken newline⟩⟩
      rw [indent_eq, cutLines_boundary plain ends, List.map_cons, List.flatten_cons, ← indent_eq, line,
        List.append_assoc, cutLines_boundary unbrokenFront still, ih _ shorter rest rfl]

/-- Taking an indentation off gives the text back. -/
theorem unindent_indent (t : Text) : unindent unit (indent unit t) = t := by
  have same : unindentLine unit ∘ indentLine unit = id := by
    funext line
    by_cases blank : isBlank line = true
    · simp [unindentLine, indentLine, blank]
    · have visible : isBlank (unit ++ line) = false := by
        rw [isBlank, List.all_append, Bool.and_eq_false_iff]
        exact .inr (by simpa [isBlank] using blank)
      simp [unindentLine, indentLine, blank, visible]
  rw [unindent, cutLines_indent unbroken, List.map_map, same, List.map_id, flatten_cutLines]

/-- Every line of an indented text that is not blank begins with the indentation. -/
theorem prefix_of_mem_cutLines_indent {t line : Text} (member : line ∈ cutLines (indent unit t))
    (visible : isBlank line = false) : unit <+: line := by
  rw [cutLines_indent unbroken] at member
  obtain ⟨own, -, rfl⟩ := List.mem_map.mp member
  unfold indentLine at visible ⊢
  split
  · next blank => simp [blank] at visible
  · exact List.prefix_append ..

end Unit

end StaticSite.Text
