import StaticSite.Proofs.Text.Trim
import StaticSite.Text.Escaped
import Mathlib.Data.List.Chain

/-! # Squeezed texts

Squeezing writes each run of a class of characters as one space and keeps all others. A text whose
runs are single spaces stays as it is, and so does every part of it. Escaping keeps the spaces at the
ends of a text, so that they can be trimmed before or after.
-/

namespace StaticSite.Text

/-! ## Runs -/

section Runs

variable {run : Char → Bool} {t : Text}

theorem squeeze_ne_nil (some : t ≠ []) : squeeze run t ≠ [] := by
  fun_induction squeeze run t with
  | case1 => exact absurd rfl some
  | case2 | case4 | case5 => simp
  | case3 c runs d rest again ih => exact ih (by simp)

theorem squeeze_of_all (all : ∀ c ∈ t, run c = true) :
    squeeze run t = if t.isEmpty then [] else [' '] := by
  fun_induction squeeze run t with
  | case1 => rfl
  | case2 => rfl
  | case3 c runs d rest again ih => exact ih fun e member => all e (List.mem_cons_of_mem c member)
  | case4 c runs d rest ends ih => exact absurd (all d (by simp)) ends
  | case5 c rest ends ih => exact absurd (all c (by simp)) ends

/-- One more character of a class makes a space, unless the text ends with a run. -/
theorem squeeze_concat {c : Char} (runs : run c = true) (t : Text) :
    squeeze run (t ++ [c]) = squeeze run t ∨ squeeze run (t ++ [c]) = squeeze run t ++ [' '] := by
  fun_induction squeeze run t with
  | case1 => exact .inr (by simp [squeeze, runs])
  | case2 d here => exact .inl (by simp [squeeze, runs, here])
  | case3 d here e rest more ih => simpa [squeeze, here, more] using ih
  | case4 d here e rest ends ih =>
    have step : squeeze run (d :: e :: rest ++ [c]) = ' ' :: squeeze run (e :: rest ++ [c]) := by
      rw [List.cons_append, List.cons_append, squeeze.eq_def]
      simp [here, ends]
    rw [step]
    exact ih.imp (congrArg _) (congrArg _)
  | case5 d rest other ih =>
    have step : squeeze run (d :: rest ++ [c]) = d :: squeeze run (rest ++ [c]) := by
      rw [List.cons_append, squeeze.eq_def]
      exact if_neg other
    rw [step]
    exact ih.imp (congrArg _) (congrArg _)

theorem mem_of_mem_squeeze {c : Char} (member : c ∈ squeeze run t) : c ∈ t ∨ c = ' ' := by
  fun_induction squeeze run t with
  | case1 => exact .inl member
  | case2 d runs => exact .inr (by simpa using member)
  | case3 d runs e rest again ih => exact (ih member).imp_left (List.mem_cons_of_mem d)
  | case4 d runs e rest ends ih =>
    rcases List.mem_cons.mp member with same | later
    · exact .inr same
    · exact (ih later).imp_left (List.mem_cons_of_mem d)
  | case5 d rest other ih =>
    rcases List.mem_cons.mp member with same | later
    · exact .inl (same ▸ List.mem_cons_self)
    · exact (ih later).imp_left (List.mem_cons_of_mem d)

/-- A character that belongs to no run and is no space is kept. -/
theorem mem_squeeze_iff {c : Char} (stays : run c = false) (other : c ≠ ' ') (t : Text) :
    c ∈ squeeze run t ↔ c ∈ t := by
  have apart {d : Char} (runs : run d = true) : c ≠ d := by
    rintro rfl
    rw [stays] at runs
    cases runs
  fun_induction squeeze run t with
  | case1 => rfl
  | case2 d runs => simp [other, apart runs]
  | case3 d runs e rest again ih => simpa [apart runs] using ih
  | case4 d runs e rest ends ih => simpa [other, apart runs] using ih
  | case5 d rest ends ih => exact List.mem_cons.trans ((or_congr_right ih).trans List.mem_cons.symm)

end Runs

/-! ## Squeezing again -/

/-- Whether the characters of a class in a text are single spaces. -/
structure Squeezed (run : Char → Bool) (t : Text) : Prop where
  space : ∀ c ∈ t, run c = true → c = ' '
  single : t.IsChain fun c d => ¬ (run c = true ∧ run d = true)

section Squeezed

variable {run : Char → Bool} {t : Text}

theorem Squeezed.of_part (squeezed : Squeezed run t) {s : Text} (inside : s <:+: t) :
    Squeezed run s :=
  ⟨fun c member => squeezed.space c (inside.subset member), List.IsChain.infix squeezed.single inside⟩

theorem squeezed_cons {c : Char} {rest : Text} : Squeezed run (c :: rest) ↔
    (run c = true → c = ' ') ∧ (run c = true → ∀ d ∈ rest.head?, run d = false) ∧
      Squeezed run rest := by
  constructor
  · rintro ⟨space, single⟩
    obtain ⟨next, later⟩ := List.isChain_cons.mp single
    exact ⟨space c List.mem_cons_self,
      fun runs d first => by simpa [runs] using next d first,
      fun d member => space d (List.mem_cons_of_mem c member), later⟩
  · rintro ⟨here, next, space, single⟩
    exact ⟨List.forall_mem_cons.mpr ⟨here, space⟩, List.isChain_cons.mpr
      ⟨fun d first both => by simp [next both.1 d first] at both, single⟩⟩

theorem head?_squeeze {c : Char} (stays : run c = false) (rest : Text) :
    (squeeze run (c :: rest)).head? = some c := by
  rw [squeeze.eq_def]
  simp [stays]

theorem squeezed_squeeze (t : Text) : Squeezed run (squeeze run t) := by
  fun_induction squeeze run t with
  | case1 => exact ⟨by simp, .nil⟩
  | case2 c runs => exact ⟨by simp, .singleton _⟩
  | case3 c runs d rest more ih => exact ih
  | case4 c runs d rest stays ih =>
    refine squeezed_cons.mpr ⟨fun _ => rfl, fun _ e first => ?_, ih⟩
    rw [head?_squeeze (by simpa using stays)] at first
    obtain rfl := Option.mem_some.mp first
    simpa using stays
  | case5 c rest stays ih =>
    exact squeezed_cons.mpr ⟨fun runs => absurd runs stays, fun runs => absurd runs stays, ih⟩

theorem squeeze_of_squeezed (squeezed : Squeezed run t) : squeeze run t = t := by
  fun_induction squeeze run t with
  | case1 => rfl
  | case2 c runs => rw [squeezed.space c List.mem_cons_self runs]
  | case3 c runs d rest more ih =>
    have apart := (squeezed_cons.mp squeezed).2.1 runs d rfl
    rw [apart] at more
    cases more
  | case4 c runs d rest stays ih =>
    obtain ⟨here, -, later⟩ := squeezed_cons.mp squeezed
    rw [here runs, ih later]
  | case5 c rest stays ih => rw [ih (squeezed_cons.mp squeezed).2.2]

end Squeezed

/-! ## Spaces at the ends -/

theorem escapeContent_append (s t : Text) :
    escapeContent (s ++ t) = escapeContent s ++ escapeContent t := replaceEach_append contentReference s t

theorem escapeContent_space : escapeContent [' '] = [' '] := rfl

/-- What a character other than a space is written as neither starts nor ends with one. -/
theorem ends_escapeContent {c : Char} (other : (c == ' ') = false) :
    (∃ d ∈ (escapeContent [c]).head?, (d == ' ') = false) ∧
      ∃ d ∈ (escapeContent [c]).getLast?, (d == ' ') = false := by
  by_cases special : c = '&' ∨ c = '<' ∨ c = '>'
  · rcases special with rfl | rfl | rfl <;> exact ⟨⟨'&', rfl, rfl⟩, ⟨';', rfl, rfl⟩⟩
  · rw [not_or, not_or] at special
    obtain ⟨amp, left, right⟩ := special
    have same : escapeContent [c] = [c] := by
      simp [escapeContent, replaceEach, contentReference]
    rw [same]
    exact ⟨⟨c, rfl, other⟩, c, rfl, other⟩

/-- Spaces are dropped before or after escaping. -/
theorem dropWhile_escapeContent (t : Text) :
    (escapeContent t).dropWhile (· == ' ') = escapeContent (t.dropWhile (· == ' ')) := by
  induction t with
  | nil => rfl
  | cons c rest ih =>
    have split : escapeContent (c :: rest) = escapeContent [c] ++ escapeContent rest :=
      escapeContent_append [c] rest
    by_cases space : c = ' '
    · subst space
      rw [split, escapeContent_space, List.dropWhile_cons_of_pos rfl]
      exact ih
    · have other : (c == ' ') = false := by simpa using space
      obtain ⟨d, first, visible⟩ := (ends_escapeContent other).1
      obtain ⟨more, written⟩ := List.head?_eq_some_iff.mp first
      rw [List.dropWhile_cons_of_neg (by simp [other]), split, written]
      exact List.dropWhile_cons_of_neg (by simp [visible])

theorem rdropWhile_escapeContent (t : Text) :
    (escapeContent t).rdropWhile (· == ' ') = escapeContent (t.rdropWhile (· == ' ')) := by
  induction t using List.reverseRecOn with
  | nil => rfl
  | append_singleton rest c ih =>
    rw [escapeContent_append]
    by_cases space : c = ' '
    · subst space
      rw [escapeContent_space, List.rdropWhile_concat_pos _ _ _ rfl,
        List.rdropWhile_concat_pos _ _ _ rfl, ih]
    · have other : (c == ' ') = false := by simpa using space
      obtain ⟨d, last, visible⟩ := (ends_escapeContent other).2
      obtain ⟨more, written⟩ := List.getLast?_eq_some_iff.mp last
      rw [List.rdropWhile_concat_neg (· == ' ') rest c (by simp [other]), escapeContent_append, written,
        ← List.append_assoc, List.rdropWhile_concat_neg (· == ' ') _ d (by simp [visible])]

theorem trimSpaces_trimSpaces (t : Text) : t.trimSpaces.trimSpaces = t.trimSpaces := by
  change List.rdropWhile _ (List.dropWhile _ (List.rdropWhile _ (List.dropWhile _ t))) = _
  rw [dropWhile_of_head? fun c first => head?_dropWhile t c
    (mem_head?_of_start (List.rdropWhile_prefix _ _) c first)]
  exact List.rdropWhile_idempotent _ _

theorem trimSpaces_concat_space (t : Text) : trimSpaces (t ++ [' ']) = t.trimSpaces := by
  change List.rdropWhile _ (List.dropWhile _ _) = List.rdropWhile _ (List.dropWhile _ _)
  by_cases kept : ∃ c ∈ t, (c == ' ') = false
  · rw [dropWhile_append_of_exists kept, rdropWhile_append_of_forall (by decide)]
  · have all : ∀ c ∈ t, (c == ' ') = true := by simpa using kept
    rw [List.dropWhile_append_of_pos all, List.dropWhile_eq_nil_iff.mpr all]
    rfl

end StaticSite.Text
