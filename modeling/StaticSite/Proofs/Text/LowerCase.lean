import StaticSite.Proofs.Text.Trim
import StaticSite.Text.LowerCase

/-! # Lower case is reached at once

No entry of the case table leads to a character that another one leads on from, and none leads to a
blank or to a character that delimits a tag or a block. So lower-casing a text once more leaves it
alone, and it makes no delimiter.
-/

namespace StaticSite.Text

/-- Whether lower-casing leaves a character alone, whatever stands around it. -/
def IsLow (c : Char) : Prop := c ≠ 'İ' ∧ c ≠ 'Σ' ∧ lowerChar c = c

/-- Whether a character is no blank and none of the delimiters of tags and blocks: a small letter, or
a character beyond ASCII. -/
def IsWord (c : Char) : Prop :=
  (97 ≤ c.toNat ∧ c.toNat ≤ 122 ∨ 128 ≤ c.toNat) ∧ StaticSite.isBlank c = false

/-- A word character is no ASCII character before the small letters. -/
theorem IsWord.ne {c d : Char} (word : IsWord c) (small : d.toNat < 97) : c ≠ d := by
  rintro rfl
  exact absurd word.1 (by omega)

/-! ## The table -/

/-- The characters beyond ASCII that no entry of the case table may lead to: the blanks and the two
letters that the table does not tell the lower case of. -/
def avoided : List (Nat × Nat) := [
  (0x85, 0x85), (0xa0, 0xa0), (0x130, 0x130), (0x3a3, 0x3a3), (0x1680, 0x1680), (0x2000, 0x200a),
  (0x2028, 0x2029), (0x202f, 0x202f), (0x205f, 0x205f), (0x3000, 0x3000)]

theorem lowerRanges_land : ∀ r ∈ lowerRanges,
    (97 ≤ r.1 + r.2.2.2 ∧ r.2.1 + r.2.2.2 ≤ 122 ∨
      128 ≤ r.1 + r.2.2.2 ∧ r.2.1 + r.2.2.2 < 0xd800 ∨
      0xe000 ≤ r.1 + r.2.2.2 ∧ r.2.1 + r.2.2.2 < 0x110000) ∧
    ∀ gap ∈ avoided, r.2.1 + r.2.2.2 < gap.1 ∨ gap.2 < r.1 + r.2.2.2 := by
  decide +kernel

/-- The first and the last character that an entry leads to. -/
def landing (r : Nat × Nat × Nat × Int) : Nat × Nat :=
  ((r.1 + r.2.2.2).toNat, (r.2.1 + r.2.2.2).toNat)

theorem landing_eq : ∀ r ∈ lowerRanges,
    (landing r).1 = r.1 + r.2.2.2 ∧ (landing r).2 = r.2.1 + r.2.2.2 := by
  decide +kernel

-- In `Bool` and over the natural numbers: the kernel goes through every pair of entries here.
theorem all_apart : (lowerRanges.all fun r => lowerRanges.all fun s =>
    Nat.blt (landing r).2 s.1 || (Nat.blt s.2.1 (landing r).1 ||
      (Nat.beq s.2.2.1 2 && (Nat.beq r.2.2.1 2 || Nat.beq r.1 r.2.1)) &&
        Nat.beq (((landing r).1 + s.1) % 2) 1)) = true := by
  decide +kernel

/-- What one entry leads to, no other one leads on from: the ranges lie apart, or one takes the even
and the other the odd characters. -/
theorem lowerRanges_apart : ∀ r ∈ lowerRanges, ∀ s ∈ lowerRanges,
    r.2.1 + r.2.2.2 < s.1 ∨ s.2.1 < r.1 + r.2.2.2 ∨
      s.2.2.1 = 2 ∧ (r.2.2.1 = 2 ∨ r.1 = r.2.1) ∧ (r.1 + r.2.2.2 + s.1) % 2 = 1 := by
  intro r member s other
  obtain ⟨first, last⟩ := landing_eq r member
  have apart := List.all_eq_true.mp (List.all_eq_true.mp all_apart r member) s other
  simp only [Bool.or_eq_true, Bool.and_eq_true, Nat.blt_eq, Nat.beq_eq] at apart
  omega

theorem toNat_ofNat {n : Nat} (valid : n.isValidChar) : (Char.ofNat n).toNat = n := by
  rw [Char.ofNat, dif_pos valid]
  rfl

/-- The entry of a character that the table changes. -/
theorem lowerChar_entry {c : Char} (wide : ¬ c.toNat < 128) (changed : lowerChar c ≠ c) :
    ∃ r ∈ lowerRanges, r.1 ≤ c.toNat ∧ c.toNat ≤ r.2.1 ∧ (c.toNat - r.1) % r.2.2.1 = 0 ∧
      lowerChar c = Char.ofNat (c.toNat + r.2.2.2).toNat := by
  unfold lowerChar at changed ⊢
  rw [if_neg wide] at changed ⊢
  split at changed
  · next first last step distance found =>
    have holds := List.find?_some found
    simp only [Bool.and_eq_true, decide_eq_true_eq, beq_iff_eq] at holds
    exact ⟨_, List.mem_of_find?_eq_some found, holds.1.1, holds.1.2, holds.2, rfl⟩
  · exact absurd rfl changed

/-- A character that no entry holds is left alone. -/
theorem lowerChar_of_forall {c : Char} (wide : ¬ c.toNat < 128) (none : ∀ r ∈ lowerRanges,
    ¬ (r.1 ≤ c.toNat ∧ c.toNat ≤ r.2.1 ∧ (c.toNat - r.1) % r.2.2.1 = 0)) : lowerChar c = c := by
  refine Classical.byContradiction fun changed => ?_
  obtain ⟨r, member, low, high, step, -⟩ := lowerChar_entry wide changed
  exact none r member ⟨low, high, step⟩

theorem lowerChar_ascii_word : ∀ n < 128, 97 ≤ n → lowerChar (Char.ofNat n) = Char.ofNat n := by
  decide

theorem lowerChar_ascii : ∀ n < 128, lowerChar (Char.ofNat n) = Char.ofNat n ∨
    97 ≤ (lowerChar (Char.ofNat n)).toNat ∧ (lowerChar (Char.ofNat n)).toNat ≤ 122 ∧
      StaticSite.isBlank (lowerChar (Char.ofNat n)) = false := by
  decide

/-! ## Characters -/

theorem isLow_of_ascii {c : Char} (ascii : c.toNat < 128) (low : lowerChar c = c) : IsLow c := by
  refine ⟨?_, ?_, low⟩
  all_goals
    rintro rfl
    exact absurd ascii (by decide)

/-- A character of ASCII that is not left alone is led to a small letter. -/
theorem lowerChar_of_ascii {c : Char} (ascii : c.toNat < 128) (changed : lowerChar c ≠ c) :
    IsLow (lowerChar c) ∧ IsWord (lowerChar c) := by
  have cases := lowerChar_ascii c.toNat ascii
  rw [Char.ofNat_toNat] at cases
  obtain ⟨first, last, visible⟩ := cases.resolve_left changed
  have small : (lowerChar c).toNat < 128 := by omega
  have kept := lowerChar_ascii_word _ small first
  rw [Char.ofNat_toNat] at kept
  exact ⟨isLow_of_ascii small kept, .inl ⟨first, last⟩, visible⟩

section Entries

variable {c : Char} {r : Nat × Nat × Nat × Int} (member : r ∈ lowerRanges) (first : r.1 ≤ c.toNat)
  (last : c.toNat ≤ r.2.1) (leads : lowerChar c = Char.ofNat (c.toNat + r.2.2.2).toNat)
include member first last leads

theorem toNat_lowerChar : (lowerChar c).toNat = (c.toNat + r.2.2.2).toNat := by
  obtain ⟨range, -⟩ := lowerRanges_land r member
  have valid : (c.toNat + r.2.2.2).toNat.isValidChar := by
    unfold Nat.isValidChar
    omega
  rw [leads, toNat_ofNat valid]

/-- What an entry leads to is none of the characters to avoid. -/
theorem lowerChar_avoids : IsWord (lowerChar c) ∧ lowerChar c ≠ 'İ' ∧ lowerChar c ≠ 'Σ' := by
  have number := toNat_lowerChar member first last leads
  obtain ⟨range, gaps⟩ := lowerRanges_land r member
  simp only [avoided, List.forall_mem_cons, List.not_mem_nil, false_imp_iff, implies_true] at gaps
  refine ⟨⟨by omega, ?_⟩, ?_, ?_⟩
  · simp only [StaticSite.isBlank, number, Bool.or_eq_false_iff, Bool.and_eq_false_iff,
      decide_eq_false_iff_not, beq_eq_false_iff_ne]
    omega
  · intro same
    have code : 'İ'.toNat = 0x130 := rfl
    rw [same] at number
    omega
  · intro same
    have code : 'Σ'.toNat = 0x3a3 := rfl
    rw [same] at number
    omega

/-- What an entry leads to is left alone. -/
theorem lowerChar_lowerChar (step : (c.toNat - r.1) % r.2.2.1 = 0) :
    lowerChar (lowerChar c) = lowerChar c := by
  have number := toNat_lowerChar member first last leads
  obtain ⟨range, -⟩ := lowerRanges_land r member
  by_cases small : (lowerChar c).toNat < 128
  · have kept := lowerChar_ascii_word _ small (by omega)
    rwa [Char.ofNat_toNat] at kept
  · refine lowerChar_of_forall small fun s other inside => ?_
    have apart := lowerRanges_apart r member s other
    rw [number] at inside
    obtain ⟨low, high, odd⟩ := inside
    rcases apart with below | above | ⟨two, even, parity⟩
    · omega
    · omega
    · rw [two] at odd
      rcases even with alike | single
      · rw [alike] at step
        omega
      · omega

end Entries

/-- A character is left alone or led to a word character that is. -/
theorem lowerChar_cases (c : Char) :
    lowerChar c = c ∨ IsLow (lowerChar c) ∧ IsWord (lowerChar c) := by
  by_cases changed : lowerChar c = c
  · exact .inl changed
  · refine .inr ?_
    by_cases ascii : c.toNat < 128
    · exact lowerChar_of_ascii ascii changed
    · obtain ⟨r, member, first, last, step, leads⟩ := lowerChar_entry ascii changed
      obtain ⟨word, noI, noSigma⟩ := lowerChar_avoids member first last leads
      exact ⟨⟨noI, noSigma, lowerChar_lowerChar member first last leads step⟩, word⟩

/-- Lower-casing a character between others leaves it alone or makes word characters of it. -/
theorem lowerBetween_cases (before : Text) (c : Char) (after : Text) :
    ∃ d more, lowerBetween before c after = d :: more ∧ (IsLow d ∧ (d = c ∨ IsWord d)) ∧
      ∀ e ∈ more, IsLow e ∧ IsWord e := by
  unfold lowerBetween
  split
  · have marks : (IsLow 'i' ∧ IsWord 'i') ∧ IsLow (Char.ofNat 0x307) ∧ IsWord (Char.ofNat 0x307) := by
      unfold IsLow IsWord
      decide
    exact ⟨_, _, rfl, ⟨marks.1.1, .inr marks.1.2⟩, by simpa using marks.2⟩
  · next noI =>
    split
    · have sigmas : (IsLow 'ς' ∧ IsWord 'ς') ∧ IsLow 'σ' ∧ IsWord 'σ' := by
        unfold IsLow IsWord
        decide
      split
      · exact ⟨_, _, rfl, ⟨sigmas.1.1, .inr sigmas.1.2⟩, by simp⟩
      · exact ⟨_, _, rfl, ⟨sigmas.2.1, .inr sigmas.2.2⟩, by simp⟩
    · next noSigma =>
      refine ⟨_, _, rfl, ?_, by simp⟩
      rcases lowerChar_cases c with same | ⟨low, word⟩
      · rw [same]
        exact ⟨⟨noI, noSigma, same⟩, .inl rfl⟩
      · exact ⟨low, .inr word⟩

/-! ## Texts -/

theorem mem_lowerAfter {before t : Text} {d : Char} (member : d ∈ lowerAfter before t) :
    IsLow d ∧ (d ∈ t ∨ IsWord d) := by
  induction t generalizing before with
  | nil => cases member
  | cons c rest ih =>
    rcases List.mem_append.mp member with here | later
    · obtain ⟨e, more, split, ⟨low, kept⟩, words⟩ := lowerBetween_cases before c rest
      rw [split] at here
      rcases List.mem_cons.mp here with rfl | inside
      · refine ⟨low, kept.imp_left ?_⟩
        rintro rfl
        exact List.mem_cons_self
      · exact ⟨(words d inside).1, .inr (words d inside).2⟩
    · obtain ⟨low, inside | word⟩ := ih later
      · exact ⟨low, .inl (List.mem_cons_of_mem c inside)⟩
      · exact ⟨low, .inr word⟩

theorem lowerAfter_of_low {before t : Text} (low : ∀ c ∈ t, IsLow c) : lowerAfter before t = t := by
  induction t generalizing before with
  | nil => rfl
  | cons c rest ih =>
    obtain ⟨noI, noSigma, same⟩ := low c List.mem_cons_self
    rw [lowerAfter, ih fun d member => low d (List.mem_cons_of_mem c member)]
    simp [lowerBetween, noI, noSigma, same]

/-- A text in lower case is its own lower case. -/
@[simp] theorem lower_lower (t : Text) : lower (lower t) = lower t :=
  lowerAfter_of_low fun _ member => (mem_lowerAfter member).1

/-- A character in lower case was there before or is a word character. -/
theorem mem_lower {t : Text} {c : Char} (member : c ∈ lower t) : c ∈ t ∨ IsWord c :=
  (mem_lowerAfter member).2

/-- The first character in lower case is the one that was there or a word character. -/
theorem lower_cons (c : Char) (rest : Text) : ∃ d more, lower (c :: rest) = d :: more ∧
    (d = c ∨ IsWord d) ∧ ∀ e ∈ more, e ∈ rest ∨ IsWord e := by
  obtain ⟨d, more, split, ⟨-, kept⟩, words⟩ := lowerBetween_cases [] c rest
  refine ⟨d, more ++ lowerAfter [c] rest, ?_, kept, fun e member => ?_⟩
  · rw [lower, lowerAfter, split, List.cons_append]
  · rcases List.mem_append.mp member with first | later
    · exact .inr (words e first).2
    · exact (mem_lowerAfter later).2

end StaticSite.Text
