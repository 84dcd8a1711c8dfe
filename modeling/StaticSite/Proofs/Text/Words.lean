import StaticSite.Proofs.Text.Trim
import StaticSite.Text.Lines

/-! # Words

The words of a text are its runs of characters that are not blank. Trimming lines, moving them and
dropping blank ones keeps the words, and a reader that does not tell one run of blanks from another
depends on the words alone. Around the first occurrence of a character the words are those of the
texts around it.
-/

namespace StaticSite.Text

/-- The words of a text behind the beginning of a word. -/
def wordsFrom (word : Text) : Text → List Text
  | [] => if word.isEmpty then [] else [word]
  | c :: rest =>
      if StaticSite.isBlank c then (if word.isEmpty then [] else [word]) ++ wordsFrom [] rest
      else wordsFrom (word ++ [c]) rest

/-- The words of a text. -/
def words (t : Text) : List Text := wordsFrom [] t

theorem words_blank_cons {c : Char} (blank : StaticSite.isBlank c = true) (t : Text) :
    words (c :: t) = words t := by
  rw [words, wordsFrom, if_pos blank]
  rfl

/-- A blank ends the words before it. -/
theorem wordsFrom_append {c : Char} (blank : StaticSite.isBlank c = true) (word s t : Text) :
    wordsFrom word (s ++ c :: t) = wordsFrom word s ++ words t := by
  induction s generalizing word with
  | nil => simp only [List.nil_append, wordsFrom, blank, if_true, words]
  | cons d rest ih =>
    rw [List.cons_append, wordsFrom, wordsFrom, ih, ih]
    split
    · rw [List.append_assoc]
    · rfl

theorem wordsFrom_of_visible {t : Text} (visible : ∀ c ∈ t, StaticSite.isBlank c = false)
    {word : Text} (some : word ++ t ≠ []) : wordsFrom word t = [word ++ t] := by
  induction t generalizing word with
  | nil =>
    rw [List.append_nil] at some ⊢
    rw [wordsFrom, if_neg (by simpa using some)]
  | cons c rest ih =>
    obtain ⟨here, others⟩ := List.forall_mem_cons.mp visible
    have pushed : word ++ c :: rest = word ++ [c] ++ rest := by simp
    rw [wordsFrom, if_neg (by simp [here]), pushed]
    exact ih others (by simp)

/-- A text without blanks is one word. -/
theorem words_of_visible {t : Text} (visible : ∀ c ∈ t, StaticSite.isBlank c = false)
    (some : t ≠ []) : words t = [t] := @wordsFrom_of_visible t visible [] some

/-- The words of a text hold its characters other than blanks. -/
theorem flatten_words (t : Text) : (words t).flatten = t.filter (!StaticSite.isBlank ·) := by
  have from_word (word : Text) :
      (wordsFrom word t).flatten = word ++ t.filter (!StaticSite.isBlank ·) := by
    induction t generalizing word with
    | nil => cases word <;> simp [wordsFrom]
    | cons c rest ih =>
      rw [wordsFrom]
      by_cases blank : StaticSite.isBlank c = true
      · cases word <;> simp [blank, ih]
      · simp [blank, ih]
  exact from_word []

/-- What the words of a text are depends on what stands before it only through the word that is
begun there. -/
theorem exists_wordsFrom_append (word s : Text) :
    ∃ before begun, ∀ t, wordsFrom word (s ++ t) = before ++ wordsFrom begun t := by
  induction s generalizing word with
  | nil => exact ⟨[], word, fun t => rfl⟩
  | cons c rest ih =>
    by_cases blank : StaticSite.isBlank c = true
    · obtain ⟨before, begun, goes⟩ := ih []
      refine ⟨(if word.isEmpty then [] else [word]) ++ before, begun, fun t => ?_⟩
      rw [List.cons_append, wordsFrom, if_pos blank, goes, List.append_assoc]
    · obtain ⟨before, begun, goes⟩ := ih (word ++ [c])
      refine ⟨before, begun, fun t => ?_⟩
      rw [List.cons_append, wordsFrom, if_neg blank, goes]

section Blanks

variable {blanks : Text} (all : ∀ c ∈ blanks, StaticSite.isBlank c = true)
include all

theorem words_blanks_append (t : Text) : words (blanks ++ t) = words t := by
  induction blanks with
  | nil => rfl
  | cons c rest ih =>
    obtain ⟨here, others⟩ := List.forall_mem_cons.mp all
    rw [List.cons_append, words_blank_cons here, ih others]

theorem words_of_blanks : words blanks = [] := by
  have none := words_blanks_append all []
  rwa [List.append_nil] at none

theorem words_append_blanks (t : Text) : words (t ++ blanks) = words t := by
  cases blanks with
  | nil => rw [List.append_nil]
  | cons c rest =>
    obtain ⟨here, others⟩ := List.forall_mem_cons.mp all
    rw [words, wordsFrom_append here, words_of_blanks others, List.append_nil]
    rfl

end Blanks

theorem isBlank_of_words {t : Text} (none : words t = []) : isBlank t = true := by
  have bare := flatten_words t
  rw [none, List.flatten_nil, eq_comm, List.filter_eq_nil_iff] at bare
  simpa [isBlank] using bare

theorem words_trimRight (t : Text) : words (trimRight StaticSite.isBlank t) = words t := by
  have all : ∀ c ∈ t.rtakeWhile StaticSite.isBlank, StaticSite.isBlank c = true :=
    fun c member => List.mem_rtakeWhile_imp member
  have padded := words_append_blanks all (t.rdropWhile StaticSite.isBlank)
  rw [List.rdropWhile_append_rtakeWhile] at padded
  exact padded.symm

theorem words_trim (t : Text) : words t.trim = words t := by
  have all : ∀ c ∈ t.takeWhile StaticSite.isBlank, StaticSite.isBlank c = true :=
    fun c member => List.mem_takeWhile_imp member
  have padded := words_blanks_append all (t.dropWhile StaticSite.isBlank)
  rw [List.takeWhile_append_dropWhile] at padded
  exact (words_trimRight _).trans padded.symm

/-! ## Words of lines -/

theorem words_unlines (ls : List Text) : words (unlines ls) = ls.flatMap words := by
  unfold unlines
  induction ls with
  | nil => rfl
  | cons l rest ih =>
    cases rest with
    | nil => simp [joinWith]
    | cons m more =>
      have cut : joinWith ['\n'] (l :: m :: more) = l ++ '\n' :: joinWith ['\n'] (m :: more) := by
        simp [joinWith]
      rw [cut, words, wordsFrom_append (by decide), ih, List.flatMap_cons]
      rfl

theorem words_lines (t : Text) : (lines t).flatMap words = words t := by
  rw [← words_unlines, unlines, lines, joinWith_splitAt]

theorem words_dropWhile_isBlank (ls : List Text) :
    (ls.dropWhile isBlank).flatMap words = ls.flatMap words := by
  induction ls with
  | nil => rfl
  | cons l rest ih =>
    by_cases blank : isBlank l = true
    · rw [List.dropWhile_cons_of_pos blank, ih, List.flatMap_cons,
        words_of_blanks (List.all_eq_true.mp blank), List.nil_append]
    · rw [List.dropWhile_cons_of_neg blank]

theorem words_reverse_dropWhile_isBlank (ls : List Text) :
    ((ls.reverse.dropWhile isBlank).reverse).flatMap words = ls.flatMap words := by
  induction ls using List.reverseRecOn with
  | nil => rfl
  | append_singleton rest l ih =>
    rw [List.reverse_append, List.reverse_singleton, List.singleton_append]
    by_cases blank : isBlank l = true
    · rw [List.dropWhile_cons_of_pos blank, ih, List.flatMap_append, List.flatMap_singleton,
        words_of_blanks (List.all_eq_true.mp blank), List.append_nil]
    · rw [List.dropWhile_cons_of_neg blank]
      simp

theorem words_trimLines (ls : List Text) : (trimLines ls).flatMap words = ls.flatMap words := by
  rw [trimLines, words_reverse_dropWhile_isBlank, words_dropWhile_isBlank]

/-! ## Words around a character -/

section Around

variable {separator : Char}

/-- The words before the first occurrence of a character in words, and those behind it. -/
def wordsAround (separator : Char) : List Text → List Text × List Text
  | [] => ([], [])
  | word :: rest =>
      if separator ∈ word then
        let (before, behind) := splitFirst separator word
        (if before.isEmpty then [] else [before],
          (if behind.isEmpty then [] else [behind]) ++ rest)
      else (word :: (wordsAround separator rest).1, (wordsAround separator rest).2)

theorem wordsAround_begun {before : Text} (none : separator ∉ before) (behind t : Text) :
    wordsAround separator (wordsFrom (before ++ separator :: behind) t) =
      (if before.isEmpty then [] else [before], wordsFrom behind t) := by
  induction t generalizing behind with
  | nil => simp [wordsFrom, wordsAround, splitFirst_append none]
  | cons c rest ih =>
    rw [wordsFrom, wordsFrom]
    by_cases blank : StaticSite.isBlank c = true
    · simp [blank, wordsAround, splitFirst_append none]
    · rw [if_neg blank, if_neg blank, List.append_assoc, List.cons_append, ih]

/-- The words around the first occurrence of a character are those of the texts around it. -/
theorem wordsAround_wordsFrom (visible : StaticSite.isBlank separator = false) {word before : Text}
    (absent : separator ∉ word) (none : separator ∉ before) (behind : Text) :
    wordsAround separator (wordsFrom word (before ++ separator :: behind)) =
      (wordsFrom word before, words behind) := by
  induction before generalizing word with
  | nil =>
    have begun := wordsAround_begun absent [] behind
    simpa [wordsFrom, visible, words] using begun
  | cons c rest ih =>
    obtain ⟨other, later⟩ : separator ≠ c ∧ separator ∉ rest := by simpa using none
    rw [List.cons_append, wordsFrom, wordsFrom]
    by_cases blank : StaticSite.isBlank c = true
    · have inner := @ih [] (by simp) later
      cases word with
      | nil => simpa [blank] using inner
      | cons d more => simp [blank, wordsAround, absent, inner]
    · rw [if_neg blank, if_neg blank]
      exact ih (by simp [absent, other]) later

/-- Texts with the same words have the same words before the first occurrence of a character, and
the same behind it. -/
theorem words_around (visible : StaticSite.isBlank separator = false) {before after behind rest : Text}
    (first : separator ∉ before) (second : separator ∉ after)
    (same : words (before ++ separator :: behind) = words (after ++ separator :: rest)) :
    words before = words after ∧ words behind = words rest := by
  have left := wordsAround_wordsFrom visible List.not_mem_nil first behind
  have right := wordsAround_wordsFrom visible List.not_mem_nil second rest
  rw [words, words] at same
  rw [same, right] at left
  exact ⟨(congrArg Prod.fst left).symm, (congrArg Prod.snd left).symm⟩

end Around

/-! ## The margin -/

theorem isBlank_of_isIndent {c : Char} (indents : isIndent c = true) :
    StaticSite.isBlank c = true := by
  simp only [isIndent, Bool.or_eq_true, beq_iff_eq] at indents
  rcases indents with rfl | rfl <;> decide

theorem isBlank_of_isBareLine {t : Text} (bare : isBareLine t = true) :
    ∀ c ∈ t, StaticSite.isBlank c = true :=
  fun c member => isBlank_of_isIndent (List.all_eq_true.mp bare c member)

theorem commonStart_prefix (s t : Text) : commonStart s t <+: s ∧ commonStart s t <+: t := by
  fun_induction commonStart s t with
  | case1 c s t ih => exact ⟨List.cons_prefix_cons.mpr ⟨rfl, ih.1⟩, List.cons_prefix_cons.mpr ⟨rfl, ih.2⟩⟩
  | case2 => exact ⟨List.nil_prefix, List.nil_prefix⟩
  | case3 => exact ⟨List.nil_prefix, List.nil_prefix⟩

/-- Lines without a margin are bare. -/
theorem isBareLine_of_margin {ls : List Text} (none : margin ls = none) :
    ∀ l ∈ ls, isBareLine l = true := by
  induction ls with
  | nil => simp
  | cons l rest ih =>
    rw [margin] at none
    by_cases bare : isBareLine l = true
    · rw [if_pos bare] at none
      exact List.forall_mem_cons.mpr ⟨bare, ih none⟩
    · rw [if_neg bare] at none
      cases below : margin rest <;> simp [below] at none

/-- Every line that is not bare begins with the margin. -/
theorem margin_prefix {ls : List Text} {m : Text} (found : margin ls = some m) :
    ∀ l ∈ ls, isBareLine l = false → m <+: l.takeWhile isIndent := by
  induction ls generalizing m with
  | nil => cases found
  | cons l rest ih =>
    rw [margin] at found
    by_cases bare : isBareLine l = true
    · rw [if_pos bare] at found
      refine List.forall_mem_cons.mpr ⟨fun other => ?_, ih found⟩
      rw [bare] at other
      cases other
    · rw [if_neg bare] at found
      cases below : margin rest with
      | none =>
        have same : l.takeWhile isIndent = m := by simpa [below] using found
        refine List.forall_mem_cons.mpr ⟨fun _ => same ▸ List.prefix_refl _, ?_⟩
        intro k member other
        rw [isBareLine_of_margin below k member] at other
        cases other
      | some other =>
        have same : commonStart (l.takeWhile isIndent) other = m := by simpa [below] using found
        obtain ⟨here, there⟩ := commonStart_prefix (l.takeWhile isIndent) other
        rw [same] at here there
        exact List.forall_mem_cons.mpr ⟨fun _ => here,
          fun k member visible => there.trans (ih below k member visible)⟩

/-- What is taken off a line are blanks. -/
theorem exists_dedent {ls : List Text} {l : Text} (member : l ∈ ls) :
    ∃ blanks rest, (∀ c ∈ blanks, StaticSite.isBlank c = true) ∧ l = blanks ++ rest ∧
      (if isBareLine l then [] else l.drop ((margin ls).getD []).length) = rest := by
  by_cases bare : isBareLine l = true
  · exact ⟨l, [], isBlank_of_isBareLine bare, (List.append_nil l).symm, if_pos bare⟩
  · have start : ((margin ls).getD []) <+: l.takeWhile isIndent := by
      cases found : margin ls with
      | none => exact List.nil_prefix
      | some m => exact margin_prefix found l member (by simpa using bare)
    obtain ⟨rest, whole⟩ := start.trans (List.takeWhile_prefix isIndent)
    refine ⟨(margin ls).getD [], rest, fun c inside => ?_, whole.symm, ?_⟩
    · exact isBlank_of_isIndent (List.mem_takeWhile_imp (start.subset inside))
    · rw [if_neg bare, ← whole, List.drop_left]

/-- Taking the margin off keeps the words. -/
theorem words_dedent (ls : List Text) : (dedent ls).flatMap words = ls.flatMap words := by
  unfold dedent
  rw [List.flatMap_map]
  refine List.flatMap_congr fun l member => ?_
  obtain ⟨blanks, rest, all, whole, cut⟩ := exists_dedent member
  rw [cut, whole, words_blanks_append all]

/-! ## Readers -/

section Readers

variable {σ β : Type} (read : σ → Text → β)

/-- A reader that passes blanks over, and for which a word comes to the same whatever blank stands
behind it, depends on the words alone. -/
theorem read_eq_of_words
    (passes : ∀ m c t, StaticSite.isBlank c = true → read m (c :: t) = read m t)
    (ends : ∀ m w, ∃ next : β → β, ∃ n, read m w = next (read n []) ∧
      ∀ c t, StaticSite.isBlank c = true → read m (w ++ c :: t) = next (read n t))
    {s t : Text} (same : words s = words t) (m : σ) : read m s = read m t := by
  have canonical (t w : Text) (m : σ) :
      read m (w ++ t) = read m ((wordsFrom w t).flatMap (' ' :: ·)) := by
    induction t generalizing w m with
    | nil =>
      by_cases empty : w = []
      · subst empty
        rfl
      · have some : w.isEmpty = false := by simpa using empty
        rw [wordsFrom, some, List.append_nil]
        simpa using (passes m ' ' w (by decide)).symm
    | cons c rest ih =>
      rw [wordsFrom]
      by_cases blank : StaticSite.isBlank c = true
      · rw [if_pos blank]
        by_cases empty : w = []
        · subst empty
          rw [List.nil_append, passes m c rest blank]
          exact ih [] m
        · have some : w.isEmpty = false := by simpa using empty
          obtain ⟨next, n, stops, goes⟩ := ends m w
          have later : read n rest = read n ((wordsFrom [] rest).flatMap (' ' :: ·)) := ih [] n
          rw [some, goes c rest blank, later]
          simp only [Bool.false_eq_true, if_false, List.cons_append, List.nil_append,
            List.flatMap_cons]
          rw [passes m ' ' _ (by decide)]
          cases others : wordsFrom [] rest with
          | nil => simpa using stops.symm
          | cons v more =>
            rw [List.flatMap_cons, List.cons_append, goes ' ' _ (by decide),
              passes n ' ' _ (by decide)]
      · rw [if_neg blank]
        simpa using ih (w ++ [c]) m
  have first := canonical s [] m
  have second := canonical t [] m
  rw [List.nil_append] at first second
  change read m s = read m ((words s).flatMap (' ' :: ·)) at first
  rw [first, same]
  exact second.symm

end Readers

end StaticSite.Text
