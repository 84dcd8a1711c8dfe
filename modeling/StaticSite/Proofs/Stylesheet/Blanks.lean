import StaticSite.Proofs.Stylesheet.Insertion
import StaticSite.Proofs.Text.Words

/-! # Blanks of a stylesheet

Whether a stylesheet has a layout depends on its words alone: a run of blanks may be any other run of
blanks, in comments and strings too.
-/

namespace StaticSite.Stylesheet

/-- The shapes of lexemes that are not blank. -/
def core (ls : List Lexeme) : List Lexeme := (ls.map Lexeme.shape).filter (!·.isBlank)

theorem core_append (ls ms : List Lexeme) : core (ls ++ ms) = core ls ++ core ms := by
  rw [core, List.map_append, List.filter_append]
  rfl

theorem core_blank_cons {c : Char} (blank : isBlank c = true) (ls : List Lexeme) :
    core (.char c :: ls) = core ls := by
  simp [core, Lexeme.shape, Lexeme.isBlank, blank]

theorem core_inComment (seen other t : Text) :
    core (lexemesFrom (.inComment seen) t) = core (lexemesFrom (.inComment other) t) := by
  rw [core, shape_inComment seen other, core]

theorem core_inQuoted {quote : Char} (opens : isQuote quote = true) (seen other t : Text) :
    core (lexemesFrom (.inQuoted quote seen) t) = core (lexemesFrom (.inQuoted quote other) t) := by
  rw [core, shape_inQuoted opens seen other, core]

theorem ne_of_isBlank {c d : Char} (blank : isBlank c = true) (visible : isBlank d = false) : c ≠ d := by
  rintro rfl
  rw [blank] at visible
  cases visible

/-- A blank at the start of a text adds nothing to its core. -/
theorem core_lexemesFrom_blank {mode : Mode} (valid : mode.Valid) {c : Char} (blank : isBlank c = true)
    (t : Text) : core (lexemesFrom mode (c :: t)) = core (lexemesFrom mode t) := by
  cases mode with
  | outside =>
    have plain : ¬ (c = '/' ∧ t.head? = some '*') := fun both =>
      ne_of_isBlank blank (by decide) both.1
    have noQuote : isQuote c = false := Bool.eq_false_iff.mpr fun opens =>
      ne_of_isBlank blank (isBlank_of_isQuote opens) rfl
    rw [lexemesFrom_outside_cons plain noQuote, core_blank_cons blank]
  | inComment seen =>
    have goesOn : ¬ (c = '*' ∧ t.head? = some '/') := fun both =>
      ne_of_isBlank blank (by decide) both.1
    rw [lexemesFrom_inComment_cons goesOn]
    exact core_inComment _ _ _
  | inQuoted quote seen =>
    have plain : c ≠ '\\' := ne_of_isBlank blank (by decide)
    have other : c ≠ quote := ne_of_isBlank blank (isBlank_of_isQuote valid)
    rw [lexemesFrom_inQuoted_cons plain other]
    exact core_inQuoted valid _ _ _

/-- What a reader holds in front of a blank is taken, and the blank with it. -/
theorem Held.exists_core {mode : Mode} (valid : mode.Valid) {held : Text} (holds : Held mode held) :
    ∃ ls after, after.Valid ∧ core (lexemesFrom mode held) = ls ++ core (lexemesFrom after []) ∧
      ∀ c t, isBlank c = true →
        core (lexemesFrom mode (held ++ c :: t)) = ls ++ core (lexemesFrom after t) := by
  cases holds with
  | nothing => exact ⟨[], mode, valid, rfl, fun c t blank => core_lexemesFrom_blank valid blank t⟩
  | slash =>
    refine ⟨[.char '/'], .outside, trivial, rfl, fun c t blank => ?_⟩
    have plain : ¬ ('/' = '/' ∧ (c :: t).head? = some '*') := fun both =>
      ne_of_isBlank blank (by decide) (Option.some.inj both.2)
    rw [List.singleton_append, lexemesFrom_outside_cons plain rfl, ← List.singleton_append,
      core_append, @core_lexemesFrom_blank .outside trivial c blank]
    rfl
  | star seen =>
    refine ⟨[], .inComment seen, trivial, core_inComment ('*' :: seen) seen [], fun c t blank => ?_⟩
    have goesOn : ¬ ('*' = '*' ∧ (c :: t).head? = some '/') := fun both =>
      ne_of_isBlank blank (by decide) (Option.some.inj both.2)
    rw [List.singleton_append, lexemesFrom_inComment_cons goesOn,
      @core_lexemesFrom_blank (.inComment _) trivial c blank]
    exact core_inComment _ _ _
  | backslash quote seen =>
    have other : '\\' ≠ quote := (valid.quote_ne rfl).symm
    have alone : lexemesFrom (.inQuoted quote seen) ['\\'] =
        lexemesFrom (.inQuoted quote ('\\' :: seen)) [] := by
      simp [lexemesFrom, other]
    refine ⟨[], .inQuoted quote seen, valid, ?_, fun c t blank => ?_⟩
    · exact (congrArg core alone).trans (core_inQuoted valid _ _ _)
    · rw [List.singleton_append, lexemesFrom]
      exact core_inQuoted valid _ _ _

/-- In front of a blank a reader comes to the same mode whatever blank it is. -/
theorem exists_core {mode : Mode} (valid : mode.Valid) (w : Text) :
    ∃ ls after, after.Valid ∧ core (lexemesFrom mode w) = ls ++ core (lexemesFrom after []) ∧
      ∀ c t, isBlank c = true →
        core (lexemesFrom mode (w ++ c :: t)) = ls ++ core (lexemesFrom after t) := by
  obtain ⟨ls, behind, held, there⟩ := exists_reaches valid w
  obtain ⟨ms, after, known, ends, goes⟩ := there.holds.exists_core there.valid
  refine ⟨core ls ++ ms, after, known, ?_, fun c t blank => ?_⟩
  · rw [there.alone, core_append, ends, List.append_assoc]
  · rw [there.read, core_append, goes c t blank, List.append_assoc]

/-- The core of a text depends on its words. -/
theorem core_of_words {s t : Text} (same : Text.words s = Text.words t) :
    core (lexemes s) = core (lexemes t) := by
  refine Text.read_eq_of_words (fun (m : { mode : Mode // mode.Valid }) t =>
    core (lexemesFrom m.1 t)) (fun m c t blank => ?_) (fun m w => ?_) same ⟨.outside, trivial⟩
  · exact core_lexemesFrom_blank m.2 blank t
  · obtain ⟨ls, after, known, ends, goes⟩ := exists_core m.2 w
    exact ⟨(ls ++ ·), ⟨after, known⟩, ends, goes⟩

/-! ## Layouts -/

theorem isMark_of_isBlank {c : Char} (blank : isBlank c = true) : isMark c = false := by
  simp only [isMark, Bool.or_eq_false_iff, beq_eq_false_iff_ne]
  refine ⟨⟨⟨⟨?_, ?_⟩, ?_⟩, ?_⟩, ?_⟩ <;> exact ne_of_isBlank blank (by decide)

theorem sound_core (begun : Bool) (parens : Nat) (ls : List Lexeme) :
    sound begun parens (core ls) = sound begun parens ls := by
  rw [← sound_shape begun parens ls, core]
  induction ls.map Lexeme.shape generalizing begun parens with
  | nil => rfl
  | cons l rest ih =>
    by_cases blank : l.isBlank = true
    · rw [List.filter_cons_of_neg (by simp [blank]), ih]
      cases l with
      | char c =>
        have empty : isBlank c = true := blank
        rw [sound_char_cons (isMark_of_isBlank empty), empty]
        simp
      | _ => cases blank
    · rw [List.filter_cons_of_pos (by simpa using blank)]
      cases l with
      | char c =>
        rw [sound, sound]
        simp only [ih]
      | _ => simp only [sound, ih]

theorem marks_core (ls : List Lexeme) : marks (core ls) = marks ls := by
  rw [← marks_shape ls, core]
  induction ls.map Lexeme.shape with
  | nil => rfl
  | cons l rest ih =>
    by_cases blank : l.isBlank = true
    · rw [List.filter_cons_of_neg (by simp [blank]), ih]
      cases l with
      | char c =>
        have empty : isBlank c = true := blank
        simp [marks, Lexeme.mark?, isMark_of_isBlank empty]
      | _ => cases blank
    · rw [List.filter_cons_of_pos (by simpa using blank)]
      simp only [marks, List.filterMap_cons] at ih ⊢
      rw [ih]

/-- A stylesheet has a layout exactly when its lexemes are sound and its braces are in balance. -/
theorem accepted_iff_sound {t : Text} : Accepted t ↔
    sound false 0 (lexemes t) = true ∧ nested 0 (braceMarks (lexemes t)) = true := by
  rw [accepted_iff]
  constructor
  · rintro ⟨none, even⟩
    exact ⟨fault_tokens.mp none, braces_tokensFrom none ▸ even⟩
  · rintro ⟨good, even⟩
    have none := fault_tokens.mpr good
    exact ⟨none, (braces_tokensFrom none).symm ▸ even⟩

/-- Stylesheets of the same words have layouts alike. -/
theorem Accepted.of_words {s t : Text} (accepted : Accepted s)
    (same : Text.words s = Text.words t) : Accepted t := by
  have cores := core_of_words same
  rw [accepted_iff_sound] at accepted ⊢
  rw [braceMarks, ← marks_core, ← sound_core, ← cores, sound_core, marks_core]
  exact accepted

end StaticSite.Stylesheet
