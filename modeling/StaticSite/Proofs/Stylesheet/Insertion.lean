import StaticSite.Proofs.Stylesheet.Composition

/-! # Inserting text at the start of a line

Plain text before a line falls into a comment or a string, whose end it does not change, or it stands
outside. There it is harmless when the line goes on with a statement: it becomes part of the
statement that is pending, or a statement of its own.
-/

namespace StaticSite.Stylesheet

/-! ## Lexemes without what they hold -/

/-- A lexeme without the text of a comment or a string. -/
def Lexeme.shape : Lexeme → Lexeme
  | .comment _ => .comment []
  | .quoted quote _ => .quoted quote []
  | .char c => .char c
  | .openComment _ => .openComment []
  | .openQuoted quote _ => .openQuoted quote []

theorem marks_shape (ls : List Lexeme) : marks (ls.map .shape) = marks ls := by
  rw [marks, List.filterMap_map, marks]
  congr
  funext l
  cases l <;> rfl

theorem sound_shape (begun : Bool) (parens : Nat) (ls : List Lexeme) :
    sound begun parens (ls.map .shape) = sound begun parens ls := by
  fun_induction sound begun parens ls with
  | case1 => rfl
  | _ => simp_all [sound, Lexeme.shape]

theorem shape_inComment (seen other t : Text) :
    (lexemesFrom (.inComment seen) t).map Lexeme.shape =
      (lexemesFrom (.inComment other) t).map Lexeme.shape := by
  by_cases ends : ∃ body rest, CommentBody body ∧ t = body ++ '*' :: '/' :: rest
  · obtain ⟨body, rest, inside, rfl⟩ := ends
    rw [lexemesFrom_inComment_append inside, lexemesFrom_inComment_append inside]
    rfl
  · rw [(lexemesFrom_inComment seen t).resolve_left ends,
      (lexemesFrom_inComment other t).resolve_left ends]
    rfl

theorem shape_inQuoted {quote : Char} (opens : isQuote quote = true) (seen other t : Text) :
    (lexemesFrom (.inQuoted quote seen) t).map Lexeme.shape =
      (lexemesFrom (.inQuoted quote other) t).map Lexeme.shape := by
  by_cases ends : ∃ body rest, QuotedBody quote body ∧ t = body ++ quote :: rest
  · obtain ⟨body, rest, inside, rfl⟩ := ends
    rw [lexemesFrom_inQuoted_append opens inside, lexemesFrom_inQuoted_append opens inside]
    rfl
  · rw [(lexemesFrom_inQuoted quote seen t).resolve_left ends,
      (lexemesFrom_inQuoted quote other t).resolve_left ends]
    rfl

/-! ## Modes at the start of a line -/

theorem Plain.lexemesFrom_inComment_append {word : Text} (plain : Plain word) (seen t : Text) :
    lexemesFrom (.inComment seen) (word ++ t) =
      lexemesFrom (.inComment (word.reverse ++ seen)) t := by
  induction word generalizing seen with
  | nil => rfl
  | cons c rest ih =>
    obtain ⟨here, later⟩ := List.forall_mem_cons.mp plain
    have goesOn : ¬ (c = '*' ∧ (rest ++ t).head? = some '/') := by
      rintro ⟨rfl, -⟩
      exact absurd here (by decide)
    rw [List.cons_append, lexemesFrom_inComment_cons goesOn, ih later]
    simp

theorem Plain.lexemesFrom_inQuoted_append {word : Text} (plain : Plain word) {quote : Char}
    (opens : isQuote quote = true) (seen t : Text) :
    lexemesFrom (.inQuoted quote seen) (word ++ t) =
      lexemesFrom (.inQuoted quote (word.reverse ++ seen)) t := by
  induction word generalizing seen with
  | nil => rfl
  | cons c rest ih =>
    obtain ⟨here, later⟩ := List.forall_mem_cons.mp plain
    have noBackslash : c ≠ '\\' := by
      rintro rfl
      exact absurd here (by decide)
    have other : c ≠ quote := by
      rintro rfl
      rw [isQuote_of_isPlain here] at opens
      cases opens
    rw [List.cons_append, lexemesFrom_inQuoted_cons noBackslash other, ih later]
    simp

/-- A plain character is part of a statement. -/
theorem sound_char_cons {c : Char} (plain : isMark c = false) (begun : Bool) (parens : Nat)
    (ls : List Lexeme) :
    sound begun parens (.char c :: ls) = sound (begun || !isBlank c) parens ls := by
  simp only [isMark, Bool.or_eq_false_iff, beq_eq_false_iff_ne] at plain
  obtain ⟨⟨⟨⟨notOpening, notClosing⟩, notSemicolon⟩, notLeft⟩, notRight⟩ := plain
  simp [sound, parensStep, notOpening, notClosing, notSemicolon, notLeft, notRight]

end StaticSite.Stylesheet
