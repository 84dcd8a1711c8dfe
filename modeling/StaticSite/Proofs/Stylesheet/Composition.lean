import StaticSite.Proofs.Stylesheet.Modes
import StaticSite.Proofs.Stylesheet.Sequence

/-! # Stylesheets from pieces

What a generator writes line by line is settled when each piece of a line is fit for its place: a
value in a declaration holds no brace and closes its parentheses, a prelude holds no end of a
statement besides. Plain text may stand at either end of a piece.
-/

namespace StaticSite.Stylesheet

/-- A text that may stand in a declaration: its comments and strings end, it holds no brace, and it
closes its parentheses. -/
structure Inline (t : Text) : Prop where
  complete : ∀ l ∈ lexemes t, l.isOpen = false
  flat : ∀ m ∈ marks (lexemes t), isBrace m = false
  closed : openAfter 0 t = 0

/-- A text that may stand in a prelude as well, where a semicolon would end the statement. -/
structure Inert (t : Text) : Prop extends Inline t where
  unended : ';' ∉ marks (lexemes t)

instance (t : Text) : Decidable (Inline t) :=
  decidable_of_iff ((∀ l ∈ lexemes t, l.isOpen = false) ∧ (∀ m ∈ marks (lexemes t), isBrace m = false) ∧
      openAfter 0 t = 0)
    ⟨fun all => ⟨all.1, all.2.1, all.2.2⟩, fun piece => ⟨piece.complete, piece.flat, piece.closed⟩⟩

instance (t : Text) : Decidable (Inert t) :=
  decidable_of_iff (Inline t ∧ ';' ∉ marks (lexemes t))
    ⟨fun both => ⟨both.1, both.2⟩, fun piece => ⟨piece.toInline, piece.unended⟩⟩

/-- A prelude: it starts with neither a comment nor nothing. -/
structure Prelude (t : Text) : Prop extends Inert t where
  starts : begins (lexemes t) = true

instance (t : Text) : Decidable (Prelude t) :=
  decidable_of_iff (Inert t ∧ begins (lexemes t) = true)
    ⟨fun both => ⟨both.1, both.2⟩, fun prelude => ⟨prelude.toInert, prelude.starts⟩⟩

theorem Plain.inert {t : Text} (plain : Plain t) : Inert t := by
  refine ⟨⟨?_, ?_, ?_⟩, ?_⟩
  · rw [plain.lexemes_eq]
    intro l member
    obtain ⟨c, -, rfl⟩ := List.mem_map.mp member
    rfl
  · simp [plain.lexemes_eq, plain.marks_eq]
  · rw [openAfter, plain.lexemes_eq, plain.marks_eq]
    rfl
  · simp [plain.lexemes_eq, plain.marks_eq]

/-! ## Pieces side by side -/

theorem Plain.head?_ne {t : Text} (plain : Plain t) : t.head? ≠ some '*' := by
  intro star
  exact absurd (plain '*' (List.mem_of_head? star)) (by decide)

namespace Inline

variable {s t : Text}

theorem lexemes_append (piece : Inline s)
    (apart : ¬ ((lexemes s).getLast? = some (.char '/') ∧ t.head? = some '*')) :
    lexemes (s ++ t) = lexemes s ++ lexemes t := by
  have read := lexemes_append_of_getLast? (lexed_lexemes piece.complete) apart
  rwa [flatMap_text_lexemes] at read

theorem lexemes_append_of_head? (piece : Inline s) (head : t.head? ≠ some '*') :
    lexemes (s ++ t) = lexemes s ++ lexemes t := piece.lexemes_append fun both => head both.2

theorem of_lexemes (first : Inline s) (second : Inline t)
    (read : lexemes (s ++ t) = lexemes s ++ lexemes t) : Inline (s ++ t) := by
  refine ⟨?_, ?_, ?_⟩
  · simpa [read, or_imp, forall_and] using ⟨first.complete, second.complete⟩
  · simpa [read, marks_append, or_imp, forall_and] using ⟨first.flat, second.flat⟩
  · have closed := first.closed
    rw [openAfter] at closed
    rw [openAfter, read, marks_append, parensAfter_append, closed]
    exact second.closed

theorem append (first : Inline s) (second : Inline t)
    (apart : ¬ ((lexemes s).getLast? = some (.char '/') ∧ t.head? = some '*')) :
    Inline (s ++ t) :=
  first.of_lexemes second (first.lexemes_append apart)

theorem append_plain (piece : Inline s) (plain : Plain t) : Inline (s ++ t) :=
  piece.append plain.inert.toInline fun both => plain.head?_ne both.2

theorem plain_append (plain : Plain s) (piece : Inline t) : Inline (s ++ t) := by
  refine plain.inert.toInline.of_lexemes piece ?_
  rw [plain.lexemes_append, plain.lexemes_eq]

theorem nil : Inline [] := Plain.nil.inert.toInline

/-- Pieces in a row, with a piece between them that ends and starts no comment, are one piece. -/
theorem joinWith {separator : Text} (between : Inline separator)
    (head : ∀ t, (separator ++ t).head? ≠ some '*')
    (last : (lexemes separator).getLast? ≠ some (.char '/')) {pieces : List Text}
    (each : ∀ p ∈ pieces, Inline p) : Inline (Text.joinWith separator pieces) := by
  induction pieces with
  | nil => exact nil
  | cons first rest ih =>
    obtain ⟨here, others⟩ := List.forall_mem_cons.mp each
    cases rest with
    | nil => exact here
    | cons second more =>
      rw [Text.joinWith, List.append_assoc]
      case x_1 => simp
      exact here.append (between.append (ih others) fun both => last both.1)
        fun both => head _ both.2

end Inline

namespace Inert

variable {s t : Text}

theorem append_plain (piece : Inert s) (plain : Plain t) : Inert (s ++ t) := by
  refine ⟨piece.toInline.append_plain plain, ?_⟩
  rw [piece.lexemes_append_of_head? plain.head?_ne, marks_append, plain.lexemes_eq, plain.marks_eq,
    List.append_nil]
  exact piece.unended

theorem plain_append (plain : Plain s) (piece : Inert t) : Inert (s ++ t) := by
  refine ⟨.plain_append plain piece.toInline, ?_⟩
  rw [plain.lexemes_append, marks_append, plain.marks_eq]
  exact piece.unended

end Inert

/-- Characters that are not all blank begin a statement. -/
theorem begins_chars {t : Text} (visible : ∃ c ∈ t, isBlank c = false) :
    begins (t.map .char) = true := by
  induction t with
  | nil => simp at visible
  | cons c rest ih =>
    rw [List.map_cons, begins]
    split
    · next blank =>
      rw [List.exists_mem_cons_iff] at visible
      refine ih (visible.resolve_left ?_)
      simpa [Lexeme.isBlank] using blank
    · rfl

namespace Prelude

variable {s t : Text}

theorem append_plain (prelude : Prelude s) (plain : Plain t) : Prelude (s ++ t) := by
  refine ⟨prelude.toInert.append_plain plain, ?_⟩
  rw [prelude.lexemes_append_of_head? plain.head?_ne,
    begins_append _ (exists_visible_of_begins prelude.starts)]
  exact prelude.starts

/-- A prelude that starts with plain text which is not blank. -/
theorem of_plain (plain : Plain s) (visible : ∃ c ∈ s, isBlank c = false) (piece : Inert t) :
    Prelude (s ++ t) := by
  have starts := begins_chars visible
  refine ⟨.plain_append plain piece, ?_⟩
  rwa [plain.lexemes_append, begins_append _ (exists_visible_of_begins starts)]

theorem plain_append (plain : Plain s) (prelude : Prelude t) : Prelude (s ++ t) := by
  by_cases visible : ∃ c ∈ s, isBlank c = false
  · exact of_plain plain visible prelude.toInert
  · refine ⟨.plain_append plain prelude.toInert, ?_⟩
    rw [plain.lexemes_append, begins_blanks]
    · exact prelude.starts
    · simpa [Lexeme.isBlank] using visible

end Prelude

/-! ## Ends of statements -/

theorem lexemes_singleton {c : Char} (noQuote : isQuote c = false) : lexemes [c] = [.char c] := by
  rw [lexemes, lexemesFrom_outside_cons (by simp) noQuote, lexemesFrom]

/-- A character that is no brace among the marks is no brace. -/
theorem isBrace_of_marks {c : Char} (flat : ∀ m ∈ marks [.char c], isBrace m = false) :
    c ≠ '\x7b' ∧ c ≠ '\x7d' := by
  constructor
  · rintro rfl
    exact absurd (flat '\x7b' (by decide)) (by decide)
  · rintro rfl
    exact absurd (flat '\x7d' (by decide)) (by decide)

/-- Lexemes without braces are read without a fault before anything that ends every statement. -/
theorem sound_append {ls : List Lexeme} (complete : ∀ l ∈ ls, l.isOpen = false)
    (flat : ∀ m ∈ marks ls, isBrace m = false) {parens : Nat} {rest : List Lexeme}
    (ends : ∀ begun, sound begun (parensAfter parens (marks ls)) rest = true) (begun : Bool) :
    sound begun parens (ls ++ rest) = true := by
  induction ls generalizing begun parens with
  | nil => exact ends begun
  | cons l more ih =>
    obtain ⟨whole, others⟩ := List.forall_mem_cons.mp complete
    rw [marks_cons, List.forall_mem_append] at flat
    cases l with
    | char c =>
      obtain ⟨notOpening, notClosing⟩ := isBrace_of_marks flat.1
      rw [parensAfter_char_cons] at ends
      rw [List.cons_append, sound, if_neg notOpening, if_neg notClosing]
      split
      · next semicolon =>
        have same : parensStep parens c = parens := by simp [parensStep, semicolon.1]
        rw [same] at ends
        exact ih others flat.2 ends false
      · exact ih others flat.2 ends _
    | comment body => exact ih others flat.2 ends begun
    | quoted quote body => exact ih others flat.2 ends true
    | openComment body => simp [Lexeme.isOpen] at whole
    | openQuoted quote body => simp [Lexeme.isOpen] at whole

theorem braceMarks_of_flat {ls : List Lexeme} (flat : ∀ m ∈ marks ls, isBrace m = false) :
    braceMarks ls = [] := by
  rw [braceMarks, List.filter_eq_nil_iff]
  simpa using flat

/-- A piece and the mark behind it that ends the last statement. -/
theorem Inline.append_mark {t : Text} (piece : Inline t) {mark : Char}
    (ends : mark = ';' ∨ mark = '\x7d') :
    Settled (t ++ [mark]) ∧ braces (items (t ++ [mark])) = [mark].filter isBrace := by
  have read : lexemes (t ++ [mark]) = lexemes t ++ [.char mark] := by
    rw [piece.lexemes_append_of_head?, lexemes_singleton]
    · rcases ends with rfl | rfl <;> rfl
    · rcases ends with rfl | rfl <;> decide
  have closed := piece.closed
  rw [openAfter] at closed
  have good : sound false 0 (lexemes (t ++ [mark])) = true := by
    rw [read]
    refine sound_append piece.complete piece.flat (fun begun => ?_) false
    rw [closed]
    rcases ends with rfl | rfl <;> rfl
  have faultless := fault_tokens.mpr good
  refine ⟨⟨faultless, ?_⟩, ?_⟩
  · rw [openAfter, read, marks_append, parensAfter_append, closed]
    rcases ends with rfl | rfl <;> rfl
  · rw [items, tokens, braces_tokensFrom faultless, read, braceMarks_append,
      braceMarks_of_flat piece.flat]
    rcases ends with rfl | rfl <;> rfl

/-- A declaration with a semicolon stands on its own. -/
theorem Inline.standalone {t : Text} (piece : Inline t) : Standalone (t ++ [';']) := by
  obtain ⟨settled, none⟩ := piece.append_mark (.inl rfl)
  refine standalone_iff.mpr ⟨settled, ?_⟩
  rw [none]
  rfl

theorem within_of_forall {ms : Text} (goesOn : ∀ m ∈ ms, isBrace m = false ∧ m ≠ ';')
    (parens : Nat) : Within parens ms := by
  induction ms generalizing parens with
  | nil => trivial
  | cons m rest ih =>
    obtain ⟨⟨noBrace, noEnd⟩, others⟩ := List.forall_mem_cons.mp goesOn
    refine ⟨?_, ih others _⟩
    simp only [isBrace, Bool.or_eq_false_iff] at noBrace
    simp [endsStatement, noBrace, noEnd]

/-- A prelude and the brace behind it. -/
theorem Prelude.append_opening {t : Text} (prelude : Prelude t) :
    Settled (t ++ ['\x7b']) ∧
      items (t ++ ['\x7b']) = [.opening (phrase (lexemes t))] := by
  have read : lexemes (t ++ ['\x7b']) = lexemes t ++ [.char '\x7b'] := by
    rw [prelude.lexemes_append_of_head? (by decide), lexemes_singleton rfl]
  have within : Within 0 (marks (lexemes t)) := by
    refine within_of_forall (fun m member => ⟨prelude.flat m member, ?_⟩) 0
    rintro rfl
    exact prelude.unended member
  have some : phrase (lexemes t) ≠ [] :=
    phrase_ne_nil (lexed_lexemes prelude.complete)
      (by simpa using exists_visible_of_begins prelude.starts)
  have none : ∀ l ∈ ([] : List Lexeme), l.isBlank = true := by simp
  have collected :=
    tokensFrom_statement none prelude.starts prelude.complete within [.char '\x7b']
  have made : tokens (t ++ ['\x7b']) = ⟨[.opening (phrase (lexemes t))], .none⟩ := by
    rw [tokens, read, collected, tokensFrom, if_pos rfl]
    simp [some, tokensFrom, Tokens.cons]
  refine ⟨⟨by rw [made], ?_⟩, by rw [items, made]⟩
  have closed := prelude.closed
  rw [openAfter] at closed
  rw [openAfter, read, marks_append, parensAfter_append, closed]
  rfl

/-! ## Comments -/

theorem commentBody_of_plain {body : Text} (plain : Plain body) : CommentBody body := by
  induction body with
  | nil => trivial
  | cons c rest ih =>
    obtain ⟨here, later⟩ := List.forall_mem_cons.mp plain
    rw [CommentBody]
    · exact ih later
    · rintro more rfl -
      exact absurd here (by decide)

/-- A comment with plain text in it. -/
theorem Plain.comment {body : Text} (plain : Plain body) :
    Settled (Lexeme.comment body).text ∧
      items (Lexeme.comment body).text = [.comment (Lexeme.comment body).text] := by
  have whole : (Lexeme.comment body).Whole := commentBody_of_plain plain
  have read : lexemes (Lexeme.comment body).text = [.comment body] := by
    have again := @lexemes_flatMap_text [.comment body] ⟨by simpa using whole, .singleton _⟩
    simpa using again
  have made : tokens (Lexeme.comment body).text = ⟨[.comment (Lexeme.comment body).text], none⟩ := by
    rw [tokens, read]
    rfl
  refine ⟨⟨by rw [made], ?_⟩, by rw [items, made]⟩
  rw [openAfter, read]
  rfl

/-! ## Values -/

/-- A block around a declaration with a value. -/
def wrapped (value : Text) : Text := "a\x7bp:" ++ value ++ ['\x7d']

/-- A value that stays in its block: with a property in front and a block around, it is read as one
block and leaves no parenthesis open. -/
structure Fits (value : Text) : Prop where
  faultless : (tokens (wrapped value)).fault = none
  one : braces (items (wrapped value)) = ['\x7b', '\x7d']
  closed : openAfter 0 (wrapped value) = 0

instance (value : Text) : Decidable (Fits value) :=
  decidable_of_iff ((tokens (wrapped value)).fault = none ∧
      braces (items (wrapped value)) = ['\x7b', '\x7d'] ∧ openAfter 0 (wrapped value) = 0)
    ⟨fun all => ⟨all.1, all.2.1, all.2.2⟩, fun fits => ⟨fits.faultless, fits.one, fits.closed⟩⟩

/-- A value that is read as one declaration fits. -/
theorem fits_of_tokens {value declaration : Text}
    (read : tokens (wrapped value) = ⟨[.opening ['a'], .declaration declaration, .closing], none⟩)
    (closed : openAfter 0 (wrapped value) = 0) : Fits value := by
  refine ⟨by rw [read], ?_, closed⟩
  rw [items, read]
  rfl

/-- What ends before a closing brace ends without it. -/
theorem lexemesFrom_append_closing {mode : Mode} (valid : mode.Valid) {t : Text}
    (complete : ∀ l ∈ lexemesFrom mode (t ++ ['\x7d']), l.isOpen = false) :
    lexemesFrom mode (t ++ ['\x7d']) = lexemesFrom mode t ++ [.char '\x7d'] := by
  obtain ⟨ls, after, held, there⟩ := exists_reaches valid t
  rw [there.read, List.forall_mem_append] at complete
  rw [there.read, there.alone, List.append_assoc]
  refine congrArg (ls ++ ·) ?_
  obtain ⟨-, rest⟩ := complete
  -- Where a comment or a string were open in front of the brace, it would be open behind it.
  cases there.holds with
  | nothing =>
    cases after with
    | outside => rfl
    | inComment seen => simp [lexemesFrom, Lexeme.isOpen] at rest
    | inQuoted quote seen =>
      have other : '\x7d' ≠ quote := (there.valid.quote_ne rfl).symm
      simp [lexemesFrom, other, Lexeme.isOpen] at rest
  | slash => rfl
  | star seen => simp [lexemesFrom, Lexeme.isOpen] at rest
  | backslash quote seen => simp [lexemesFrom, Lexeme.isOpen] at rest

/-- The lexemes of a value that fits stand between those of the block around it. -/
theorem Fits.lexemes_wrapped {value : Text} (fits : Fits value) :
    lexemes (wrapped value) = [.char 'a', .char '\x7b', .char 'p', .char ':'] ++
      (lexemes value ++ [.char '\x7d']) := by
  have complete := isOpen_of_fault fits.faultless
  have start : lexemes (wrapped value) =
      [.char 'a', .char '\x7b', .char 'p', .char ':'] ++ lexemes (value ++ ['\x7d']) := by
    simp [wrapped, lexemes, lexemesFrom, isQuote]
  rw [start, List.forall_mem_append] at complete
  rw [start, lexemes, @lexemesFrom_append_closing .outside trivial value complete.2]
  rfl

/-- A value that fits may stand in any declaration. -/
theorem Fits.inline {value : Text} (fits : Fits value) : Inline value := by
  have read := fits.lexemes_wrapped
  have whole := isOpen_of_fault fits.faultless
  rw [read, List.forall_mem_append, List.forall_mem_append] at whole
  have one := fits.one
  rw [items, tokens, braces_tokensFrom fits.faultless, read, braceMarks_append,
    braceMarks_append] at one
  have none : braceMarks (lexemes value) = [] := by
    change ['\x7b'] ++ (braceMarks (lexemes value) ++ ['\x7d']) = _ at one
    simpa using one
  have closed := fits.closed
  rw [openAfter, read, marks_append, marks_append, parensAfter_append, parensAfter_append] at closed
  refine ⟨whole.2.1, ?_, closed⟩
  rw [braceMarks, List.filter_eq_nil_iff] at none
  simpa using none

end StaticSite.Stylesheet
