import StaticSite.Proofs.Stylesheet.Modes
import StaticSite.Proofs.Stylesheet.Rereading
import StaticSite.Proofs.Stylesheet.Soundness

/-! # Lines of a stylesheet

A text is written in rows that leave no comment and no string open and have no newline among their
characters; only comments and strings in them may go on over several lines. So a line of the text
that begins outside comments and strings is the first line of a row, and the rows above it make up
the text above it.
-/

namespace StaticSite.Stylesheet

/-- Whether every comment and every string of a text ends in it. -/
def Complete (t : Text) : Prop := ∀ l ∈ lexemes t, l.isOpen = false

/-- Whether a line starts behind a text. -/
def StartsLine (above : Text) : Prop := above = [] ∨ above.getLast? = some '\n'

/-- A line of a text, with what stands above it and below it. -/
structure LineAt (t above line below : Text) : Prop where
  split : t = above ++ (line ++ '\n' :: below)
  single : '\n' ∉ line
  starts : StartsLine above

/-- A text that is written in a row: a newline stands in its comments and strings only. -/
structure IsRow (row : Text) : Prop where
  complete : Complete row
  unbroken : .char '\n' ∉ lexemes row

/-! ## Beginnings -/

/-- What a reader holds at the end of a text is a comment or a string without an end, or the slash
that a comment begins with. -/
theorem Held.isOpen_or_slash {mode : Mode} (valid : mode.Valid) {held : Text}
    (holds : Held mode held) : ∀ m ∈ lexemesFrom mode held, m.isOpen = true ∨ m = .char '/' := by
  cases holds with
  | nothing => cases mode <;> simp [lexemesFrom, Lexeme.isOpen]
  | slash => simp [lexemesFrom, isQuote]
  | star seen => simp [lexemesFrom, Lexeme.isOpen]
  | backslash quote seen =>
    have other : '\\' ≠ quote := (valid.quote_ne rfl).symm
    simp [lexemesFrom, other, Lexeme.isOpen]

/-- A text that begins lexemes is read as some of them, with a part of the next one behind them. -/
theorem exists_lexemes_of_prefix {ls : List Lexeme} (lexed : Lexed ls) {p : Text}
    (begins : p <+: ls.flatMap Lexeme.text) :
    ∃ whole part, lexemes p = whole ++ part ∧ whole <+: ls ∧
      ∀ m ∈ part, m.isOpen = true ∨ m = .char '/' := by
  obtain ⟨s, split⟩ := begins
  obtain ⟨whole, after, held, there⟩ := @exists_reaches .outside trivial p
  have all := there.read s
  rw [split] at all
  have start : whole <+: ls := ⟨_, all.symm.trans (lexemes_flatMap_text lexed)⟩
  exact ⟨whole, _, there.alone, start, there.holds.isOpen_or_slash there.valid⟩

/-- The marks of a text that begins lexemes begin their marks. -/
theorem marks_lexemes_start {ls : List Lexeme} (lexed : Lexed ls) {p : Text}
    (begins : p <+: ls.flatMap Lexeme.text) : marks (lexemes p) <+: marks ls := by
  obtain ⟨whole, part, read, start, ends⟩ := exists_lexemes_of_prefix lexed begins
  have none : marks part = [] := by
    refine List.filterMap_eq_nil_iff.mpr fun m member => ?_
    rcases ends m member with endless | rfl
    · cases m with
      | openComment body => rfl
      | openQuoted quote body => rfl
      | _ => cases endless
    · rfl
  rw [read, marks_append, none, List.append_nil]
  exact start.filterMap _

/-- Where a newline is no lexeme, no text ends with one. -/
theorem getLast?_text_ne_newline {ls : List Lexeme} (whole : ∀ l ∈ ls, l.Whole)
    (unbroken : .char '\n' ∉ ls) : (ls.flatMap Lexeme.text).getLast? ≠ some '\n' := by
  cases ls using List.reverseRecOn with
  | nil => simp
  | append_singleton rest l =>
    obtain ⟨-, final, middle, -, text, -, visible⟩ := (whole l (by simp)).text_ends
    intro newline
    obtain rfl : final = '\n' := by simpa [text] using newline
    obtain ⟨c, rfl, -⟩ := Lexeme.eq_char_of_isBlank (visible.symm.trans (by decide : isBlank '\n' = true))
    obtain ⟨rfl⟩ : c = '\n' := by simpa [Lexeme.text] using congrArg List.getLast? text
    exact unbroken (by simp)

/-! ## Rows -/

theorem IsRow.lexed {row : Text} (isRow : IsRow row) : Lexed (lexemes row) :=
  lexed_lexemes isRow.complete

theorem IsRow.getLast? {row : Text} (isRow : IsRow row) : row.getLast? ≠ some '\n' := by
  have last := getLast?_text_ne_newline isRow.lexed.1 isRow.unbroken
  rwa [flatMap_text_lexemes] at last

theorem lexemes_written_append {rows : List Text} (isRow : ∀ row ∈ rows, IsRow row) (t : Text) :
    lexemes (written rows ++ t) = lexemes (written rows) ++ lexemes t := by
  induction rows with
  | nil => simp [written, lexemes, lexemesFrom]
  | cons row rest ih =>
    obtain ⟨here, later⟩ := List.forall_mem_cons.mp isRow
    rw [written_cons, List.append_assoc, List.cons_append, lexemes_written_cons here.complete,
      lexemes_written_cons here.complete, ih later,
      List.append_assoc]
    rfl

/-- No line that begins outside comments and strings begins in a row. -/
theorem IsRow.not_startsLine {row above : Text} (isRow : IsRow row) (begins : above <+: row)
    (some : above ≠ []) (closed : Complete above) : ¬ StartsLine above := by
  rintro (none | newline)
  · exact some none
  · rw [← flatMap_text_lexemes row] at begins
    obtain ⟨whole, part, read, start, ends⟩ := exists_lexemes_of_prefix isRow.lexed begins
    have lexed := isRow.lexed.within start.isInfix
    have text := flatMap_text_lexemes above
    rw [read, List.flatMap_append] at text
    cases part using List.reverseRecOn with
    | nil =>
      rw [List.flatMap_nil, List.append_nil] at text
      refine getLast?_text_ne_newline lexed.1 (fun member => isRow.unbroken (start.subset member)) ?_
      rw [text, newline]
    | append_singleton front m =>
      rcases ends m (by simp) with endless | rfl
      · have whole := closed m (by simp [read])
        rw [endless] at whole
        cases whole
      · rw [← text] at newline
        simp [Lexeme.text] at newline

/-- A line that begins outside comments and strings is where a row begins. -/
theorem LineAt.exists_row {rows : List Text} (isRow : ∀ row ∈ rows, IsRow row)
    {above line below : Text} (line : LineAt (written rows) above line below) (closed : Complete above) :
    ∃ up row down, rows = up ++ row :: down ∧ above = written up := by
  induction rows generalizing above with
  | nil =>
    have split := line.split
    simp [written] at split
  | cons row rest ih =>
    obtain ⟨here, later⟩ := List.forall_mem_cons.mp isRow
    by_cases none : above = []
    · exact ⟨[], row, rest, rfl, none⟩
    · have split := line.split
      rw [written_cons] at split
      rcases List.append_eq_append_iff.mp split with ⟨behind, text, more⟩ | ⟨others, text, -⟩
      · cases behind with
        | nil =>
          rw [List.append_nil] at text
          exact absurd line.starts (here.not_startsLine ⟨[], by simp [text]⟩ none closed)
        | cons c inner =>
          obtain ⟨rfl, others⟩ := List.cons.inj more
          have read := lexemes_written_cons here.complete inner
          rw [← text] at read
          have starts : StartsLine inner := by
            rcases line.starts with nothing | newline
            · exact absurd nothing none
            · by_cases empty : inner = []
              · exact .inl empty
              · rw [text, List.getLast?_append_of_ne_nil _ (by simp), List.getLast?_cons_of_ne_nil empty]
                  at newline
                exact .inr newline
          obtain ⟨up, own, down, rfl, rfl⟩ := ih later ⟨others, line.single, starts⟩
            fun l member => closed l (by simp [read, member])
          refine ⟨row :: up, own, down, rfl, ?_⟩
          rw [text, written_cons]
      · exact absurd line.starts (here.not_startsLine ⟨others, text.symm⟩ none closed)

/-! ## Lines of rows -/

/-- The first line of a text. -/
def firstLine (t : Text) : Text := t.takeWhile (· != '\n')

theorem firstLine_append {s : Text} (single : '\n' ∉ s) (t : Text) :
    firstLine (s ++ t) = s ++ firstLine t := by
  refine List.takeWhile_append_of_pos fun c member => ?_
  rw [bne_iff_ne]
  rintro rfl
  exact single member

theorem firstLine_of_single {t : Text} (single : '\n' ∉ t) : firstLine t = t := by
  simpa [firstLine] using firstLine_append single []

theorem not_mem_firstLine (t : Text) : '\n' ∉ firstLine t := by
  intro member
  have other := List.mem_takeWhile_imp member
  simp at other

/-- A text that goes on behind a newline goes on behind its first line. -/
theorem exists_firstLine (t more : Text) :
    ∃ below, t ++ '\n' :: more = firstLine t ++ '\n' :: below := by
  induction t with
  | nil => exact ⟨more, rfl⟩
  | cons c rest ih =>
    by_cases newline : c = '\n'
    · subst newline
      exact ⟨rest ++ '\n' :: more, rfl⟩
    · obtain ⟨below, split⟩ := ih
      have single : '\n' ∉ [c] := by simpa using Ne.symm newline
      refine ⟨below, ?_⟩
      rw [← List.singleton_append, firstLine_append single, List.append_assoc, split,
        List.append_assoc]

theorem startsLine_written (rows : List Text) : StartsLine (written rows) := by
  cases rows using List.reverseRecOn with
  | nil => exact .inl rfl
  | append_singleton front row => exact .inr (by simp [written])

/-- In every row a line begins. -/
theorem exists_lineAt (up : List Text) (row : Text) (down : List Text) :
    ∃ below, LineAt (written (up ++ row :: down)) (written up) (firstLine row) below := by
  obtain ⟨below, split⟩ := exists_firstLine row (written down)
  refine ⟨below, ?_, not_mem_firstLine row, startsLine_written up⟩
  rw [written_append, written_cons, split]

theorem LineAt.eq_firstLine {up down : List Text} {row line below : Text}
    (lineAt : LineAt (written (up ++ row :: down)) (written up) line below) : line = firstLine row := by
  obtain ⟨rest, split⟩ := exists_firstLine row (written down)
  have same := lineAt.split
  rw [written_append, List.append_cancel_left_eq, written_cons, split] at same
  have cut := congrArg firstLine same
  rw [firstLine_append (not_mem_firstLine row), firstLine_append lineAt.single] at cut
  simpa [firstLine] using cut.symm

theorem complete_written {rows : List Text} (isRow : ∀ row ∈ rows, IsRow row) :
    Complete (written rows) := by
  induction rows with
  | nil => simp [Complete, written, lexemes, lexemesFrom]
  | cons row rest ih =>
    obtain ⟨here, later⟩ := List.forall_mem_cons.mp isRow
    rw [Complete, written_cons, lexemes_written_cons here.complete]
    exact List.forall_mem_append.mpr ⟨here.complete, List.forall_mem_cons.mpr ⟨rfl, ih later⟩⟩

end StaticSite.Stylesheet
