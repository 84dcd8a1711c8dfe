import StaticSite.Proofs.Result
import StaticSite.Proofs.Stylesheet.Declaration
import StaticSite.Proofs.Stylesheet.Reading
import StaticSite.Proofs.Stylesheet.Selectors

/-! # Reading a layout

The lines of readable tokens are read as the same tokens, tidied. Only a declaration that leaves a
parenthesis open is read with the semicolon that is written behind it, which ends no statement there.
-/

namespace StaticSite.Stylesheet

/-- A token whose text is as it is written. -/
def Token.tidied : Token → Token
  | .opening start => .opening (tidiedPrelude start)
  | .declaration t => .declaration (tidiedDeclaration t)
  | .closing => .closing
  | .comment t => .comment t

/-- A token as it is read back where some parentheses are open. -/
def Token.reread (parens : Nat) : Token → Token
  | .declaration t =>
      .declaration (if openAfter parens t = 0 then tidiedDeclaration t else declarationText t)
  | token => token.tidied

/-- Tokens as they are read back. -/
def reread (parens : Nat) : List Token → List Token
  | [] => []
  | token :: rest => token.reread parens :: reread (token.parensBehind parens) rest

/-- Tokens that close their parentheses are read back tidied. -/
theorem reread_of_unclosed {parens : Nat} {ts : List Token} (closed : unclosed parens ts = 0) :
    reread parens ts = ts.map Token.tidied := by
  induction ts generalizing parens with
  | nil => rfl
  | cons token rest ih =>
    cases token with
    | declaration t =>
      obtain ⟨here, later⟩ := Nat.add_eq_zero_iff.mp closed
      have zero : openAfter parens t = 0 := by
        by_contra left
        simp [left] at here
      rw [reread, List.map_cons, Token.parensBehind, ih later, Token.reread, if_pos zero]
      rfl
    | _ => rw [reread, List.map_cons, ih closed]; rfl

/-! ## Lines -/

/-- A line is read on its own. -/
theorem lexemes_line {ls : List Lexeme} (lexed : Lexed ls) (rest : Text) :
    lexemes (ls.flatMap Lexeme.text ++ '\n' :: rest) = ls ++ .char '\n' :: lexemes rest := by
  rw [lexemes_append lexed (by simp), lexemes, lexemesFrom_outside_cons (by simp) rfl]
  rfl

theorem lexemes_written_cons {line : Text} (complete : ∀ l ∈ lexemes line, l.isOpen = false)
    (rest : Text) : lexemes (line ++ '\n' :: rest) = lexemes line ++ .char '\n' :: lexemes rest := by
  have read := lexemes_line (lexed_lexemes complete) rest
  rwa [flatMap_text_lexemes] at read

theorem tokensFrom_newline (pending : List Lexeme) (parens : Nat) (rest : List Lexeme) :
    tokensFrom pending parens (.char '\n' :: rest) =
      tokensFrom (.char '\n' :: pending) parens rest :=
  tokensFrom_blanks [.char '\n'] (by simp; rfl) pending parens rest

/-- Blanks behind the pending lexemes make no difference to the statement they make up. -/
theorem Tokens.consDeclaration_append {bs : List Lexeme} (blanks : ∀ b ∈ bs, b.isBlank = true)
    (pending : List Lexeme) (rest : Tokens) :
    rest.consDeclaration (bs ++ pending) = rest.consDeclaration pending := by
  have turned : ∀ b ∈ bs.reverse, b.isBlank = true := by simpa using blanks
  have same := phrase_append_blanks turned pending.reverse
  rw [consDeclaration, consDeclaration, List.all_append, List.all_eq_true.mpr blanks,
    Bool.true_and, List.reverse_append, same]

section Lines

variable {pending : List Lexeme} (blank : ∀ l ∈ pending, l.isBlank = true) {parens : Nat}
variable (style : Style) (depth : Nat) (above : Above) (rest : Text)

/-- A closing brace on its line ends the pending statement and the block. -/
theorem tokensFrom_closingLine (pending : List Lexeme) :
    tokensFrom pending parens (lexemes (written [style.indent depth ++ ['\x7d']] ++ rest)) =
      ((tokensFrom [.char '\n'] parens (lexemes rest)).cons .closing).consDeclaration pending := by
  have lexed : Lexed (indentLexemes style depth ++ [.char '\x7d']) :=
    lexed_blanks_append (fun _ => isBlank_of_mem_indentLexemes) (lexed_singleton rfl)
  have line := lexemes_line lexed rest
  rw [List.flatMap_append, flatMap_text_indentLexemes] at line
  have text : written [style.indent depth ++ ['\x7d']] ++ rest =
      style.indent depth ++ [Lexeme.char '\x7d'].flatMap Lexeme.text ++ '\n' :: rest := by
    simp [written, Lexeme.text]
  rw [text, line, List.append_assoc, tokensFrom_blanks _ fun _ => isBlank_of_mem_indentLexemes,
    List.singleton_append, tokensFrom, if_neg (by decide), if_pos rfl, tokensFrom_newline,
    Tokens.consDeclaration_append]
  simpa using fun _ => isBlank_of_mem_indentLexemes

include blank

/-- What stands before the text of a token is read as blanks. -/
theorem exists_pending (parens : Nat) {xs : List Lexeme} (lexed : Lexed xs) :
    ∃ front : List Lexeme, (∀ l ∈ front, l.isBlank = true) ∧
      tokensFrom pending parens (lexemes (written (gap depth above) ++ style.indent depth ++
        xs.flatMap Lexeme.text ++ '\n' :: rest)) =
      tokensFrom front parens (xs ++ .char '\n' :: lexemes rest) := by
  obtain ⟨front, blanks, text⟩ : ∃ front : List Lexeme, (∀ l ∈ front, l.isBlank = true) ∧
      front.flatMap Lexeme.text = written (gap depth above) ++ style.indent depth := by
    by_cases empty : depth = 0 ∧ above = .statement
    · refine ⟨.char '\n' :: indentLexemes style depth, ?_, ?_⟩
      · exact List.forall_mem_cons.mpr ⟨rfl, fun _ => isBlank_of_mem_indentLexemes⟩
      · rw [List.flatMap_cons, flatMap_text_indentLexemes, gap, if_pos empty]
        rfl
    · refine ⟨indentLexemes style depth, fun _ => isBlank_of_mem_indentLexemes, ?_⟩
      rw [flatMap_text_indentLexemes, gap, if_neg empty]
      rfl
  refine ⟨front.reverse ++ pending, ?_, ?_⟩
  · intro l member
    rcases List.mem_append.mp member with inside | before
    · exact blanks l (List.mem_reverse.mp inside)
    · exact blank l before
  · have line := lexemes_line (lexed_blanks_append blanks lexed) rest
    rw [List.flatMap_append, text] at line
    rw [line, List.append_assoc, tokensFrom_blanks _ blanks]

theorem tokensFrom_commentLine {body : Text} (inside : CommentBody body) :
    tokensFrom pending parens (lexemes (written (gap depth above ++
        [style.indent depth ++ (Lexeme.comment body).text]) ++ rest)) =
      (tokensFrom [.char '\n'] parens (lexemes rest)).cons
        (.comment (Lexeme.comment body).text) := by
  obtain ⟨front, blanks, read⟩ := exists_pending blank style depth above rest parens
    (lexed_singleton inside : Lexed [.comment body])
  have line : written (gap depth above ++ [style.indent depth ++ (Lexeme.comment body).text]) ++
      rest = written (gap depth above) ++ style.indent depth ++
        [Lexeme.comment body].flatMap Lexeme.text ++ '\n' :: rest := by
    simp [written]
  rw [line, read, List.singleton_append, tokensFrom, if_pos (by simpa using blanks),
    tokensFrom_newline]

/-- The lines that open a block are read as the tidied prelude. -/
theorem tokensFrom_openingLines {start : Text} (statement : Statement parens start) :
    tokensFrom pending parens (lexemes (written (gap depth above ++
        openingLines style depth start) ++ rest)) =
      (tokensFrom [.char '\n'] (openAfter parens start) (lexemes rest)).cons
        (.opening (tidiedPrelude start)) := by
  obtain ⟨xs, lexed, starts, same, tidied, lines⟩ :=
    exists_openingLines statement.phrasal statement.last style depth
  rw [flatMap_text_lexemes] at tidied lines
  have ended : Lexed (xs ++ [.char ' ', .char '\x7b']) :=
    lexed_append_of_head? lexed (lexed_cons.mpr ⟨rfl, by simp [Lexeme.Apart],
      lexed_singleton rfl⟩) (by simp)
  obtain ⟨front, blanks, read⟩ := exists_pending blank style depth above rest parens ended
  have line : written (gap depth above ++ openingLines style depth start) ++ rest =
      written (gap depth above) ++ style.indent depth ++
        (xs ++ [Lexeme.char ' ', Lexeme.char '\x7b']).flatMap Lexeme.text ++ '\n' :: rest := by
    rw [written_append, lines]
    simp [Lexeme.text, blockStart]
  have inside : Within parens (marks xs) := same ▸ statement.inside
  have phrase : phrase ([Lexeme.char ' '] ++ (xs.reverse ++ front)).reverse = tidiedPrelude start := by
    have turned : ∀ l ∈ front.reverse, l.isBlank = true := by simpa using blanks
    have space : ∀ l ∈ [Lexeme.char ' '], l.isBlank = true := by simp
    have padded := phrase_append_blanks space (front.reverse ++ xs)
    rw [phrase_blanks_append turned, tidied] at padded
    simpa using padded
  have some : tidiedPrelude start ≠ [] := by
    intro none
    have read := lexemes_phrase lexed
    have begun := begins_tightened starts
    rw [← read, tidied, none] at begun
    simp [lexemes, lexemesFrom, begins] at begun
  rw [line, read, List.append_assoc, tokensFrom_statement blanks starts
      (fun l member => (lexed.1 l member).isOpen) inside]
  have step := tokensFrom_blanks [.char ' '] (by simp) (xs.reverse ++ front)
    (parensAfter parens (marks xs)) (.char '\x7b' :: .char '\n' :: lexemes rest)
  refine step.trans ?_
  rw [List.reverse_singleton, tokensFrom, if_pos rfl, phrase, tokensFrom_newline]
  simp only [List.isEmpty_eq_false_iff.mpr some, same]
  rfl

section Declarations

variable {t : Text} (statement : Statement parens t)
include statement

/-- The line of a declaration is read up to its semicolon. -/
theorem exists_declarationLine :
    ∃ (front ms : List Lexeme), (∀ l ∈ front, l.isBlank = true) ∧ Phrasal ms ∧
      declarationText t = ms.flatMap Lexeme.text ++ [';'] ∧
      tidiedDeclaration t = (trimmed ms).flatMap Lexeme.text ∧
      tokensFrom pending parens (lexemes (written (gap depth above ++
        [style.indent depth ++ declarationText t]) ++ rest)) =
      tokensFrom (ms.reverse ++ front) (openAfter parens t)
        (.char ';' :: .char '\n' :: lexemes rest) := by
  obtain ⟨ms, phrasal, same, text, tidied⟩ :=
    exists_declarationText statement.phrasal statement.last
  rw [flatMap_text_lexemes] at text tidied
  have ended : Lexed (ms ++ [.char ';']) :=
    lexed_append_of_head? phrasal.lexed (lexed_singleton rfl) (by simp)
  obtain ⟨front, blanks, read⟩ := exists_pending blank style depth above rest parens ended
  have line : written (gap depth above ++ [style.indent depth ++ declarationText t]) ++ rest =
      written (gap depth above) ++ style.indent depth ++
        (ms ++ [Lexeme.char ';']).flatMap Lexeme.text ++ '\n' :: rest := by
    rw [text]
    simp [written, Lexeme.text]
  have inside : Within parens (marks ms) := same ▸ statement.inside
  refine ⟨front, ms, blanks, phrasal, text, tidied, ?_⟩
  rw [line, read, List.append_assoc, tokensFrom_statement blanks phrasal.starts
      (fun l member => (phrasal.lexed.1 l member).isOpen) inside, same]
  rfl

/-- A declaration that closes its parentheses is read tidied. -/
theorem tokensFrom_declarationLine (closed : openAfter parens t = 0) :
    tokensFrom pending parens (lexemes (written (gap depth above ++
        [style.indent depth ++ declarationText t]) ++ rest)) =
      (tokensFrom [.char '\n'] 0 (lexemes rest)).cons (.declaration (tidiedDeclaration t)) := by
  obtain ⟨front, ms, blanks, phrasal, text, tidied, read⟩ :=
    exists_declarationLine blank style depth above rest statement
  obtain ⟨l, member, shown⟩ := exists_visible_of_begins phrasal.starts
  have visible : ¬ ∀ l ∈ ms.reverse ++ front, l.isBlank = true := by
    intro all
    simp [all l (by simp [member])] at shown
  have turned : ∀ l ∈ front.reverse, l.isBlank = true := by simpa using blanks
  rw [read, closed, tokensFrom, if_neg (by decide), if_neg (by decide), if_pos ⟨rfl, rfl⟩,
    Tokens.consDeclaration_of_visible visible, tokensFrom_newline, tidied, List.reverse_append,
    List.reverse_reverse, phrase_blanks_append turned, phrase_eq phrasal.lexed,
    tightened_of_spaced phrasal.spaced]

/-- A declaration that leaves a parenthesis open is still pending behind its line. -/
theorem exists_pending_declarationLine (left : openAfter parens t ≠ 0) :
    ∃ more : List Lexeme, (¬ ∀ l ∈ more, l.isBlank = true) ∧
      phrase more.reverse = declarationText t ∧
      tokensFrom pending parens (lexemes (written (gap depth above ++
        [style.indent depth ++ declarationText t]) ++ rest)) =
      tokensFrom more (openAfter parens t) (lexemes rest) := by
  obtain ⟨front, ms, blanks, phrasal, text, tidied, read⟩ :=
    exists_declarationLine blank style depth above rest statement
  refine ⟨.char '\n' :: .char ';' :: (ms.reverse ++ front), ?_, ?_, ?_⟩
  · intro all
    exact absurd (all (.char ';') (by simp)) (by decide)
  · have turned : ∀ l ∈ front.reverse, l.isBlank = true := by simpa using blanks
    have newline : ∀ l ∈ [Lexeme.char '\n'], l.isBlank = true := by simp; rfl
    have ended : Lexed (ms ++ [.char ';']) :=
      lexed_append_of_head? phrasal.lexed (lexed_singleton rfl) (by simp)
    have spaced : Spaced (ms ++ [.char ';']) := by
      refine spaced_append phrasal.spaced (spaced_cons.mpr ⟨fun blank => absurd blank (by decide),
        by simp, by simp, .nil⟩) ?_
      rintro l - m first ⟨-, blank⟩
      obtain rfl : Lexeme.char ';' = m := by simpa using first
      exact absurd blank (by decide)
    have head : ∀ l ∈ (ms ++ [Lexeme.char ';']).head?, l.isBlank = false := by
      cases ms with
      | nil => simp; rfl
      | cons m others => simpa using phrasal.head
    have whole : phrase (ms ++ [.char ';']) = declarationText t := by
      rw [phrase_eq ended, tightened_of_spaced spaced, trimmed_of_ends head (by simp; rfl), text]
      simp [Lexeme.text]
    have padded := phrase_append_blanks newline (front.reverse ++ (ms ++ [.char ';']))
    rw [phrase_blanks_append turned, whole] at padded
    simpa using padded
  · rw [read, tokensFrom, if_neg (by decide), if_neg (by decide), if_neg (by simp [left]),
      if_neg (by decide), if_neg (by decide), tokensFrom_newline]

end Declarations

end Lines

/-! ## All lines -/

theorem exists_lines (before : List Text) {lines : List Text} {laid : Except Fault (List Text)}
    (whole : laid.map (before ++ ·) = .ok lines) :
    ∃ more, laid = .ok more ∧ lines = before ++ more := by
  obtain ⟨more, made, rfl⟩ := exists_of_map whole
  exact ⟨more, made, rfl⟩

/-- The lines of readable tokens are read as those tokens, in the same order and nesting. -/
theorem tokensFrom_written {style : Style} {depth : Nat} {above : Above} {ts : List Token}
    {lines : List Text} (laid : linesFrom style none depth above ts = .ok lines) {parens : Nat}
    (readable : Readable parens ts) {pending : List Lexeme}
    (ready : (∀ l ∈ pending, l.isBlank = true) ∨ ts.head? = some .closing) :
    tokensFrom pending parens (lexemes (written lines)) =
      (⟨reread parens ts, none⟩ : Tokens).consDeclaration pending := by
  have newline : ∀ l ∈ [Lexeme.char '\n'], l.isBlank = true := by simp; rfl
  have others (read : Tokens) : read.consDeclaration [.char '\n'] = read :=
    Tokens.consDeclaration_of_blanks newline read
  induction ts generalizing depth above lines parens pending with
  | nil =>
    have blank := ready.resolve_right (by simp)
    simp only [linesFrom] at laid
    split at laid
    · cases laid
      have all : pending.all Lexeme.isBlank = true := by simpa using blank
      rw [Tokens.consDeclaration_of_blanks blank]
      simp [written, lexemes, lexemesFrom, tokensFrom, all, reread]
    · cases laid
  | cons token rest ih =>
    cases token with
    | closing =>
      cases depth with
      | zero => cases laid
      | succ outer =>
        rw [linesFrom] at laid
        obtain ⟨more, inner, rfl⟩ := exists_lines [style.indent outer ++ ['\x7d']] laid
        rw [written_append, tokensFrom_closingLine, ih inner readable (.inl newline), others]
        rfl
    | comment t =>
      have blank := ready.resolve_right (by simp)
      obtain ⟨⟨body, inside, rfl⟩, later⟩ := readable
      rw [linesFrom] at laid
      obtain ⟨more, inner, rfl⟩ := exists_lines _ laid
      rw [written_append, tokensFrom_commentLine blank _ _ _ _ inside, ih inner later (.inl newline),
        others, Tokens.consDeclaration_of_blanks blank]
      rfl
    | opening start =>
      have blank := ready.resolve_right (by simp)
      obtain ⟨statement, later⟩ := readable
      rw [linesFrom] at laid
      obtain ⟨more, inner, rfl⟩ := exists_lines _ laid
      rw [written_append, tokensFrom_openingLines blank _ _ _ _ statement,
        ih inner later (.inl newline), others, Tokens.consDeclaration_of_blanks blank]
      rfl
    | declaration t =>
      have blank := ready.resolve_right (by simp)
      obtain ⟨statement, ends, later⟩ := readable
      rw [linesFrom] at laid
      obtain ⟨more, inner, rfl⟩ := exists_lines _ laid
      rw [written_append, Tokens.consDeclaration_of_blanks blank]
      by_cases closed : openAfter parens t = 0
      · rw [tokensFrom_declarationLine blank _ _ _ _ statement closed, ← closed,
          ih inner later (.inl newline), others, reread, Token.reread, if_pos closed]
        rfl
      · obtain ⟨front, visible, text, read⟩ :=
          exists_pending_declarationLine blank style depth above (written more) statement closed
        rw [read, ih inner later (.inr (ends.resolve_left closed)),
          Tokens.consDeclaration_of_visible visible, text, reread, Token.reread, if_neg closed]
        rfl

end StaticSite.Stylesheet
