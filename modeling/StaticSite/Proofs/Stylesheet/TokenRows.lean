import StaticSite.Proofs.Stylesheet.Rows

/-! # The rows of a layout

Every token is written in rows behind the empty row that may stand above it. The rows are indented
by the depth of the token and then start with something visible; all but the last one end with a
comma. The braces in the rows are the braces of the tokens.
-/

namespace StaticSite.Stylesheet

/-- The lexemes that open a block. -/
def blockLexemes : List Lexeme := [.char ' ', .char '\x7b']

/-- A row at a depth: an indentation and lexemes behind it that start with a visible one. Where the
last selector of a list is empty, the brace that opens the block starts the row. -/
structure RowAt (style : Style) (depth : Nat) (row : Text) (content : List Lexeme) : Prop where
  text : row = style.indent depth ++ content.flatMap Lexeme.text
  lexed : Lexed content
  unbroken : .char '\n' ∉ content
  starts : (∃ l ∈ content.head?, l.isBlank = false) ∨ content = blockLexemes

theorem lexed_blockLexemes : Lexed blockLexemes :=
  lexed_cons.mpr ⟨rfl, by simp [Lexeme.Apart], lexed_singleton rfl⟩

namespace RowAt

variable {style : Style} {depth : Nat} {row : Text} {content : List Lexeme}

theorem lexed_indented (rowAt : RowAt style depth row content) :
    Lexed (indentLexemes style depth ++ content) :=
  lexed_blanks_append (fun _ => isBlank_of_mem_indentLexemes) rowAt.lexed

theorem lexemes_eq (rowAt : RowAt style depth row content) :
    lexemes row = indentLexemes style depth ++ content := by
  have read := lexemes_flatMap_text rowAt.lexed_indented
  rwa [List.flatMap_append, flatMap_text_indentLexemes, ← rowAt.text] at read

theorem isRow (rowAt : RowAt style depth row content) : IsRow row := by
  have lexed : Lexed (lexemes row) := rowAt.lexemes_eq ▸ rowAt.lexed_indented
  refine ⟨fun l member => (lexed.1 l member).isOpen, ?_⟩
  rw [rowAt.lexemes_eq, List.mem_append, not_or]
  refine ⟨fun member => ?_, rowAt.unbroken⟩
  obtain ⟨c, inside, same⟩ := List.mem_map.mp member
  obtain rfl : c = '\n' := by simpa using same
  exact newline_not_mem_indent style depth inside

theorem marks_eq (rowAt : RowAt style depth row content) : marks (lexemes row) = marks content := by
  rw [rowAt.lexemes_eq, marks_append, marks_of_blanks fun _ => isBlank_of_mem_indentLexemes,
    List.nil_append]

/-- Behind the indentation of a row comes something visible, or the brace behind an empty
selector. -/
theorem exists_text (rowAt : RowAt style depth row content) :
    (∃ c rest, row = style.indent depth ++ c :: rest ∧ isBlank c = false) ∨
      row = style.indent depth ++ blockStart := by
  rcases rowAt.starts with ⟨l, first, visible⟩ | brace
  · obtain ⟨more, rfl⟩ := List.head?_eq_some_iff.mp first
    obtain ⟨c, -, -, starts, -, shown, -⟩ := (rowAt.lexed.1 l List.mem_cons_self).text_ends
    obtain ⟨rest, text⟩ := List.head?_eq_some_iff.mp starts
    refine .inl ⟨c, rest ++ more.flatMap Lexeme.text, ?_, shown.trans visible⟩
    rw [rowAt.text, List.flatMap_cons, text]
    rfl
  · refine .inr ?_
    rw [rowAt.text, brace]
    rfl

/-- A row starts with no newline. -/
theorem exists_cons (rowAt : RowAt style depth row content) : ∃ c rest, row = c :: rest ∧ c ≠ '\n' := by
  obtain ⟨c, rest, text, visible⟩ : ∃ c rest, row = style.indent depth ++ c :: rest ∧ c ≠ '\n' := by
    rcases rowAt.exists_text with ⟨c, rest, text, visible⟩ | text
    · refine ⟨c, rest, text, ?_⟩
      rintro rfl
      cases visible
    · exact ⟨' ', _, text, by decide⟩
  cases indent : style.indent depth with
  | nil => exact ⟨c, rest, by rw [text, indent]; rfl, visible⟩
  | cons d more =>
    refine ⟨d, more ++ c :: rest, by rw [text, indent]; rfl, ?_⟩
    rintro rfl
    exact newline_not_mem_indent style depth (indent ▸ List.mem_cons_self)

theorem row_ne_nil (rowAt : RowAt style depth row content) : row ≠ [] := by
  obtain ⟨c, rest, rfl, -⟩ := rowAt.exists_cons
  exact List.cons_ne_nil c rest

/-- Spaced lexemes that do not start with a blank make a row with lexemes behind them. -/
theorem append {ls tail : List Lexeme} (lexed : Lexed ls) (spaced : Spaced ls)
    (head : ∀ l ∈ ls.head?, l.isBlank = false) (ends : Lexed tail)
    (apart : tail.head? ≠ some (.char '*')) (unbroken : .char '\n' ∉ tail)
    (starts : ls = [] → (∃ l ∈ tail.head?, l.isBlank = false) ∨ tail = blockLexemes) :
    RowAt style depth (style.indent depth ++ ls.flatMap Lexeme.text ++ tail.flatMap Lexeme.text)
      (ls ++ tail) where
  text := by rw [List.flatMap_append, List.append_assoc]
  lexed := lexed_append_of_head? lexed ends apart
  unbroken := by
    rw [List.mem_append, not_or]
    refine ⟨fun member => ?_, unbroken⟩
    cases spaced.1 _ member rfl
  starts := by
    cases ls with
    | nil => exact starts rfl
    | cons l rest => exact .inl ⟨l, rfl, head l rfl⟩

end RowAt

/-! ## The rows of a token -/

/-- The rows of a token at a depth, with the empty row that may stand above them. -/
def Token.rows (style : Style) (depth : Nat) (above : Above) : Token → List Text
  | .closing => [style.indent (depth - 1) ++ ['\x7d']]
  | .opening start => gap depth above ++ openingLines style depth start
  | .declaration t => gap depth above ++ [style.indent depth ++ declarationText t]
  | .comment t => gap depth above ++ [style.indent depth ++ t]

/-- The depth at which a token is written: a brace that closes a block stands outside it. -/
def Token.level (depth : Nat) : Token → Nat
  | .closing => depth - 1
  | _ => depth

/-- The depth behind a token. -/
def Token.depthAfter (depth : Nat) : Token → Nat
  | .closing => depth - 1
  | .opening _ => depth + 1
  | .declaration _ | .comment _ => depth

/-- The rows that a token is written in: all but the last one end with a comma. -/
structure RowsOf (style : Style) (depth : Nat) (x : Token) (commas : List Text) (last : Text) : Prop where
  listed : ∀ row ∈ commas, ∃ ls, RowAt style (x.level depth) row (ls ++ [.char ',']) ∧ braceMarks ls = []
  final : ∃ content, RowAt style (x.level depth) last content ∧ braceMarks content = braces [x]
  opens : commas ≠ [] → braces [x] = ['\x7b']

theorem braceMarks_of_within {parens : Nat} {ls : List Lexeme} (inside : Within parens (marks ls)) :
    braceMarks ls = [] := by
  rw [braceMarks]
  generalize marks ls = ms at inside
  induction ms generalizing parens with
  | nil => rfl
  | cons m rest ih =>
    obtain ⟨goesOn, later⟩ := inside
    have plain : isBrace m = false := by
      simp only [endsStatement, Bool.or_eq_false_iff] at goesOn
      simpa [isBrace] using goesOn.1
    rw [List.filter_cons_of_neg (by simp [plain]), ih later]

/-- A selector list in rows: one selector in each, with a comma or the brace behind it. -/
theorem exists_selectorRows (style : Style) (depth : Nat) {ps : List (List Lexeme)} (some : ps ≠ [])
    (lexed : ∀ p ∈ ps, Lexed p) (spaced : ∀ p ∈ ps, Spaced p) (flat : ∀ p ∈ ps, braceMarks p = []) :
    ∃ commas last content,
      selectorLines (style.indent depth) (ps.map fun p => (trimmed p).flatMap Lexeme.text) =
        commas ++ [last] ∧
      (∀ row ∈ commas, ∃ ls, RowAt style depth row (ls ++ [.char ',']) ∧ braceMarks ls = []) ∧
      RowAt style depth last content ∧ braceMarks content = ['\x7b'] := by
  induction ps with
  | nil => exact absurd rfl some
  | cons p rest ih =>
    have whole := (lexed p List.mem_cons_self).within (isInfix_trimmed p)
    have single := (spaced p List.mem_cons_self).within (isInfix_trimmed p)
    have plain : braceMarks (trimmed p) = [] := by
      rw [braceMarks, marks_trimmed]
      exact flat p List.mem_cons_self
    cases rest with
    | nil =>
      refine ⟨[], _, trimmed p ++ blockLexemes, rfl, by simp, ?_, ?_⟩
      · exact .append whole single (head?_trimmed p) lexed_blockLexemes (by simp [blockLexemes])
          (by simp [blockLexemes]) fun _ => .inr rfl
      · rw [braceMarks_append, plain]
        rfl
    | cons q more =>
      obtain ⟨commas, last, content, lines, others, ends, brace⟩ := ih (by simp)
        (fun r member => lexed r (List.mem_cons_of_mem _ member))
        (fun r member => spaced r (List.mem_cons_of_mem _ member))
        (fun r member => flat r (List.mem_cons_of_mem _ member))
      refine ⟨_ :: commas, last, content, congrArg (List.cons _) lines, ?_, ends, brace⟩
      have comma : Lexed [.char ','] := lexed_singleton rfl
      refine List.forall_mem_cons.mpr ⟨⟨trimmed p, ?_, plain⟩, others⟩
      exact .append whole single (head?_trimmed p) comma (by simp) (by simp)
        fun _ => .inl ⟨_, rfl, rfl⟩

/-- The lines that open a block are rows. -/
theorem exists_openingRows {parens : Nat} {start : Text} (statement : Statement parens start)
    (style : Style) (depth : Nat) :
    ∃ commas last, openingLines style depth start = commas ++ [last] ∧
      RowsOf style depth (.opening start) commas last := by
  have phrasal := statement.phrasal
  have flat := braceMarks_of_within statement.inside
  have brace {ls : List Lexeme} (plain : braceMarks ls = []) :
      braceMarks (ls ++ blockLexemes) = braces [.opening start] := by
    rw [braceMarks_append, plain]
    rfl
  by_cases rule : isAtRule start = true
  · have row : RowAt style depth _ (lexemes start ++ blockLexemes) :=
      .append phrasal.lexed phrasal.spaced phrasal.head lexed_blockLexemes (by simp [blockLexemes])
        (by simp [blockLexemes]) fun _ => .inr rfl
    rw [flatMap_text_lexemes] at row
    refine ⟨[], _, ?_, by simp, ⟨_, row, brace flat⟩, by simp⟩
    rw [openingLines, if_pos rule]
    rfl
  · obtain ⟨ps, pieces, same, lexed, spaced, parts⟩ := exists_pieces_of_phrasal phrasal
    have some : ps ≠ [] := by
      rintro rfl
      exact pieces
    have marked : marks (lexemes start) = ps.flatMap marks := by rw [same, marks_joined rfl]
    have each : ∀ p ∈ ps, braceMarks p = [] := by
      rw [braceMarks, marked, List.filter_flatMap, List.flatMap_eq_nil_iff] at flat
      exact flat
    rw [flatMap_text_lexemes] at parts
    by_cases one : ((selectors start).length < 2 || style.fits (style.indent depth ++
        Text.joinWith ", " (selectors start) ++ blockStart)) = true
    · have row : RowAt style depth _ (joined [.char ',', .char ' '] (ps.map trimmed) ++ blockLexemes) :=
        .append (lexed_joined_trimmed lexed (by simp)) (spaced_joined spaced).1 (spaced_joined spaced).2
          lexed_blockLexemes (by simp [blockLexemes]) (by simp [blockLexemes]) fun _ => .inr rfl
      rw [flatMap_text_joined, List.map_map] at row
      refine ⟨[], _, ?_, by simp, ⟨_, row, brace ?_⟩, by simp⟩
      · rw [openingLines, if_neg rule, if_pos one, parts]
        rfl
      · rw [braceMarks, marks_joined rfl, List.flatMap_map]
        simpa only [braceMarks, marks_trimmed, marked] using flat
    · obtain ⟨commas, last, content, lines, listed, final, opens⟩ :=
        exists_selectorRows style depth some lexed spaced each
      refine ⟨commas, last, ?_, listed, ⟨content, final, opens⟩, fun _ => rfl⟩
      rw [openingLines, if_neg rule, if_neg one, parts, lines]

/-- The rows of a readable token are below the empty row that may stand above it. -/
theorem exists_rowsOf {parens : Nat} {x : Token} {behind : List Token}
    (readable : Readable parens (x :: behind)) (style : Style) {depth : Nat}
    (inside : x = .closing → depth ≠ 0) (above : Above) :
    ∃ commas last, x.rows style depth above = gap depth above ++ (commas ++ [last]) ∧
      RowsOf style depth x commas last := by
  cases x with
  | opening start =>
    obtain ⟨commas, last, lines, rowsOf⟩ := exists_openingRows readable.1 style depth
    exact ⟨commas, last, by rw [Token.rows, lines], rowsOf⟩
  | closing =>
    have none : gap depth above = [] := if_neg fun top => inside rfl top.1
    have brace : Lexed [.char '\x7d'] := lexed_singleton rfl
    refine ⟨[], _, by rw [none]; rfl, by simp, ⟨[.char '\x7d'], ?_, rfl⟩, by simp⟩
    exact ⟨rfl, brace, by simp, .inl ⟨_, rfl, rfl⟩⟩
  | declaration t =>
    have statement := readable.1
    obtain ⟨ms, phrasal, same, text, -⟩ := exists_declarationText statement.phrasal statement.last
    have semicolon : Lexed [.char ';'] := lexed_singleton rfl
    have row : RowAt style depth _ (ms ++ [.char ';']) :=
      .append phrasal.lexed phrasal.spaced phrasal.head semicolon (by simp) (by simp)
        fun _ => .inl ⟨_, rfl, rfl⟩
    rw [flatMap_text_lexemes] at text
    refine ⟨[], _, rfl, by simp, ⟨ms ++ [.char ';'], ?_, ?_⟩, by simp⟩
    · rw [text, ← List.append_assoc]
      exact row
    · rw [braceMarks_append, braceMarks, same, ← braceMarks, braceMarks_of_within statement.inside]
      rfl
  | comment t =>
    obtain ⟨⟨body, whole, rfl⟩, -⟩ := readable
    refine ⟨[], _, rfl, by simp, ⟨[.comment body], ?_, rfl⟩, by simp⟩
    exact ⟨by rw [List.flatMap_singleton]; rfl, lexed_singleton whole, by simp, .inl ⟨_, rfl, rfl⟩⟩

/-! ## The rows of tokens -/

theorem exists_readable_behind {parens : Nat} {ts behind : List Token}
    (readable : Readable parens (ts ++ behind)) : ∃ inner, Readable inner behind := by
  induction ts generalizing parens with
  | nil => exact ⟨parens, readable⟩
  | cons x rest ih =>
    cases x with
    | opening start => exact ih readable.2
    | closing => exact ih readable
    | declaration t => exact ih readable.2.2
    | comment t => exact ih readable.2

/-- Tokens in front of anything but the end of a block are readable on their own. -/
theorem readable_of_append {parens : Nat} {ts behind : List Token}
    (readable : Readable parens (ts ++ behind)) (goesOn : behind.head? ≠ some .closing) :
    Readable parens ts := by
  induction ts generalizing parens with
  | nil => trivial
  | cons x rest ih =>
    cases x with
    | opening start => exact ⟨readable.1, ih readable.2⟩
    | closing =>
      have later : Readable parens (rest ++ behind) := readable
      exact ih later
    | declaration t =>
      refine ⟨readable.1, readable.2.1.imp_right fun ends => ?_, ih readable.2.2⟩
      cases rest with
      | nil => exact absurd ends goesOn
      | cons y more => exact ends
    | comment t => exact ⟨readable.1, ih readable.2⟩

/-- Laying out tokens at a depth, with what is above them: the rows that are written, the depth
behind them and what then is above. -/
inductive Laid (style : Style) : Nat → Above → List Token → List Text → Nat → Above → Prop
  | nil (depth : Nat) (above : Above) : Laid style depth above [] [] depth above
  | cons {depth outer : Nat} {above last : Above} {x : Token} {rest : List Token} {more : List Text}
      (inside : x = .closing → depth ≠ 0)
      (later : Laid style (x.depthAfter depth) (aboveAfter depth above x) rest more outer last) :
      Laid style depth above (x :: rest) (x.rows style depth above ++ more) outer last

/-- The first token is laid out in its rows, and the others behind it. -/
theorem exists_linesFrom_cons {style : Style} {depth : Nat} {above : Above} {x : Token}
    {rest : List Token} {lines : List Text} :
    linesFrom style none depth above (x :: rest) = .ok lines ↔
      (x = .closing → depth ≠ 0) ∧ ∃ more, linesFrom style none (x.depthAfter depth)
        (aboveAfter depth above x) rest = .ok more ∧ lines = x.rows style depth above ++ more := by
  have mapped (before : List Text) (laid : Except Fault (List Text)) :
      laid.map (before ++ ·) = .ok lines ↔ ∃ more, laid = .ok more ∧ lines = before ++ more := by
    cases laid <;> simp [Except.map, eq_comm]
  cases x with
  | closing =>
    cases depth with
    | zero => simp [linesFrom]
    | succ outer =>
      have same := mapped [style.indent outer ++ ['\x7d']] (linesFrom style none outer above rest)
      simpa [linesFrom, Token.rows, Token.depthAfter, aboveAfter] using same
  | _ =>
    rw [linesFrom, mapped]
    simp [Token.rows, Token.depthAfter]

/-- What lays out tokens up to the end closes every block. -/
theorem exists_laid {style : Style} {depth : Nat} {above : Above} {ts : List Token} {rows : List Text}
    (lines : linesFrom style none depth above ts = .ok rows) :
    ∃ last, Laid style depth above ts rows 0 last := by
  induction ts generalizing depth above rows with
  | nil =>
    rw [linesFrom] at lines
    split at lines
    · next closed =>
      cases lines
      exact ⟨above, closed ▸ .nil depth above⟩
    · cases lines
  | cons x rest ih =>
    obtain ⟨inside, more, later, rfl⟩ := exists_linesFrom_cons.mp lines
    obtain ⟨last, laid⟩ := ih later
    exact ⟨last, .cons inside laid⟩

theorem Token.depthAfter_eq {x : Token} {depth : Nat} (inside : x = .closing → depth ≠ 0) :
    depth + (braces [x]).count '\x7b' = x.depthAfter depth + (braces [x]).count '\x7d' := by
  cases x with
  | closing =>
    have some := inside rfl
    change depth = depth - 1 + 1
    omega
  | _ => rfl

/-- What the last of some tokens at the top level is for the next one. -/
def aboveBehind (above : Above) (ts : List Token) : Above :=
  match ts.getLast? with
  | some x => if x.isComment then .comment else .statement
  | none => above

/-- What is above a token in a block is the start of the block. -/
theorem aboveAfter_of_block {x : Token} {depth : Nat} {above : Above}
    (block : depth ≠ 0 → above = .statement) (some : x.depthAfter depth ≠ 0) :
    aboveAfter depth above x = .statement := by
  by_cases top : depth = 0
  · subst top
    cases x <;> first | rfl | exact absurd rfl some
  · exact (if_neg top).trans (block top)

/-- What is above a token at the top level is the token before it. -/
theorem aboveAfter_of_top {x : Token} {depth : Nat} {above : Above}
    (block : depth ≠ 0 → above = .statement) (none : x.depthAfter depth = 0) :
    aboveAfter depth above x = aboveBehind (aboveAfter depth above x) [x] := by
  by_cases top : depth = 0
  · subst top
    cases x <;> rfl
  · have same : aboveAfter depth above x = .statement := (if_neg top).trans (block top)
    rw [same]
    cases x with
    | comment t => exact absurd none top
    | _ => rfl

namespace Laid

variable {style : Style} {depth outer : Nat} {above last : Above} {ts : List Token} {rows : List Text}

/-- The braces of tokens that are laid out are in balance when no block is open behind them. -/
theorem balanced_eq (laid : Laid style depth above ts rows outer last) :
    balanced depth ts = (outer == 0) := by
  induction laid with
  | nil => rfl
  | @cons depth outer above last x rest more inside _ ih =>
    rw [← ih]
    cases x with
    | closing =>
      obtain ⟨inner, rfl⟩ := Nat.exists_eq_succ_of_ne_zero (inside rfl)
      rfl
    | _ => rfl

theorem linesFrom_eq (laid : Laid style depth above ts rows outer last) (closed : outer = 0) :
    linesFrom style none depth above ts = .ok rows := by
  induction laid with
  | nil depth above => rw [linesFrom, if_pos closed]
  | cons inside _ ih => exact exists_linesFrom_cons.mpr ⟨inside, _, ih closed, rfl⟩

/-- The depth behind tokens is given by their braces. -/
theorem depth_eq (laid : Laid style depth above ts rows outer last) :
    depth + (braces ts).count '\x7b' = outer + (braces ts).count '\x7d' := by
  induction laid with
  | nil => rfl
  | @cons depth outer above last x rest more inside _ ih =>
    have step := Token.depthAfter_eq inside
    rw [← List.singleton_append, braces_append, List.count_append, List.count_append]
    omega

/-- At the top level the last token is what is above the next one. -/
theorem above_eq (laid : Laid style depth above ts rows outer last)
    (block : depth ≠ 0 → above = .statement) (top : outer = 0) : last = aboveBehind above ts := by
  induction laid with
  | nil => rfl
  | @cons depth outer above last x rest more inside later ih =>
    rw [ih (aboveAfter_of_block block) top]
    cases rest with
    | cons y more => simp [aboveBehind, List.getLast?_cons]
    | nil =>
      cases later
      exact aboveAfter_of_top block top

end Laid

/-! ## What rows hold -/

theorem isRow_nil : IsRow [] := ⟨by simp [Complete, lexemes, lexemesFrom], by simp [lexemes, lexemesFrom]⟩

/-- The braces in rows are those of each row. -/
theorem braceMarks_written {rows : List Text} (isRow : ∀ row ∈ rows, IsRow row) :
    braceMarks (lexemes (written rows)) = rows.flatMap fun row => braceMarks (lexemes row) := by
  induction rows with
  | nil => rfl
  | cons row rest ih =>
    obtain ⟨here, later⟩ := List.forall_mem_cons.mp isRow
    rw [written_cons, lexemes_written_cons here.complete, braceMarks_append,
      braceMarks_char_cons (by decide) (by decide), ih later, List.flatMap_cons]

theorem gap_cases (depth : Nat) (above : Above) : gap depth above = [] ∨ gap depth above = [[]] := by
  unfold gap
  split
  · exact .inr rfl
  · exact .inl rfl

theorem eq_nil_of_mem_gap {depth : Nat} {above : Above} {row : Text} (listed : row ∈ gap depth above) :
    row = [] := by
  rcases gap_cases depth above with none | one
  · simp [none] at listed
  · simpa [one] using listed

theorem RowAt.braceMarks_eq {style : Style} {depth : Nat} {row : Text} {content : List Lexeme}
    (rowAt : RowAt style depth row content) : braceMarks (lexemes row) = braceMarks content := by
  rw [braceMarks, rowAt.marks_eq, braceMarks]

namespace RowsOf

variable {style : Style} {depth : Nat} {x : Token} {commas : List Text} {last : Text}

theorem isRow (rowsOf : RowsOf style depth x commas last) (above : Above) :
    ∀ row ∈ gap depth above ++ (commas ++ [last]), IsRow row := by
  simp only [List.forall_mem_append, List.forall_mem_singleton]
  refine ⟨fun row listed => ?_, fun row listed => ?_, ?_⟩
  · rw [eq_nil_of_mem_gap listed]
    exact isRow_nil
  · obtain ⟨ls, rowAt, -⟩ := rowsOf.listed row listed
    exact rowAt.isRow
  · obtain ⟨content, rowAt, -⟩ := rowsOf.final
    exact rowAt.isRow

/-- Above the last row of a token there are no braces of its own. -/
theorem braceMarks_above (rowsOf : RowsOf style depth x commas last) (above : Above) :
    ∀ row ∈ gap depth above ++ commas, braceMarks (lexemes row) = [] := by
  simp only [List.forall_mem_append]
  refine ⟨fun row listed => ?_, fun row listed => ?_⟩
  · rw [eq_nil_of_mem_gap listed]
    rfl
  · obtain ⟨ls, rowAt, flat⟩ := rowsOf.listed row listed
    rw [rowAt.braceMarks_eq, braceMarks_append, flat]
    rfl

theorem braceMarks_eq (rowsOf : RowsOf style depth x commas last) (above : Above) :
    (gap depth above ++ (commas ++ [last])).flatMap (fun row => braceMarks (lexemes row)) = braces [x] := by
  obtain ⟨content, rowAt, brace⟩ := rowsOf.final
  rw [← List.append_assoc, List.flatMap_append, List.flatMap_eq_nil_iff.mpr (rowsOf.braceMarks_above above),
    List.flatMap_singleton, rowAt.braceMarks_eq, brace, List.nil_append]

/-- A row that is not empty has the gap and rows that end with commas above it. -/
theorem exists_listed {above : Above} {part rest : List Text} {row : Text}
    (split : gap depth above ++ (commas ++ [last]) = part ++ row :: rest) (some : row ≠ []) :
    ∃ listed, part = gap depth above ++ listed ∧ (∀ r ∈ listed, r ∈ commas) ∧
      (row ∈ commas ∨ row = last) := by
  obtain ⟨listed, rfl, own⟩ : ∃ listed, part = gap depth above ++ listed ∧
      commas ++ [last] = listed ++ row :: rest := by
    rcases List.append_eq_append_iff.mp split with both | ⟨mid, whole, own⟩
    · exact both
    · cases mid with
      | nil => exact ⟨[], by simpa using whole.symm, own.symm⟩
      | cons r others =>
        obtain ⟨rfl, -⟩ := List.cons.inj own
        have member : row ∈ gap depth above := by simp [whole]
        exact absurd (eq_nil_of_mem_gap member) some
  have begins : listed ++ [row] <+: commas ++ [last] := ⟨rest, by rw [own]; simp⟩
  refine ⟨listed, rfl, ?_⟩
  rcases List.prefix_concat_iff.mp begins with whole | inner
  · obtain ⟨rfl, same⟩ := List.append_inj' whole rfl
    exact ⟨fun r member => member, .inr (List.singleton_inj.mp same)⟩
  · have member := inner.subset
    exact ⟨fun r listed => member (by simp [listed]), .inl (member (by simp))⟩

/-- A row of a token closes a block if the token does. -/
theorem exists_rowAt {row : Text} (rowsOf : RowsOf style depth x commas last)
    (own : row ∈ commas ∨ row = last) : ∃ content, RowAt style (x.level depth) row content ∧
      (braceMarks content).count '\x7d' = (braces [x]).count '\x7d' := by
  rcases own with listed | rfl
  · obtain ⟨ls, rowAt, plain⟩ := rowsOf.listed row listed
    refine ⟨_, rowAt, ?_⟩
    rw [braceMarks_append, plain, rowsOf.opens (List.ne_nil_of_mem listed)]
    rfl
  · obtain ⟨content, rowAt, brace⟩ := rowsOf.final
    exact ⟨content, rowAt, by rw [brace]⟩

end RowsOf

/-- What the rows of tokens hold: they are rows, their braces are those of the tokens, and the last
one is not empty. -/
structure Holds (ts : List Token) (rows : List Text) : Prop where
  isRow : ∀ row ∈ rows, IsRow row
  braces : braceMarks (lexemes (written rows)) = braces ts
  last : rows.getLast? ≠ some []

theorem Laid.holds {style : Style} {depth outer : Nat} {above last : Above} {ts behind : List Token}
    {rows : List Text} (laid : Laid style depth above ts rows outer last) {parens : Nat}
    (readable : Readable parens (ts ++ behind)) : Holds ts rows := by
  induction laid generalizing parens with
  | nil => exact ⟨by simp, rfl, by simp⟩
  | @cons depth outer above last x rest more inside _ ih =>
    have whole : Readable parens ([x] ++ (rest ++ behind)) := readable
    obtain ⟨parens, later⟩ := exists_readable_behind whole
    have inner := ih later
    obtain ⟨commas, final, lines, rowsOf⟩ := exists_rowsOf readable style inside above
    have isRow := List.forall_mem_append.mpr ⟨rowsOf.isRow above, inner.isRow⟩
    rw [lines]
    refine ⟨isRow, ?_, ?_⟩
    · rw [braceMarks_written isRow, List.flatMap_append, rowsOf.braceMarks_eq above,
        ← braceMarks_written inner.isRow, inner.braces]
      exact (braces_append [x] rest).symm
    · by_cases none : more = []
      · obtain ⟨content, rowAt, -⟩ := rowsOf.final
        simpa [none] using rowAt.row_ne_nil
      · rw [List.getLast?_append_of_ne_nil _ none]
        exact inner.last

end StaticSite.Stylesheet
