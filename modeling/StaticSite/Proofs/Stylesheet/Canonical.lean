import StaticSite.Proofs.Stylesheet.Sequence
import StaticSite.Proofs.Stylesheet.TokenRows

/-! # The canonical layout

A layout is empty or ends in one newline. A line that begins outside comments and strings is
indented by the blocks that are open there. Every item at the top level begins a line of its own,
with an empty line above it where it follows a statement, and there are no other empty lines.
-/

namespace StaticSite.Stylesheet

/-- Whether the line above is empty. -/
def EmptyAbove (above : Text) : Prop := ∃ up, StartsLine up ∧ above = up ++ ['\n']

theorem emptyAbove_written_iff {rows : List Text} (isRow : ∀ row ∈ rows, IsRow row) :
    EmptyAbove (written rows) ↔ rows.getLast? = some [] := by
  cases rows using List.reverseRecOn with
  | nil => simp [EmptyAbove, written]
  | append_singleton front row =>
    have last : written (front ++ [row]) = written front ++ row ++ ['\n'] := by simp [written]
    have own : IsRow row := isRow row (by simp)
    rw [last, List.getLast?_concat, Option.some_inj]
    constructor
    · rintro ⟨up, starts, same⟩
      obtain rfl := List.append_cancel_right same
      by_contra some
      rcases starts with none | newline
      · exact some (List.append_eq_nil_iff.mp none).2
      · rw [List.getLast?_append_of_ne_nil _ some] at newline
        exact own.getLast? newline
    · rintro rfl
      exact ⟨written front, startsLine_written front, by simp⟩

/-! ## Places of tokens -/

/-- A token in a layout, with the tokens around it and the rows above and below its own. -/
structure Place (style : Style) (outer : Nat) (first : Above) (ts : List Token) (rows : List Text) where
  before : List Token
  token : Token
  behind : List Token
  start : List Text
  depth : Nat
  above : Above
  more : List Text
  laid : Laid style outer first before start depth above
  inside : token = .closing → depth ≠ 0
  split : ts = before ++ token :: behind
  lines : rows = start ++ (token.rows style depth above ++ more)

section Places

variable {style : Style} {outer final : Nat} {first last : Above} {x : Token} {ts rest : List Token}
variable {rows more : List Text}

/-- The place of the first token. -/
def Place.ofFirst (inside : x = .closing → outer ≠ 0) :
    Place style outer first (x :: rest) (x.rows style outer first ++ more) where
  before := []
  token := x
  behind := rest
  start := []
  depth := outer
  above := first
  more := more
  laid := .nil outer first
  inside := inside
  split := rfl
  lines := rfl

/-- A place with one more token in front. -/
def Place.cons (inside : x = .closing → outer ≠ 0)
    (p : Place style (x.depthAfter outer) (aboveAfter outer first x) rest more) :
    Place style outer first (x :: rest) (x.rows style outer first ++ more) where
  before := x :: p.before
  token := p.token
  behind := p.behind
  start := x.rows style outer first ++ p.start
  depth := p.depth
  above := p.above
  more := p.more
  laid := .cons inside p.laid
  inside := p.inside
  split := congrArg (x :: ·) p.split
  lines := by rw [List.append_assoc, ← p.lines]

/-- Every token has a place. -/
theorem Laid.exists_place (laid : Laid style outer first ts rows final last) {before behind : List Token}
    (split : ts = before ++ x :: behind) :
    ∃ p : Place style outer first ts rows, p.before = before ∧ p.token = x := by
  induction before generalizing outer first ts rows with
  | nil =>
    subst split
    cases laid with
    | cons inside later => exact ⟨.ofFirst inside, rfl, rfl⟩
  | cons y others ih =>
    subst split
    cases laid with
    | cons inside later =>
      obtain ⟨p, front, own⟩ := ih later rfl
      exact ⟨p.cons inside, congrArg (y :: ·) front, own⟩

/-- Every row is a row of a token. -/
theorem Laid.exists_row (laid : Laid style outer first ts rows final last) {up down : List Text}
    {row : Text} (split : rows = up ++ row :: down) :
    ∃ (p : Place style outer first ts rows) (part rest : List Text), up = p.start ++ part ∧
      p.token.rows style p.depth p.above = part ++ row :: rest := by
  induction laid generalizing up with
  | nil => simp at split
  | @cons outer final first last x behind more inside later ih =>
    -- The row is one of the first token's, or it is found among those of the others.
    have among (mid : List Text) (above : up = x.rows style outer first ++ mid)
        (others : more = mid ++ row :: down) :
        ∃ (p : Place style outer first (x :: behind) (x.rows style outer first ++ more))
          (part rest : List Text), up = p.start ++ part ∧
            p.token.rows style p.depth p.above = part ++ row :: rest := by
      obtain ⟨p, part, rest, inner, own⟩ := ih others
      exact ⟨p.cons inside, part, rest, by rw [above, inner]; exact (List.append_assoc ..).symm, own⟩
    rcases List.append_eq_append_iff.mp split with ⟨mid, above, others⟩ | ⟨mid, own, others⟩
    · exact among mid above others
    · cases mid with
      | nil => exact among [] (by simpa using own.symm) others.symm
      | cons c mid =>
        obtain ⟨rfl, -⟩ := List.cons.inj others
        exact ⟨.ofFirst inside, up, mid, rfl, own⟩

end Places

/-! ## Indentation -/

/-- Whether a line is indented by the blocks that are open where it stands, those opened above it
and closed neither above nor in it. Behind the indentation comes something visible, or the brace
behind a selector list that ends with a comma. -/
def IndentedAt (style : Style) (above line : Text) : Prop :=
  ∃ depth rest, line = style.indent depth ++ rest ∧
    (braceMarks (lexemes above)).count '\x7b' =
      (braceMarks (lexemes (above ++ line))).count '\x7d' + depth ∧
    ((∃ c ∈ rest.head?, isBlank c = false) ∨ rest = blockStart)

/-- The first line of a row is indented as the row. -/
theorem RowAt.exists_firstLine {style : Style} {depth : Nat} {row : Text} {content : List Lexeme}
    (rowAt : RowAt style depth row content) :
    ∃ rest, firstLine row = style.indent depth ++ rest ∧
      ((∃ c ∈ rest.head?, isBlank c = false) ∨ rest = blockStart) := by
  rcases rowAt.exists_text with ⟨c, rest, rfl, visible⟩ | rfl
  · have single : '\n' ∉ [c] := by
      intro member
      obtain rfl := List.mem_singleton.mp member
      cases visible
    refine ⟨c :: firstLine rest, ?_, .inl ⟨c, rfl, visible⟩⟩
    rw [firstLine_append (newline_not_mem_indent style depth), ← List.singleton_append,
      firstLine_append single, List.singleton_append]
  · refine ⟨blockStart, ?_, .inr rfl⟩
    rw [firstLine_append (newline_not_mem_indent style depth), firstLine_of_single (by decide)]

theorem RowAt.firstLine_ne_nil {style : Style} {depth : Nat} {row : Text} {content : List Lexeme}
    (rowAt : RowAt style depth row content) : firstLine row ≠ [] := by
  obtain ⟨c, rest, rfl, visible⟩ := rowAt.exists_cons
  simp [firstLine, visible]

theorem RowAt.count_firstLine_le {style : Style} {depth : Nat} {row : Text} {content : List Lexeme}
    (rowAt : RowAt style depth row content) (c : Char) :
    (braceMarks (lexemes (firstLine row))).count c ≤ (braceMarks content).count c := by
  have begins : firstLine row <+: (lexemes row).flatMap Lexeme.text := by
    rw [flatMap_text_lexemes]
    exact List.takeWhile_prefix _
  have within := (marks_lexemes_start rowAt.isRow.lexed begins).filter isBrace
  rw [← rowAt.braceMarks_eq]
  exact within.sublist.count_le c

theorem Token.count_braces {x : Token} (other : x ≠ .closing) : (braces [x]).count '\x7d' = 0 := by
  cases x with
  | closing => exact absurd rfl other
  | _ => rfl

theorem Token.level_eq {x : Token} {depth : Nat} (inside : x = .closing → depth ≠ 0) :
    depth = (braces [x]).count '\x7d' + x.level depth := by
  cases x with
  | closing =>
    have some := inside rfl
    change depth = 1 + (depth - 1)
    omega
  | _ => exact (Nat.zero_add depth).symm

section Whole

variable {style : Style} {ts : List Token} {rows : List Text}

namespace Place

variable (p : Place style 0 .nothing ts rows) (readable : Readable 0 ts)
include readable

theorem holds : Holds p.before p.start := p.laid.holds (p.split ▸ readable)

theorem exists_rowsOf : ∃ commas last,
    p.token.rows style p.depth p.above = gap p.depth p.above ++ (commas ++ [last]) ∧
      RowsOf style p.depth p.token commas last := by
  obtain ⟨parens, later⟩ := exists_readable_behind (p.split ▸ readable)
  exact Stylesheet.exists_rowsOf later style p.inside p.above

/-- Above a row that is not empty stand the rows of the tokens before, the gap, and rows of the token
that end with commas. The braces in them are those of the tokens before. -/
theorem exists_listed {part rest : List Text} {row : Text}
    (own : p.token.rows style p.depth p.above = part ++ row :: rest) (some : row ≠ []) :
    ∃ listed, part = gap p.depth p.above ++ listed ∧ (∀ r ∈ p.start ++ part, IsRow r) ∧
      braceMarks (lexemes (written (p.start ++ part))) = braces p.before ∧
      (∀ r ∈ listed, ∃ ls, RowAt style (p.token.level p.depth) r (ls ++ [.char ','])) ∧
      ∃ content, RowAt style (p.token.level p.depth) row content ∧
        (braceMarks content).count '\x7d' = (braces [p.token]).count '\x7d' := by
  obtain ⟨commas, last, lines, rowsOf⟩ := p.exists_rowsOf readable
  obtain ⟨listed, rfl, among, here⟩ := RowsOf.exists_listed (lines.symm.trans own) some
  have whole := p.holds readable
  have inside : ∀ r ∈ gap p.depth p.above ++ listed, r ∈ gap p.depth p.above ++ commas := by
    simp only [List.mem_append]
    exact fun r member => member.imp_right (among r)
  have isRow : ∀ r ∈ p.start ++ (gap p.depth p.above ++ listed), IsRow r := by
    refine List.forall_mem_append.mpr ⟨whole.isRow, fun r member => rowsOf.isRow p.above r ?_⟩
    rw [← List.append_assoc]
    exact List.mem_append_left _ (inside r member)
  refine ⟨listed, rfl, isRow, ?_, fun r member => ?_, rowsOf.exists_rowAt here⟩
  · rw [braceMarks_written isRow, List.flatMap_append, ← braceMarks_written whole.isRow, whole.braces,
      List.flatMap_eq_nil_iff.mpr fun r member => rowsOf.braceMarks_above p.above r (inside r member),
      List.append_nil]
  · obtain ⟨ls, rowAt, -⟩ := rowsOf.listed r (among r member)
    exact ⟨ls, rowAt⟩

/-- The first line of a row that is not empty is indented by the open blocks. -/
theorem indentedAt {part rest : List Text} {row : Text}
    (own : p.token.rows style p.depth p.above = part ++ row :: rest) (some : row ≠ []) :
    IndentedAt style (written (p.start ++ part)) (firstLine row) := by
  obtain ⟨-, -, isRow, above, -, content, rowAt, closings⟩ := p.exists_listed readable own some
  obtain ⟨text, indented, starts⟩ := rowAt.exists_firstLine
  -- The brace that closes a block stands alone in its row; no other row has one.
  have line : (braceMarks (lexemes (firstLine row))).count '\x7d' = (braces [p.token]).count '\x7d' := by
    by_cases closes : p.token = .closing
    · rw [closes, Token.rows, eq_comm, List.append_eq_singleton_iff] at own
      obtain ⟨-, alone, -⟩ : part = [] ∧ row = style.indent (p.depth - 1) ++ ['\x7d'] ∧ rest = [] := by
        simpa using own
      have single : '\n' ∉ row := by
        rw [alone, List.mem_append, not_or]
        exact ⟨newline_not_mem_indent style _, by decide⟩
      rw [firstLine_of_single single, rowAt.braceMarks_eq, closings]
    · have none : (braces [p.token]).count '\x7d' = 0 := p.token.count_braces closes
      have few := rowAt.count_firstLine_le '\x7d'
      omega
  refine ⟨p.token.level p.depth, text, indented, ?_, starts⟩
  have depth := p.laid.depth_eq
  have level := Token.level_eq p.inside
  rw [lexemes_written_append isRow, braceMarks_append, List.count_append, above, line]
  omega

end Place

end Whole

/-! ## Items at the top level -/

/-- Whether the last one of some tokens is there and is no comment. -/
def FollowsStatement (before : List Token) : Prop := ∃ x ∈ before.getLast?, x.isComment = false

/-- Where the item behind some tokens begins: behind a text that is read as those tokens, on a line
that is not empty. -/
structure BeginsAt (out : Text) (before : List Token) (above : Text) : Prop where
  line : ∃ line below, LineAt out above line below ∧ line ≠ []
  complete : Complete above
  tokens : tokens above = ⟨before, none⟩

theorem map_isComment_reread (parens : Nat) (ts : List Token) :
    (reread parens ts).map Token.isComment = ts.map Token.isComment := by
  induction ts generalizing parens with
  | nil => rfl
  | cons x rest ih =>
    rw [reread, List.map_cons, List.map_cons, ih]
    cases x <;> rfl

theorem length_reread (parens : Nat) (ts : List Token) : (reread parens ts).length = ts.length := by
  simpa using congrArg List.length (map_isComment_reread parens ts)

theorem followsStatement_iff {before : List Token} :
    FollowsStatement before ↔ (before.map Token.isComment).getLast? = some false := by
  simp [FollowsStatement, List.getLast?_map]

theorem followsStatement_reread {parens : Nat} {ts : List Token} :
    FollowsStatement (reread parens ts) ↔ FollowsStatement ts := by
  rw [followsStatement_iff, map_isComment_reread, ← followsStatement_iff]

theorem aboveBehind_eq_statement_iff {ts : List Token} :
    aboveBehind .nothing ts = .statement ↔ FollowsStatement ts := by
  unfold aboveBehind FollowsStatement
  cases ts.getLast? with
  | none => simp
  | some x => cases x <;> simp [Token.isComment]

theorem exists_reread_append (parens : Nat) (ts us : List Token) :
    ∃ inner, reread parens (ts ++ us) = reread parens ts ++ reread inner us := by
  induction ts generalizing parens with
  | nil => exact ⟨parens, rfl⟩
  | cons x rest ih =>
    obtain ⟨inner, same⟩ := ih (x.parensBehind parens)
    exact ⟨inner, congrArg (x.reread parens :: ·) same⟩

/-- A token that is read back is one of those that were written, and so are those before it. -/
theorem exists_of_reread_eq {parens : Nat} {ts before behind : List Token} {x : Token}
    (split : reread parens ts = before ++ x :: behind) :
    ∃ first y rest, ts = first ++ y :: rest ∧ before = reread parens first := by
  induction before generalizing parens ts with
  | nil =>
    cases ts with
    | nil => cases split
    | cons y rest => exact ⟨[], y, rest, rfl, rfl⟩
  | cons b more ih =>
    cases ts with
    | nil => cases split
    | cons y rest =>
      obtain ⟨rfl, inner⟩ := List.cons.inj split
      obtain ⟨first, z, others, rfl, rfl⟩ := ih inner
      exact ⟨y :: first, z, others, rfl, rfl⟩

/-- Behind a comma a statement is not at its end. -/
theorem fault_written_comma {style : Style} {depth : Nat} {rows : List Text} {row : Text}
    {ls : List Lexeme} (isRow : ∀ r ∈ rows, IsRow r)
    (rowAt : RowAt style depth row (ls ++ [.char ','])) :
    (tokens (written (rows ++ [row]))).fault ≠ none := by
  intro faultless
  have read : lexemes (written (rows ++ [row])) = lexemes (written rows) ++
      (indentLexemes style depth ++ ls) ++ [.char ',', .char '\n'] := by
    rw [written_append, lexemes_written_append isRow, written_cons,
      lexemes_written_cons rowAt.isRow.complete, rowAt.lexemes_eq]
    simp [written, lexemes, lexemesFrom]
  have good := fault_tokens.mp faultless
  have blank : isBlank ',' = false := by decide
  rw [read, sound_append_of_unsound fun _ _ => by simp [sound, blank]] at good
  cases good

namespace Place

variable {style : Style} {ts : List Token} {rows : List Text} (p : Place style 0 .nothing ts rows)

theorem depth_eq_zero (top : balanced 0 p.before = true) : p.depth = 0 := by
  simpa [p.laid.balanced_eq] using top

/-- The text above the rows of a token. -/
def textAbove : Text := written (p.start ++ gap p.depth p.above)

/-- At the top level a gap stands below a statement. -/
theorem gap_ne_nil_iff (top : p.depth = 0) : gap p.depth p.above ≠ [] ↔ FollowsStatement p.before := by
  rw [← aboveBehind_eq_statement_iff, ← p.laid.above_eq (by simp) top, gap]
  simp [top]

theorem textAbove_eq {q : Place style 0 .nothing ts rows} (top : p.depth = 0) (other : q.depth = 0)
    (same : p.before = q.before) : p.textAbove = q.textAbove := by
  have first := p.laid.linesFrom_eq top
  have second := q.laid.linesFrom_eq other
  rw [same, second] at first
  have above : p.above = q.above := by
    rw [p.laid.above_eq (by simp) top, q.laid.above_eq (by simp) other, same]
  rw [textAbove, textAbove, top, other, above, Except.ok.inj first]

theorem isRow_textAbove (readable : Readable 0 ts) : ∀ row ∈ p.start ++ gap p.depth p.above, IsRow row := by
  refine List.forall_mem_append.mpr ⟨(p.holds readable).isRow, fun row member => ?_⟩
  rw [eq_nil_of_mem_gap member]
  exact isRow_nil

variable (readable : Readable 0 ts) (top : p.depth = 0)
include readable top

/-- What stands above a token at the top level is read as the tokens before it. -/
theorem tokens_start : tokens (written p.start) = ⟨reread 0 p.before, none⟩ := by
  refine tokensFrom_written (p.laid.linesFrom_eq top) ?_ (.inl (by simp))
  refine readable_of_append (p.split ▸ readable) fun closes => ?_
  exact p.inside (by simpa using closes) top

theorem tokens_textAbove : tokens p.textAbove = ⟨reread 0 p.before, none⟩ := by
  have start := p.tokens_start readable top
  rcases gap_cases p.depth p.above with none | one
  · rw [textAbove, none, List.append_nil, start]
  · have faultless : (tokens (written p.start)).fault = .none := by rw [start]
    have newline : lexemes (written [[]]) = [.char '\n'] := by decide
    rw [textAbove, one, written_append, tokens, lexemes_written_append (p.holds readable).isRow,
      tokensFrom_append_of_fault faultless, ← tokens, start, newline, tokensFrom_newline]
    simp [tokensFrom, Tokens.prepend, Lexeme.isBlank, isBlank]

/-- The line above an item is empty where the item follows a statement. -/
theorem emptyAbove_iff : EmptyAbove p.textAbove ↔ FollowsStatement p.before := by
  rw [textAbove, emptyAbove_written_iff (p.isRow_textAbove readable), ← p.gap_ne_nil_iff top]
  rcases gap_cases p.depth p.above with none | one
  · simpa [none] using (p.holds readable).last
  · simp [one]

/-- An item at the top level begins a line. -/
theorem beginsAt : BeginsAt (written rows) (reread 0 p.before) p.textAbove := by
  obtain ⟨commas, last, lines, rowsOf⟩ := p.exists_rowsOf readable
  obtain ⟨row, rest, own⟩ : ∃ row rest, commas ++ [last] = row :: rest :=
    List.exists_cons_of_ne_nil (by simp)
  have here : row ∈ commas ∨ row = last := by simpa [← own] using (List.mem_cons_self : row ∈ row :: rest)
  obtain ⟨content, rowAt, -⟩ := rowsOf.exists_rowAt here
  have whole : p.start ++ gap p.depth p.above ++ row :: (rest ++ p.more) = rows := by
    refine Eq.trans ?_ p.lines.symm
    rw [lines, own]
    simp
  obtain ⟨below, lineAt⟩ := exists_lineAt (p.start ++ gap p.depth p.above) row (rest ++ p.more)
  rw [congrArg written whole] at lineAt
  exact ⟨⟨_, below, lineAt, rowAt.firstLine_ne_nil⟩, complete_written (p.isRow_textAbove readable),
    p.tokens_textAbove readable top⟩

end Place

section Whole

variable {style : Style} {final : Nat} {last : Above} {ts : List Token} {rows : List Text}
variable (laid : Laid style 0 .nothing ts rows final last) (readable : Readable 0 ts)
include laid readable

/-- A line that begins outside comments and strings is the first line of a row of a token. -/
theorem Laid.exists_line {above line below : Text} (lineAt : LineAt (written rows) above line below)
    (complete : Complete above) :
    ∃ (p : Place style 0 .nothing ts rows) (part rest : List Text) (row : Text),
      above = written (p.start ++ part) ∧ line = firstLine row ∧
        p.token.rows style p.depth p.above = part ++ row :: rest := by
  have whole : Readable 0 (ts ++ []) := by rwa [List.append_nil]
  obtain ⟨up, row, down, split, rfl⟩ := lineAt.exists_row (laid.holds whole).isRow complete
  have first : line = firstLine row := by
    subst split
    exact lineAt.eq_firstLine
  obtain ⟨p, part, rest, rfl, own⟩ := laid.exists_row split
  exact ⟨p, part, rest, row, rfl, first, own⟩

/-- An empty line stands in the gap above a token. -/
theorem Laid.exists_gap {above below : Text} (lineAt : LineAt (written rows) above [] below)
    (complete : Complete above) :
    ∃ p : Place style 0 .nothing ts rows, above = written p.start ∧ gap p.depth p.above = [[]] := by
  obtain ⟨p, part, rest, row, rfl, empty, own⟩ := laid.exists_line readable lineAt complete
  obtain ⟨commas, final, lines, rowsOf⟩ := p.exists_rowsOf readable
  have visible {mid : List Text} (split : commas ++ [final] = mid ++ row :: rest) : False := by
    have member : row ∈ commas ++ [final] := by simp [split]
    obtain ⟨content, rowAt, -⟩ := rowsOf.exists_rowAt (by simpa using member)
    exact rowAt.firstLine_ne_nil empty.symm
  rw [own] at lines
  rcases gap_cases p.depth p.above with none | one
  · rw [none] at lines
    exact (visible lines.symm).elim
  · rw [one] at lines
    cases part with
    | nil => exact ⟨p, by rw [List.append_nil], one⟩
    | cons r mid => exact (visible (List.cons.inj lines).2.symm).elim

/-- Where an item at the top level begins, the text above is what stands above a token. -/
theorem Laid.exists_place_of_beginsAt {before : List Token} {above : Text}
    (even : balanced 0 before = true) (begins : BeginsAt (written rows) before above) :
    ∃ p : Place style 0 .nothing ts rows, p.depth = 0 ∧ before = reread 0 p.before ∧
      above = p.textAbove := by
  obtain ⟨line, below, lineAt, some⟩ := begins.line
  obtain ⟨p, part, rest, row, rfl, rfl, own⟩ := laid.exists_line readable lineAt begins.complete
  have shown : row ≠ [] := by
    rintro rfl
    exact some rfl
  obtain ⟨listed, rfl, isRow, above, commas, -⟩ := p.exists_listed readable own shown
  have faultless : (tokens (written (p.start ++ (gap p.depth p.above ++ listed)))).fault = none := by
    rw [begins.tokens]
  -- The braces above the line are those of the tokens before, so no block is open there.
  have top : p.depth = 0 := by
    have same := braces_tokensFrom faultless
    rw [← tokens, begins.tokens, above] at same
    refine p.depth_eq_zero ?_
    rw [balanced_eq_nested] at even ⊢
    rwa [← same]
  -- Below a row that ends with a comma a statement has begun, and no item begins there.
  cases listed using List.reverseRecOn with
  | nil =>
    rw [List.append_nil] at begins ⊢
    refine ⟨p, top, ?_, rfl⟩
    have read := begins.tokens.symm.trans (p.tokens_textAbove readable top)
    exact congrArg Tokens.items read
  | append_singleton front r =>
    obtain ⟨ls, rowAt⟩ := commas r (by simp)
    rw [← List.append_assoc, ← List.append_assoc] at faultless isRow
    have others := (List.forall_mem_append.mp isRow).1
    exact absurd faultless (fault_written_comma others rowAt)

/-- An item at the top level begins in one place only. -/
theorem Laid.eq_of_beginsAt {before : List Token} {above other : Text}
    (even : balanced 0 before = true) (begins : BeginsAt (written rows) before above)
    (again : BeginsAt (written rows) before other) : above = other := by
  obtain ⟨p, top, first, rfl⟩ := laid.exists_place_of_beginsAt readable even begins
  obtain ⟨q, level, second, rfl⟩ := laid.exists_place_of_beginsAt readable even again
  have long := congrArg List.length (first.symm.trans second)
  rw [length_reread, length_reread] at long
  exact p.textAbove_eq top level (List.append_inj_left (p.split.symm.trans q.split) long)

/-- A line that is not empty is indented by the blocks that are open there. -/
theorem Laid.indentedAt {above line below : Text} (lineAt : LineAt (written rows) above line below)
    (complete : Complete above) (some : line ≠ []) : IndentedAt style above line := by
  obtain ⟨p, part, rest, row, rfl, rfl, own⟩ := laid.exists_line readable lineAt complete
  refine p.indentedAt readable own ?_
  rintro rfl
  exact some rfl

/-- An item at the top level begins in one place, below an empty line where it follows a statement. -/
theorem Laid.exists_beginsAt {before behind : List Token} {x : Token}
    (split : reread 0 ts = before ++ x :: behind) (even : balanced 0 before = true) :
    ∃ above, (∀ other, BeginsAt (written rows) before other ↔ other = above) ∧
      (EmptyAbove above ↔ FollowsStatement before) := by
  obtain ⟨first, y, others, own, rfl⟩ := exists_of_reread_eq split
  obtain ⟨p, rfl, -⟩ := laid.exists_place own
  have top : p.depth = 0 := by
    rw [balanced_reread] at even
    exact p.depth_eq_zero even
  have begins := p.beginsAt readable top
  refine ⟨p.textAbove, fun other => ⟨fun again => ?_, fun same => same ▸ begins⟩, ?_⟩
  · exact laid.eq_of_beginsAt readable even again begins
  · rw [followsStatement_reread]
    exact p.emptyAbove_iff readable top

/-- Below an empty line begins an item at the top level that follows a statement, and above it is no
other empty line. -/
theorem Laid.beginsAt_of_empty {above below : Text} (lineAt : LineAt (written rows) above [] below)
    (complete : Complete above) : ¬ EmptyAbove above ∧ ∃ before x behind,
      reread 0 ts = before ++ x :: behind ∧ balanced 0 before = true ∧ FollowsStatement before ∧
        BeginsAt (written rows) before (above ++ ['\n']) := by
  obtain ⟨p, rfl, gap⟩ := laid.exists_gap readable lineAt complete
  have top : p.depth = 0 := by
    by_contra inner
    simp [Stylesheet.gap, inner] at gap
  have start := p.holds readable
  have below : written p.start ++ ['\n'] = p.textAbove := by
    rw [Place.textAbove, gap, written_append]
    rfl
  obtain ⟨parens, split⟩ := exists_reread_append 0 p.before (p.token :: p.behind)
  rw [← p.split] at split
  refine ⟨?_, reread 0 p.before, _, _, split, ?_, ?_, ?_⟩
  · rw [emptyAbove_written_iff start.isRow]
    exact start.last
  · rw [balanced_reread, p.laid.balanced_eq, top]
    rfl
  · rw [followsStatement_reread, ← p.gap_ne_nil_iff top, gap]
    exact List.cons_ne_nil _ _
  · rw [below]
    exact p.beginsAt readable top

end Whole

/-- Rows end in exactly one newline. -/
theorem Holds.ending {ts : List Token} {rows : List Text} (whole : Holds ts rows) :
    written rows = [] ∨ ∃ front c, written rows = front ++ [c, '\n'] ∧ c ≠ '\n' := by
  cases rows using List.reverseRecOn with
  | nil => exact .inl rfl
  | append_singleton up row =>
    have shown : row ≠ [] := by simpa using whole.last
    obtain ⟨front, c, rfl⟩ := (List.eq_nil_or_concat row).resolve_left shown
    have ends := (whole.isRow (front ++ [c]) (by simp)).getLast?
    refine .inr ⟨written up ++ front, c, by simp [written], ?_⟩
    rintro rfl
    simp at ends

/-- A layout has the items of the text, and is empty or ends in exactly one newline. A line that begins
outside comments and strings and is not empty is indented by the blocks that are open there. Every
item at the top level begins in one place, with an empty line above it exactly where it follows a
statement, and every empty line outside comments and strings is that line of such an item. -/
theorem format_canonical {style : Style} {t out : Text} (accepted : format style t = .ok out) :
    items out = reread 0 (items t) ∧
    (out = [] ∨ ∃ front c, out = front ++ [c, '\n'] ∧ c ≠ '\n') ∧
    (∀ above line below, LineAt out above line below → Complete above → line ≠ [] →
      IndentedAt style above line) ∧
    (∀ before x behind, items out = before ++ x :: behind → balanced 0 before = true →
      ∃ above, (∀ other, BeginsAt out before other ↔ other = above) ∧
        (EmptyAbove above ↔ FollowsStatement before)) ∧
    ∀ above below, LineAt out above [] below → Complete above → ¬ EmptyAbove above ∧
      ∃ before x behind, items out = before ++ x :: behind ∧ balanced 0 before = true ∧
        FollowsStatement before ∧ BeginsAt out before (above ++ ['\n']) := by
  obtain ⟨faultless, readable⟩ := fault_of_format accepted
  have read : items out = reread 0 (items t) := congrArg Tokens.items (tokens_of_format accepted)
  obtain ⟨rows, lines, rfl⟩ := format_eq_ok_iff.mp accepted
  rw [faultless] at lines
  obtain ⟨last, laid⟩ := exists_laid lines
  have all : Readable 0 ((tokens t).items ++ []) := by rwa [List.append_nil]
  rw [read]
  refine ⟨rfl, (laid.holds all).ending, ?indented, ?placed, ?spaced⟩
  case indented => exact fun above line below => laid.indentedAt readable
  case placed => exact fun before x behind => laid.exists_beginsAt readable
  case spaced => exact fun above below => laid.beginsAt_of_empty readable

theorem format_canonical_rules :
    format .standard "a\x7b\x7db\x7b\x7d" = .ok ("a \x7b\n\x7d\n\nb \x7b\n\x7d\n" : Text) ∧
      ∃ above, (∀ other, BeginsAt "a \x7b\n\x7d\n\nb \x7b\n\x7d\n" [.opening "a", .closing] other ↔
        other = above) ∧ EmptyAbove above := by
  have accepted :
      format .standard "a\x7b\x7db\x7b\x7d" = .ok ("a \x7b\n\x7d\n\nb \x7b\n\x7d\n" : Text) := by
    decide
  obtain ⟨-, -, -, placed, -⟩ := format_canonical accepted
  obtain ⟨above, only, spaced⟩ :=
    placed [.opening "a", .closing] (.opening "b") [.closing] (by decide) (by decide)
  exact ⟨accepted, above, only, spaced.mpr ⟨.closing, rfl, rfl⟩⟩

end StaticSite.Stylesheet
