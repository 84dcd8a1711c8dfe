import StaticSite.Proofs.Stylesheet.Rereading

/-! # Layouts of layouts

Whether tokens have a layout depends on their braces alone, so a text that has a layout in one style
has one in every style. The layout is read as the same tokens, tidied, and laying those out gives
what laying out the first ones gives. Where a block closes while a statement leaves a parenthesis
open, each layout adds one more semicolon.
-/

namespace StaticSite.Stylesheet

theorem format_eq_ok_iff {style : Style} {t out : Text} :
    format style t = .ok out ↔ ∃ lines, linesFrom style (tokens t).fault 0 .nothing (tokens t).items =
      .ok lines ∧ written lines = out := by
  rw [format, layoutLines]
  cases linesFrom style (tokens t).fault 0 .nothing (tokens t).items with
  | error fault => simp [Except.map]
  | ok lines => simp [Except.map, page_eq_written]

/-- Whether the braces of tokens are in balance. -/
def balanced (depth : Nat) : List Token → Bool
  | [] => depth == 0
  | .closing :: rest =>
      match depth with
      | 0 => false
      | outer + 1 => balanced outer rest
  | .opening _ :: rest => balanced (depth + 1) rest
  | .declaration _ :: rest | .comment _ :: rest => balanced depth rest

/-- Tokens have a layout exactly when they have no fault and their braces are in balance. -/
theorem exists_linesFrom_iff (style : Style) (fault : Option Fault) (depth : Nat) (above : Above)
    (ts : List Token) :
    (∃ lines, linesFrom style fault depth above ts = .ok lines) ↔
      fault = none ∧ balanced depth ts = true := by
  have mapped {f : List Text → List Text} {laid : Except Fault (List Text)} :
      (∃ lines, laid.map f = .ok lines) ↔ ∃ lines, laid = .ok lines := by
    cases laid <;> simp [Except.map]
  induction ts generalizing depth above with
  | nil =>
    cases fault with
    | none => by_cases zero : depth = 0 <;> simp [linesFrom, balanced, zero]
    | some f => simp [linesFrom]
  | cons token rest ih =>
    cases token with
    | closing =>
      cases depth with
      | zero => simp [linesFrom, balanced]
      | succ outer =>
        rw [linesFrom, mapped, balanced]
        exact ih outer above
    | _ =>
      rw [linesFrom, mapped, balanced]
      exact ih _ _

theorem balanced_reread (depth parens : Nat) (ts : List Token) :
    balanced depth (reread parens ts) = balanced depth ts := by
  induction ts generalizing depth parens with
  | nil => rfl
  | cons token rest ih =>
    cases token with
    | closing =>
      cases depth with
      | zero => rfl
      | succ outer => exact ih outer _
    | _ => exact ih _ _

/-- Lines that are written again, `m` characters longer at the start and `n` behind it. -/
theorem exists_lines_again (before : List Text) {again lines : List Text}
    {first second : Except Fault (List Text)} {m n : Nat} (laid : first.map (before ++ ·) = .ok lines)
    (longer : (written again).length = (written before).length + m) (same : m = 0 → again = before)
    (inner : ∀ more, first = .ok more → ∃ others, second = .ok others ∧
      (written others).length = (written more).length + n ∧ (n = 0 → others = more)) :
    ∃ result, second.map (again ++ ·) = .ok result ∧
      (written result).length = (written lines).length + (m + n) ∧ (m + n = 0 → result = lines) := by
  obtain ⟨more, read, rfl⟩ := exists_lines before laid
  obtain ⟨others, rfl, count, unchanged⟩ := inner more read
  refine ⟨again ++ others, rfl, ?_, fun none => ?_⟩
  · simp only [written_append, List.length_append, longer, count]
    omega
  · rw [same (by omega), unchanged (by omega)]

/-- Laying out what is read back differs by one semicolon for each declaration that leaves a
parenthesis open. -/
theorem exists_linesFrom_reread {style : Style} {depth : Nat} {above : Above} {ts : List Token}
    {lines : List Text} (laid : linesFrom style none depth above ts = .ok lines) {parens : Nat}
    (readable : Readable parens ts) :
    ∃ again, linesFrom style none depth above (reread parens ts) = .ok again ∧
      (written again).length = (written lines).length + unclosed parens ts ∧
      (unclosed parens ts = 0 → again = lines) := by
  induction ts generalizing depth above lines parens with
  | nil => exact ⟨lines, laid, rfl, fun _ => rfl⟩
  | cons token rest ih =>
    cases token with
    | closing =>
      cases depth with
      | zero => cases laid
      | succ outer =>
        rw [linesFrom] at laid
        have again := exists_lines_again (m := 0) [style.indent outer ++ ['\x7d']] laid
          rfl (fun _ => rfl) fun more inner => ih inner readable
        rwa [Nat.zero_add] at again
    | comment t =>
      rw [linesFrom] at laid
      have again := exists_lines_again (m := 0) _ laid rfl (fun _ => rfl)
        fun more inner => ih inner readable.2
      rwa [Nat.zero_add] at again
    | opening start =>
      obtain ⟨statement, later⟩ := readable
      have lines : openingLines style depth (tidiedPrelude start) = openingLines style depth start := by
        have same := openingLines_tidiedPrelude statement.phrasal style depth
        rwa [flatMap_text_lexemes] at same
      rw [linesFrom] at laid
      have again := exists_lines_again (m := 0) _ laid rfl (fun _ => rfl)
        fun more inner => ih inner later
      rw [Nat.zero_add] at again
      rw [reread, Token.reread, Token.tidied, linesFrom, lines]
      · exact again
      · intro t declaration
        cases declaration
    | declaration t =>
      obtain ⟨statement, -, later⟩ := readable
      rw [linesFrom] at laid
      rw [reread, Token.reread, linesFrom]
      by_cases closed : openAfter parens t = 0
      · have text := declarationText_tidiedDeclaration statement.head
        have again := exists_lines_again (m := 0) _ laid rfl (fun _ => rfl)
          fun more inner => ih inner later
        rw [if_pos closed, text, unclosed, if_pos closed]
        exact again
      · have text := declarationText_declarationText statement.head statement.ne_nil
        have longer : (written (gap depth above ++
            [style.indent depth ++ (declarationText t ++ [';'])])).length =
            (written (gap depth above ++ [style.indent depth ++ declarationText t])).length + 1 := by
          simp [written]
          omega
        have again := exists_lines_again (m := 1) _ laid longer (by simp)
          fun more inner => ih inner later
        rw [if_neg closed, text, unclosed, if_neg closed]
        exact again

/-! ## Texts -/

/-- A text that has a layout has readable tokens. -/
theorem fault_of_format {style : Style} {t out : Text} (accepted : format style t = .ok out) :
    (tokens t).fault = none ∧ Readable 0 (tokens t).items := by
  obtain ⟨lines, laid, -⟩ := format_eq_ok_iff.mp accepted
  obtain ⟨sound, -⟩ := (exists_linesFrom_iff _ _ _ _ _).mp ⟨lines, laid⟩
  exact ⟨sound, (readable_tokens sound).1⟩

/-- The layout of a text is read as the tokens of that text. -/
theorem tokens_of_format {style : Style} {t out : Text} (accepted : format style t = .ok out) :
    tokens out = ⟨reread 0 (tokens t).items, none⟩ := by
  obtain ⟨sound, readable⟩ := fault_of_format accepted
  obtain ⟨lines, laid, rfl⟩ := format_eq_ok_iff.mp accepted
  rw [sound] at laid
  exact tokensFrom_written laid readable (.inl (by simp))

/-- A text that has a layout in one style has one in every style. -/
theorem exists_format {first : Style} {t out : Text} (accepted : format first t = .ok out)
    (style : Style) : ∃ other, format style t = .ok other := by
  obtain ⟨lines, laid, -⟩ := format_eq_ok_iff.mp accepted
  have balance := (exists_linesFrom_iff _ _ _ _ _).mp ⟨lines, laid⟩
  obtain ⟨others, again⟩ := (exists_linesFrom_iff style _ 0 .nothing _).mpr balance
  exact ⟨_, format_eq_ok_iff.mpr ⟨others, again, rfl⟩⟩

/-- A layout can be laid out once more, and stays as it is exactly when no block closes while a
statement in it leaves a parenthesis open. -/
theorem format_format_iff {style : Style} {t out : Text} (accepted : format style t = .ok out) :
    ∃ again, format style out = .ok again ∧
      (again = out ↔ finishes false 0 (lexemes t) = true) := by
  obtain ⟨sound, readable⟩ := fault_of_format accepted
  have read := tokens_of_format accepted
  obtain ⟨lines, laid, rfl⟩ := format_eq_ok_iff.mp accepted
  rw [sound] at laid
  obtain ⟨again, kept, longer, same⟩ := exists_linesFrom_reread laid readable
  refine ⟨written again, format_eq_ok_iff.mpr ⟨again, by rw [read]; exact kept, rfl⟩, ?_⟩
  rw [← (readable_tokens sound).2]
  constructor
  · intro stable
    rw [stable] at longer
    omega
  · intro closed
    rw [same closed]

/-- A parenthesis that is left open takes the semicolon that is written behind it. -/
theorem format_format_open :
    ∃ out again, format .standard "a\x7bb:(\x7d" = .ok out ∧ format .standard out = .ok again ∧
      again ≠ out :=
  ⟨"a \x7b\n  b: (;\n\x7d\n", "a \x7b\n  b: (;;\n\x7d\n", by decide, by decide, by decide⟩

theorem format_format_iff_open :
    format .standard "a\x7bb:(\x7d" = .ok ("a \x7b\n  b: (;\n\x7d\n" : Text) ∧
      ∃ again, format .standard "a \x7b\n  b: (;\n\x7d\n" = .ok again ∧
        (again = ("a \x7b\n  b: (;\n\x7d\n" : Text) ↔
          finishes false 0 (lexemes "a\x7bb:(\x7d") = true) :=
  have accepted : format .standard "a\x7bb:(\x7d" = .ok ("a \x7b\n  b: (;\n\x7d\n" : Text) := by decide
  ⟨accepted, format_format_iff accepted⟩

/-- Where every parenthesis is closed before the next brace, the layout in any style is read as the
same tokens, tidied, and laying it out in another style gives what that style gives directly. -/
theorem tokens_format {first : Style} {t out : Text} (accepted : format first t = .ok out)
    (closes : closesParens 0 (lexemes t) = true) (style : Style) :
    ∃ laid, format style t = .ok laid ∧ (tokens t).fault = none ∧
      tokens laid = ⟨(tokens t).items.map Token.tidied, none⟩ ∧
      ∀ other, ∃ direct, format other t = .ok direct ∧ format other laid = .ok direct := by
  obtain ⟨laid, made⟩ := exists_format accepted style
  obtain ⟨sound, readable⟩ := fault_of_format made
  have closed : unclosed 0 (tokens t).items = 0 :=
    (readable_tokens sound).2.mpr (finishes_of_closesParens closes)
  have read := tokens_of_format made
  refine ⟨laid, made, sound, by rw [read, reread_of_unclosed closed], fun other => ?_⟩
  obtain ⟨direct, there⟩ := exists_format accepted other
  refine ⟨direct, there, ?_⟩
  obtain ⟨lines, written, rfl⟩ := format_eq_ok_iff.mp there
  rw [sound] at written
  obtain ⟨again, kept, -, same⟩ := exists_linesFrom_reread written readable
  exact format_eq_ok_iff.mpr ⟨again, by rw [read]; exact kept, by rw [same closed]⟩

theorem tokens_format_tabs :
    format .standard "a,b\x7bc :url(d)\x7d" = .ok ("a, b \x7b\n  c: url(d);\n\x7d\n" : Text) ∧
      closesParens 0 (lexemes "a,b\x7bc :url(d)\x7d") = true ∧
      ∃ laid, format .tabs "a,b\x7bc :url(d)\x7d" = .ok laid ∧
        (tokens "a,b\x7bc :url(d)\x7d").fault = none ∧
        tokens laid = ⟨(tokens "a,b\x7bc :url(d)\x7d").items.map Token.tidied, none⟩ ∧
        ∀ other, ∃ direct, format other "a,b\x7bc :url(d)\x7d" = .ok direct ∧
          format other laid = .ok direct :=
  have accepted :
      format .standard "a,b\x7bc :url(d)\x7d" = .ok ("a, b \x7b\n  c: url(d);\n\x7d\n" : Text) := by
    decide
  have closes : closesParens 0 (lexemes "a,b\x7bc :url(d)\x7d") = true := by decide
  ⟨accepted, closes, tokens_format accepted closes .tabs⟩

end StaticSite.Stylesheet
