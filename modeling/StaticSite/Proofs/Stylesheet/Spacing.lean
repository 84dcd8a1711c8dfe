import StaticSite.Proofs.Stylesheet.Soundness
import StaticSite.Proofs.Text.Words

/-! # Nothing is lost in a layout

A layout holds the characters of the stylesheet in their order, blanks and semicolons apart. Each
token is written where it is read, with blanks and semicolons around it, and within a prelude or a
declaration blanks stand between the same characters: only around the commas that separate selectors
and around the first colon of a declaration they may come or go.
-/

namespace StaticSite.Stylesheet

open Text (words)

/-! ## Tokens in their text -/

/-- The characters of a text that are neither blanks nor semicolons. -/
def bare (t : Text) : Text := t.filter fun c => !isBlank c && c != ';'

/-- A text of blanks and semicolons. -/
def Idle (t : Text) : Prop := bare t = []

/-- Tokens written in a row, with blanks and semicolons around them. `own` tells the texts that a
token may be written as. -/
inductive Strewn (own : Token → Text → Prop) : List Token → Text → Prop
  | nil {t} (idle : Idle t) : Strewn own [] t
  | cons {token ts before t rest} (idle : Idle before) (here : own token t)
      (later : Strewn own ts rest) : Strewn own (token :: ts) (before ++ t ++ rest)

/-- Tokens written in a row in two texts, with blanks and semicolons around them in either. `own`
tells the pairs of texts that a token may be written as. -/
inductive Aligned (own : Token → Text → Text → Prop) : List Token → Text → Text → Prop
  | nil {s t} (first : Idle s) (second : Idle t) : Aligned own [] s t
  | cons {token ts before after s t rest more} (first : Idle before) (second : Idle after)
      (here : own token s t) (later : Aligned own ts rest more) :
      Aligned own (token :: ts) (before ++ s ++ rest) (after ++ t ++ more)

theorem bare_append (s t : Text) : bare (s ++ t) = bare s ++ bare t := List.filter_append ..

theorem idle_append {s t : Text} : Idle (s ++ t) ↔ Idle s ∧ Idle t := by
  rw [Idle, bare_append, List.append_eq_nil_iff]
  rfl

theorem idle_of_blanks {t : Text} (blanks : ∀ c ∈ t, isBlank c = true) : Idle t := by
  rw [Idle, bare, List.filter_eq_nil_iff]
  simpa using fun c member visible => absurd (blanks c member) (by simp [visible])

namespace Strewn

variable {own : Token → Text → Prop} {ts : List Token} {t : Text}

/-- Blanks and semicolons in front make no difference. -/
theorem idle_append {before : Text} (idle : Idle before) (strewn : Strewn own ts t) :
    Strewn own ts (before ++ t) := by
  cases strewn with
  | nil rest => exact .nil (Stylesheet.idle_append.mpr ⟨idle, rest⟩)
  | @cons token ts front t rest inner here later =>
    rw [List.append_assoc, ← List.append_assoc before, ← List.append_assoc]
    exact .cons (Stylesheet.idle_append.mpr ⟨idle, inner⟩) here later

theorem here {token : Token} {s : Text} (first : own token s) (later : Strewn own ts t) :
    Strewn own (token :: ts) (s ++ t) := @Strewn.cons own token ts [] s t rfl first later

/-- Two texts in which the same tokens stand are aligned. -/
theorem aligned {other : Token → Text → Prop} {pair : Token → Text → Text → Prop} {out : Text}
    (joint : ∀ token s w, own token s → other token w → pair token s w)
    (first : Strewn own ts t) (second : Strewn other ts out) : Aligned pair ts t out := by
  induction first generalizing out with
  | nil idle =>
    cases second with
    | nil rest => exact .nil idle rest
  | cons idle source later ih =>
    cases second with
    | cons rest target more => exact .cons idle rest (joint _ _ _ source target) (ih more)

end Strewn

/-- Aligned texts have the same characters where the texts of each token have. -/
theorem Aligned.bare_eq {own : Token → Text → Text → Prop}
    (same : ∀ token s t, own token s t → bare s = bare t) {ts : List Token} {s t : Text}
    (aligned : Aligned own ts s t) : bare s = bare t := by
  induction aligned with
  | nil first second => exact first.trans second.symm
  | cons first second here later ih =>
    rw [bare_append, bare_append, bare_append, bare_append, first, second, same _ _ _ here, ih]

/-! ## The same spacing -/

/-- The texts are those of one token, and blanks stand between the same characters: everywhere in an
at-rule, within each selector of another prelude, and on either side of the first colon in a
declaration. -/
def Token.Keeps : Token → Text → Text → Prop
  | .opening start, s, t => ∃ raw laid, s = raw ++ ['\x7b'] ∧ t = laid ++ ['\x7b'] ∧
      phrase (lexemes raw) = start ∧
      if isAtRule start then words raw = words laid
      else (selectors raw).map words = (selectors laid).map words
  | .closing, s, t => s = ['\x7d'] ∧ t = ['\x7d']
  | .comment c, s, t => s = c ∧ t = c
  | .declaration d, s, t => phrase (lexemes s) = d ∧
      if isAtRule d || !d.elem ':' then words s = words t
      else ∃ name value written laid, s = name ++ ':' :: value ∧ t = written ++ ':' :: laid ∧
        ':' ∉ name ∧ words name = words written ∧ words value = words laid

theorem bare_eq_filter_words (t : Text) : bare t = (words t).flatten.filter (· != ';') := by
  rw [Text.flatten_words, List.filter_filter, bare]
  exact List.filter_congr fun c _ => Bool.and_comm ..

theorem bare_of_words {s t : Text} (same : words s = words t) : bare s = bare t := by
  rw [bare_eq_filter_words, same, ← bare_eq_filter_words]

theorem bare_joinWith (separator : Text) (ps : List Text) :
    bare (Text.joinWith separator ps) = Text.joinWith (bare separator) (ps.map bare) := by
  induction ps with
  | nil => rfl
  | cons p rest ih =>
    cases rest with
    | nil => rfl
    | cons q more =>
      have step := congrArg (bare p ++ bare separator ++ ·) ih
      simpa [Text.joinWith, bare_append] using step

/-- The characters of a selector list are those of its selectors, with commas between them. -/
theorem bare_eq_joinWith (t : Text) : bare t = Text.joinWith [','] ((selectors t).map bare) := by
  have joined := joinWith_partsFrom [] 0 (lexemes t)
  rw [List.reverse_nil, List.nil_append, flatMap_text_lexemes] at joined
  have trimmed (p : Text) : bare p.trim = bare p := bare_of_words (Text.words_trim p)
  have comma : bare [','] = [','] := by decide
  rw [← joined, bare_joinWith, comma, joined, selectors, List.map_map]
  exact congrArg _ (List.map_congr_left fun p _ => (trimmed p).symm)

theorem bare_of_selectors {s t : Text}
    (same : (selectors s).map words = (selectors t).map words) : bare s = bare t := by
  have each (u : Text) : (selectors u).map bare =
      ((selectors u).map words).map fun ws => ws.flatten.filter (· != ';') := by
    rw [List.map_map]
    exact List.map_congr_left fun p _ => bare_eq_filter_words p
  rw [bare_eq_joinWith, each, same, ← each, ← bare_eq_joinWith]

/-- What keeps the spacing keeps the characters. -/
theorem Token.Keeps.bare_eq {token : Token} {s t : Text} (keeps : token.Keeps s t) :
    bare s = bare t := by
  cases token with
  | opening start =>
    obtain ⟨raw, laid, rfl, rfl, -, spaced⟩ := keeps
    rw [bare_append, bare_append]
    split at spaced
    · rw [bare_of_words spaced]
    · rw [bare_of_selectors spaced]
  | closing => rw [keeps.1, keeps.2]
  | comment c => rw [keeps.1, keeps.2]
  | declaration d =>
    obtain ⟨-, spaced⟩ := keeps
    split at spaced
    · exact bare_of_words spaced
    · obtain ⟨name, value, written, laid, rfl, rfl, -, left, right⟩ := spaced
      have colon (u : Text) : bare (':' :: u) = ':' :: bare u := rfl
      rw [bare_append, bare_append, colon, colon, bare_of_words left, bare_of_words right]

/-! ## The words of selectors -/

theorem squeezed_joined_comma (after : Bool) (p : List Lexeme) (ps : List (List Lexeme)) :
    squeezed after (joined [.char ','] (p :: ps)) =
      joined [.char ','] (squeezed after p :: ps.map (squeezed false)) := by
  induction ps generalizing after p with
  | nil => rfl
  | cons q rest ih =>
    have comma : (Lexeme.char ',').isBlank = false := rfl
    rw [joined_cons, List.append_assoc, squeezed_append, List.singleton_append, squeezed,
      if_neg (by simp [comma]), ih, List.map_cons, joined_cons, List.append_assoc]
    rfl

theorem delimiters_squeezed (after : Bool) (ls : List Lexeme) :
    delimiters (squeezed after ls) = delimiters ls :=
  filterMap_squeezed (fun _ => Lexeme.delimiter?_of_isBlank) after ls

/-- The words of each selector in lexemes. -/
def selectorWords (ls : List Lexeme) : List (List Text) := (partsFrom [] 0 ls).map words

theorem map_words_selectors (t : Text) : (selectors t).map words = selectorWords (lexemes t) := by
  rw [selectors, selectorWords, List.map_map]
  exact List.map_congr_left fun p _ => Text.words_trim p

theorem selectorWords_joined {p : List Lexeme} {ps : List (List Lexeme)}
    (pieces : Pieces 0 ((p :: ps).map delimiters)) :
    selectorWords (joined [.char ','] (p :: ps)) =
      (p :: ps).map fun q => words (q.flatMap Lexeme.text) := by
  rw [selectorWords, partsFrom_joined pieces]
  simp

theorem selectorWords_squeezed (ls : List Lexeme) :
    selectorWords (squeezed false ls) = selectorWords ls := by
  obtain ⟨p, ps, pieces, rfl⟩ := exists_pieces 0 ls
  have same : ((squeezed false p :: ps.map (squeezed false)).map delimiters) =
      (p :: ps).map delimiters := by
    simp [delimiters_squeezed]
  rw [squeezed_joined_comma, selectorWords_joined (by rwa [same]), selectorWords_joined pieces]
  simp [words_squeezed]

/-- Blanks in front of a selector list are blanks in front of its first selector. -/
theorem selectorWords_blanks_append {bs : List Lexeme} (blanks : ∀ b ∈ bs, b.isBlank = true)
    (ls : List Lexeme) : selectorWords (bs ++ ls) = selectorWords ls := by
  obtain ⟨p, ps, pieces, rfl⟩ := exists_pieces 0 ls
  have none : delimiters bs = [] := delimiters_of_blanks blanks
  have front : bs ++ joined [.char ','] (p :: ps) = joined [.char ','] ((bs ++ p) :: ps) := by
    cases ps <;> simp [joined]
  have same : ((bs ++ p) :: ps).map delimiters = (p :: ps).map delimiters := by
    simp [delimiters, List.filterMap_append] at none ⊢
    simpa using none
  rw [front, selectorWords_joined (by rwa [same]), selectorWords_joined pieces, List.map_cons,
    List.flatMap_append, Text.words_blanks_append (isBlank_of_mem_text blanks), List.map_cons]

theorem selectorWords_append_blanks {bs : List Lexeme} (blanks : ∀ b ∈ bs, b.isBlank = true)
    (ls : List Lexeme) : selectorWords (ls ++ bs) = selectorWords ls := by
  have same := congrArg (List.map words) (trim_partsFrom_append bs blanks [] 0 ls)
  have untrimmed : words ∘ Text.trim = words := funext Text.words_trim
  rwa [List.map_map, List.map_map, untrimmed] at same

/-- The selectors of a phrase have the words of those in the text that it is read from. -/
theorem selectorWords_tightened (ls : List Lexeme) :
    selectorWords (tightened ls) = selectorWords ls := by
  rw [tightened, apply_trimmed (fun _ => selectorWords_blanks_append)
    (fun _ => selectorWords_append_blanks), selectorWords_squeezed]

theorem selectorWords_phrase {ls : List Lexeme} (lexed : Lexed ls) :
    selectorWords (lexemes (phrase ls)) = selectorWords ls := by
  rw [lexemes_phrase lexed, selectorWords_tightened]

/-! ## Where tokens are read -/

/-- A text that a token is read from. -/
def Token.ReadFrom : Token → Text → Prop
  | .opening start, s => ∃ raw, s = raw ++ ['\x7b'] ∧ Lexed (lexemes raw) ∧ phrase (lexemes raw) = start
  | .closing, s => s = ['\x7d']
  | .comment c, s => s = c
  | .declaration d, s => phrase (lexemes s) = d

/-- The pending statement stands in front of what is read behind it. -/
theorem Strewn.consDeclaration {pending : List Lexeme} (lexed : Lexed pending.reverse)
    {rest : Tokens} {t : Text} (strewn : Strewn Token.ReadFrom rest.items t) :
    Strewn Token.ReadFrom (rest.consDeclaration pending).items
      (pending.reverse.flatMap Lexeme.text ++ t) := by
  by_cases blanks : ∀ l ∈ pending, l.isBlank = true
  · rw [Tokens.consDeclaration_of_blanks blanks]
    exact strewn.idle_append (idle_of_blanks (isBlank_of_mem_text (by simpa using blanks)))
  · rw [Tokens.consDeclaration_of_visible blanks]
    refine .here (t := t) ?_ strewn
    rw [Token.ReadFrom, lexemes_flatMap_text lexed]

/-- The tokens stand in the text that they are read from. -/
theorem strewn_tokensFrom {pending ls : List Lexeme} {parens : Nat}
    (lexed : Lexed (pending.reverse ++ ls))
    (none : (tokensFrom pending parens ls).fault = none) :
    Strewn Token.ReadFrom (tokensFrom pending parens ls).items
      ((pending.reverse ++ ls).flatMap Lexeme.text) := by
  have front {pending ls : List Lexeme} (lexed : Lexed (pending.reverse ++ ls)) :
      Lexed pending.reverse := lexed.within (List.prefix_append _ _).isInfix
  have text (pending : List Lexeme) (l : Lexeme) (rest : List Lexeme) :
      (pending.reverse ++ l :: rest).flatMap Lexeme.text =
        pending.reverse.flatMap Lexeme.text ++ (l.text ++ rest.flatMap Lexeme.text) := by
    rw [List.flatMap_append, List.flatMap_cons]
  have idle {pending : List Lexeme} (blanks : pending.all Lexeme.isBlank = true) :
      Idle (pending.reverse.flatMap Lexeme.text) :=
    idle_of_blanks (isBlank_of_mem_text (by simpa using blanks))
  fun_induction tokensFrom pending parens ls with
  | case1 pending parens blank =>
    rw [List.append_nil]
    exact .nil (idle blank)
  | case2 => cases none
  | case3 => cases none
  | case4 => cases none
  | case5 pending parens body rest blank ih =>
    rw [text]
    exact .idle_append (idle blank) (.here rfl (ih lexed.behind none))
  | case6 pending parens body rest visible ih => simpa using ih (by simpa using lexed) none
  | case7 pending parens quote body rest ih => simpa using ih (by simpa using lexed) none
  | case8 => cases none
  | case9 pending parens rest start some =>
    rename_i ih
    have later := ih lexed.behind none
    rw [text, ← List.append_assoc]
    have back := lexemes_flatMap_text (front lexed)
    exact .here ⟨_, rfl, by rw [back]; exact front lexed, by rw [back]⟩ later
  | case10 pending parens rest notOpening ih =>
    rw [Tokens.fault_consDeclaration] at none
    rw [text]
    exact .consDeclaration (front lexed) (.here rfl (ih lexed.behind none))
  | case11 pending parens c rest notOpening notClosing ends ih =>
    rw [Tokens.fault_consDeclaration] at none
    obtain ⟨rfl, -⟩ := ends
    rw [text]
    exact .consDeclaration (front lexed) (.idle_append rfl (ih lexed.behind none))
  | case12 pending parens rest notOpening notClosing notEnd ih =>
    simpa using ih (by simpa using lexed) none
  | case13 pending parens rest notOpening notClosing notEnd notLeft ih =>
    simpa using ih (by simpa using lexed) none
  | case14 pending parens c rest notOpening notClosing notEnd notLeft notRight ih =>
    simpa using ih (by simpa using lexed) none

theorem strewn_tokens {t : Text} (none : (tokens t).fault = none) :
    Strewn Token.ReadFrom (tokens t).items t := by
  have strewn := @strewn_tokensFrom [] (lexemes t) 0 (lexed_lexemes (isOpen_of_fault none)) none
  rwa [List.reverse_nil, List.nil_append, flatMap_text_lexemes] at strewn

/-! ## Where tokens are written -/

/-- A text that is written for a token, without the semicolon behind a declaration. -/
def Token.WrittenAs : Token → Text → Prop
  | .opening start, t => ∃ laid, t = laid ++ ['\x7b'] ∧
      if isAtRule start then words laid = words start
      else (selectors laid).map words = (selectors start).map words
  | .closing, t => t = ['\x7d']
  | .comment c, t => t = c
  | .declaration d, t => declarationText d = t ++ [';']

theorem writtenAs_opening {parens : Nat} {start : Text} (statement : Statement parens start)
    (style : Style) (depth : Nat) :
    ∃ t, (Token.opening start).WrittenAs t ∧
      written (openingLines style depth start) = style.indent depth ++ t ++ ['\n'] := by
  obtain ⟨xs, lexed, -, -, tidied, lines⟩ :=
    exists_openingLines statement.phrasal statement.last style depth
  have selected := selectors_tidiedPrelude statement.phrasal
  rw [flatMap_text_lexemes] at tidied lines selected
  have spaces : ∀ l ∈ [Lexeme.char ' '], l.isBlank = true := by simp
  have laid : xs.flatMap Lexeme.text ++ [' '] = (xs ++ [Lexeme.char ' ']).flatMap Lexeme.text := by
    simp [Lexeme.text]
  have ended : Lexed (xs ++ [.char ' ']) :=
    lexed_append_of_head? lexed (lexed_singleton rfl) (by simp)
  refine ⟨xs.flatMap Lexeme.text ++ [' '] ++ ['\x7b'], ⟨_, rfl, ?_⟩, by rw [lines]; simp [blockStart]⟩
  rw [laid]
  split
  · next rule =>
    rw [← words_phrase, phrase_append_blanks spaces, tidied, tidiedPrelude, if_pos rule]
  · next rule =>
    rw [map_words_selectors, lexemes_flatMap_text ended, selectorWords_append_blanks spaces,
      ← selectorWords_phrase lexed, tidied, ← map_words_selectors, selected rule]

theorem writtenAs_declaration (d : Text) :
    ∃ t, (Token.declaration d).WrittenAs t ∧ declarationText d = t ++ [';'] := by
  have ended : ∃ t, declarationText d = t ++ [';'] := by
    unfold declarationText
    split <;> exact ⟨_, rfl⟩
  obtain ⟨t, text⟩ := ended
  exact ⟨t, text, text⟩

theorem idle_gap (depth : Nat) (above : Above) : Idle (written (gap depth above)) := by
  unfold gap
  split <;> rfl

/-- A token stands on its lines, with a line break and perhaps a semicolon behind it. -/
theorem strewn_row (style : Style) (depth : Nat) {token : Token} {t behind : Text}
    {own more : List Text} {rest : List Token} (here : token.WrittenAs t) (ends : Idle behind)
    (text : written own = style.indent depth ++ t ++ behind)
    (later : Strewn Token.WrittenAs rest (written more)) :
    Strewn Token.WrittenAs (token :: rest) (written (own ++ more)) := by
  have indent : Idle (style.indent depth) :=
    idle_of_blanks fun c member => isBlank_of_mem_indent member
  rw [written_append, text, List.append_assoc, List.append_assoc]
  exact .idle_append indent (.here here (.idle_append ends later))

theorem strewn_gap {depth : Nat} {above : Above} {own more : List Text} {ts : List Token}
    (strewn : Strewn Token.WrittenAs ts (written (own ++ more))) :
    Strewn Token.WrittenAs ts (written (gap depth above ++ own ++ more)) := by
  rw [List.append_assoc, written_append]
  exact .idle_append (idle_gap depth above) strewn

/-- Readable tokens stand in their lines. -/
theorem strewn_written {style : Style} {depth : Nat} {above : Above} {ts : List Token}
    {lines : List Text} (laid : linesFrom style none depth above ts = .ok lines) {parens : Nat}
    (readable : Readable parens ts) : Strewn Token.WrittenAs ts (written lines) := by
  have lineBreak : Idle ['\n'] := rfl
  induction ts generalizing depth above lines parens with
  | nil =>
    simp only [linesFrom] at laid
    split at laid
    · cases laid
      exact .nil rfl
    · cases laid
  | cons token rest ih =>
    cases token with
    | closing =>
      cases depth with
      | zero => cases laid
      | succ outer =>
        rw [linesFrom] at laid
        obtain ⟨more, inner, rfl⟩ := exists_lines [style.indent outer ++ ['\x7d']] laid
        exact strewn_row style outer rfl lineBreak (by simp [written]) (ih inner readable)
    | comment t =>
      rw [linesFrom] at laid
      obtain ⟨more, inner, rfl⟩ := exists_lines _ laid
      exact strewn_gap (strewn_row style depth rfl lineBreak (by simp [written]) (ih inner readable.2))
    | opening start =>
      obtain ⟨statement, later⟩ := readable
      rw [linesFrom] at laid
      obtain ⟨more, inner, rfl⟩ := exists_lines _ laid
      obtain ⟨t, here, text⟩ := writtenAs_opening statement style depth
      exact strewn_gap (strewn_row style depth here lineBreak text (ih inner later))
    | declaration d =>
      obtain ⟨-, -, later⟩ := readable
      rw [linesFrom] at laid
      obtain ⟨more, inner, rfl⟩ := exists_lines _ laid
      obtain ⟨t, here, text⟩ := writtenAs_declaration d
      have ends : Idle [';', '\n'] := rfl
      exact strewn_gap (strewn_row style depth here ends (by simp [written, text]) (ih inner later))

/-! ## What a layout keeps -/

theorem mem_of_words {c : Char} (visible : isBlank c = false) {s t : Text}
    (same : words s = words t) (member : c ∈ t) : c ∈ s := by
  have kept : c ∈ t.filter (!isBlank ·) := List.mem_filter.mpr ⟨member, by simp [visible]⟩
  rw [← Text.flatten_words, ← same, Text.flatten_words] at kept
  exact (List.mem_filter.mp kept).1

/-- What a token is read from and what is written for it have the same spacing. -/
theorem Token.keeps {token : Token} {s t : Text} (read : token.ReadFrom s)
    (laid : token.WrittenAs t) : token.Keeps s t := by
  cases token with
  | opening start =>
    obtain ⟨raw, rfl, lexed, rfl⟩ := read
    obtain ⟨written, rfl, spaced⟩ := laid
    refine ⟨raw, written, rfl, rfl, rfl, ?_⟩
    split
    · next rule =>
      rw [if_pos rule, words_phrase, flatMap_text_lexemes] at spaced
      exact spaced.symm
    · next rule =>
      rw [if_neg rule, map_words_selectors (phrase _), selectorWords_phrase lexed,
        ← map_words_selectors] at spaced
      exact spaced.symm
  | closing => exact ⟨read, laid⟩
  | comment c => exact ⟨read, laid⟩
  | declaration d =>
    have same : words s = words d := by
      rw [← show phrase (lexemes s) = d from read, words_phrase, flatMap_text_lexemes]
    refine ⟨read, ?_⟩
    have ends : declarationText d = t ++ [';'] := laid
    rw [declarationText] at ends
    split at ends
    · next plain =>
      rw [if_pos plain, same, List.append_cancel_right ends]
    · next colon =>
      have inside : ':' ∈ d := by simp_all
      have visible : isBlank ':' = false := by decide
      obtain ⟨name, value, rfl, first⟩ :=
        List.eq_append_cons_of_mem (mem_of_words visible same inside)
      obtain ⟨before, behind, rfl, second⟩ := List.eq_append_cons_of_mem inside
      obtain ⟨left, right⟩ := Text.words_around visible first second same
      rw [Text.splitFirst_append second] at ends
      rw [if_neg colon]
      refine ⟨name, value, Text.trim before, ' ' :: Text.trim behind, rfl, ?_, first, ?_, ?_⟩
      · simpa using (List.append_cancel_right ends).symm
      · rw [left, Text.words_trim]
      · rw [right, Text.words_blank_cons (by decide), Text.words_trim]

/-- A layout loses nothing, says nothing twice and keeps the order: it has the characters of the
text, blanks and semicolons apart, and its tokens stand in both with the same spacing. -/
theorem kept_format {style : Style} {t out : Text} (accepted : format style t = .ok out) :
    bare t = bare out ∧ Aligned Token.Keeps (tokens t).items t out := by
  obtain ⟨none, readable⟩ := fault_of_format accepted
  obtain ⟨lines, laid, rfl⟩ := format_eq_ok_iff.mp accepted
  rw [none] at laid
  have aligned : Aligned Token.Keeps (tokens t).items t (written lines) :=
    (strewn_tokens none).aligned (fun _ _ _ => Token.keeps) (strewn_written laid readable)
  exact ⟨aligned.bare_eq fun _ _ _ => Token.Keeps.bare_eq, aligned⟩

/-- A text in which blanks come and go around a colon and the commas between selectors, and in which
a parenthesis stays open. -/
theorem kept_format_spaced :
    format .standard "a ,b\x7bc:d  (;e\x7d" = .ok ("a, b \x7b\n  c: d (;e;\n\x7d\n" : Text) ∧
      bare "a ,b\x7bc:d  (;e\x7d" = bare "a, b \x7b\n  c: d (;e;\n\x7d\n" ∧
      Aligned Token.Keeps (tokens "a ,b\x7bc:d  (;e\x7d").items "a ,b\x7bc:d  (;e\x7d"
        "a, b \x7b\n  c: d (;e;\n\x7d\n" :=
  have accepted : format .standard "a ,b\x7bc:d  (;e\x7d" =
    .ok ("a, b \x7b\n  c: d (;e;\n\x7d\n" : Text) := by decide +kernel
  ⟨accepted, kept_format accepted⟩

end StaticSite.Stylesheet
