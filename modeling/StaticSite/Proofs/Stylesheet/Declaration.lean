import StaticSite.Proofs.Stylesheet.Statement
import StaticSite.Stylesheet.Layout

/-! # Declarations as they are written

A declaration is written with one space behind its first colon, wherever that colon stands: among
characters, in a comment or in a string. In each case what is written is read back as lexemes with
the same marks, and writing it once more changes nothing.
-/

namespace StaticSite.Stylesheet

/-- The name and the value around a text's first colon, trimmed, with one space between them. -/
def colonText (t : Text) : Text :=
  (Text.splitFirst ':' t).1.trim ++ ": " ++ (Text.splitFirst ':' t).2.trim

/-- A declaration as it is read back from what is written for it. -/
def tidiedDeclaration (t : Text) : Text :=
  if isAtRule t || !t.elem ':' then t else (colonText t).trim

/-! ## Bodies with a colon -/

theorem commentBody_iff {t : Text} : CommentBody t ↔ ¬ ['*', '/'] <:+: t := by
  fun_induction CommentBody t with
  | case1 rest => simp [List.infix_cons_iff]
  | case2 c rest goesOn ih =>
    have notHere : ¬ ['*', '/'] <+: c :: rest := by
      rintro ⟨more, split⟩
      simp only [List.cons_append, List.nil_append, List.cons.injEq] at split
      exact goesOn more split.1.symm split.2.symm
    rw [List.infix_cons_iff, ih]
    tauto
  | case3 => simp

theorem commentBody_append {a b : Text} :
    CommentBody (a ++ ':' :: b) ↔ CommentBody a ∧ CommentBody b := by
  fun_induction CommentBody a with
  | case1 => simp [CommentBody]
  | case2 c rest goesOn ih =>
    rw [List.cons_append, CommentBody]
    · exact ih
    · intro more star slash
      cases rest with
      | nil => simp at slash
      | cons d others =>
        simp only [List.cons_append, List.cons.injEq] at slash
        exact goesOn others star (by rw [slash.1])
  | case3 => simp [CommentBody]

/-- A comment stays one when the blanks around a colon in it become one space. -/
theorem commentBody_colon {a b : Text} (inside : CommentBody (a ++ ':' :: b)) :
    CommentBody (a.rdropWhile isBlank ++ ':' :: ' ' :: b.dropWhile isBlank) := by
  obtain ⟨left, right⟩ := commentBody_append.mp inside
  rw [commentBody_iff] at left right
  have before : CommentBody (a.rdropWhile isBlank) :=
    commentBody_iff.mpr fun ends => left (ends.trans (List.rdropWhile_prefix _ _).isInfix)
  have behind : CommentBody (b.dropWhile isBlank) :=
    commentBody_iff.mpr fun ends => right (ends.trans (List.dropWhile_suffix _).isInfix)
  exact commentBody_append.mpr ⟨before, by rw [CommentBody] <;> simp [behind]⟩

theorem quotedBody_cons {quote c : Char} (plain : c ≠ '\\') {t : Text} :
    QuotedBody quote (c :: t) ↔ c ≠ quote ∧ QuotedBody quote t := by
  rw [QuotedBody]
  · exact fun _ _ backslash => absurd backslash plain
  · exact fun backslash => absurd backslash plain

theorem quotedBody_dropWhile {quote : Char} {t : Text} (inside : QuotedBody quote t) :
    QuotedBody quote (t.dropWhile isBlank) := by
  induction t with
  | nil => trivial
  | cons c rest ih =>
    by_cases blank : isBlank c = true
    · have plain : c ≠ '\\' := by
        rintro rfl
        exact absurd blank (by decide)
      rw [List.dropWhile_cons_of_pos blank]
      exact ih ((quotedBody_cons plain).mp inside).2
    · rwa [List.dropWhile_cons_of_neg blank]

/-- A string stays one when the blanks around a colon in it become one space. -/
theorem quotedBody_colon {quote : Char} (opens : isQuote quote = true) {a b : Text}
    (inside : QuotedBody quote (a ++ ':' :: b)) :
    QuotedBody quote (a.rdropWhile isBlank ++ ':' :: ' ' :: b.dropWhile isBlank) := by
  have spaceQuote : ' ' ≠ quote := by
    rintro rfl
    exact absurd opens (by decide)
  have spaced {t : Text} (rest : QuotedBody quote t) :
      QuotedBody quote (' ' :: t.dropWhile isBlank) :=
    (quotedBody_cons (by decide)).mpr ⟨spaceQuote, quotedBody_dropWhile rest⟩
  fun_induction QuotedBody quote a with
  | case1 c rest ih =>
    have inner := ih inside
    rcases rdropWhile_append_cases (p := isBlank) ['\\', c] rest with kept | ⟨none, kept⟩
    · rw [show '\\' :: c :: rest = ['\\', c] ++ rest from rfl, kept]
      exact inner
    · rw [show '\\' :: c :: rest = ['\\', c] ++ rest from rfl, kept]
      rw [none] at inner
      by_cases blank : isBlank c = true
      · -- the escaped character goes and the colon is escaped in its place
        rw [show ['\\', c] = ['\\'] ++ [c] from rfl, List.rdropWhile_concat_pos _ _ _ blank]
        exact ((quotedBody_cons (by decide)).mp inner).2
      · rw [show ['\\', c] = ['\\'] ++ [c] from rfl, List.rdropWhile_concat_neg _ _ _ blank]
        exact inner
  | case2 => exact spaced inside
  | case3 c rest notPair notLast ih =>
    have plain : c ≠ '\\' := by
      rintro rfl
      cases rest with
      | nil => exact notLast rfl rfl
      | cons d others => exact notPair d others rfl rfl
    rw [List.cons_append, quotedBody_cons plain] at inside
    have inner := ih inside.2
    rcases rdropWhile_append_cases (p := isBlank) [c] rest with kept | ⟨none, kept⟩
    · rw [show c :: rest = [c] ++ rest from rfl, kept]
      exact (quotedBody_cons plain).mpr ⟨inside.1, inner⟩
    · rw [show c :: rest = [c] ++ rest from rfl, kept, List.rdropWhile_singleton]
      rw [none] at inner
      split
      · exact inner
      · exact (quotedBody_cons plain).mpr ⟨inside.1, inner⟩
  | case4 =>
    rw [List.nil_append, quotedBody_cons (by decide)] at inside
    exact (quotedBody_cons (by decide)).mpr ⟨inside.1, spaced inside.2⟩

/-- A comment or a string that holds a colon, with one space behind its first colon. -/
theorem Lexeme.Whole.colon {l : Lexeme} (whole : l.Whole) (literal : ∀ c, l ≠ .char c)
    (colon : ':' ∈ l.text) :
    ∃ (a b : Text) (spaced : Lexeme), l.text = a ++ ':' :: b ∧ ':' ∉ a ∧
      spaced.text = a.rdropWhile StaticSite.isBlank ++ ':' :: ' ' ::
        b.dropWhile StaticSite.isBlank ∧
      spaced.Whole ∧ (∀ c, spaced ≠ .char c) ∧ spaced.isComment = l.isComment ∧
      (∃ c ∈ a, StaticSite.isBlank c = false) ∧ ∃ c ∈ b, StaticSite.isBlank c = false := by
  cases l with
  | comment body =>
    have within : ':' ∈ body := by simpa [Lexeme.text] using colon
    obtain ⟨a, b, rfl, none⟩ := List.eq_append_cons_of_mem within
    have front := rdropWhile_append_of_getLast? (p := StaticSite.isBlank) ['/', '*'] (by decide) a
    have back := dropWhile_append_of_head? (p := StaticSite.isBlank) ['*', '/'] (by decide) b
    refine ⟨['/', '*'] ++ a, b ++ ['*', '/'], .comment _, by simp [Lexeme.text], by simpa using none,
      ?_, commentBody_colon whole, by simp, rfl, ⟨'/', by simp, by decide⟩, '/', by simp, by decide⟩
    rw [front, back]
    simp [Lexeme.text]
  | quoted quote body =>
    have visible := isBlank_of_isQuote whole.1
    have notColon : ':' ≠ quote := by
      rintro rfl
      exact absurd whole.1 (by decide)
    have within : ':' ∈ body := by simpa [Lexeme.text, notColon] using colon
    obtain ⟨a, b, rfl, none⟩ := List.eq_append_cons_of_mem within
    have front := rdropWhile_append_of_getLast? (p := StaticSite.isBlank) [quote]
      (by simpa using visible) a
    have back := dropWhile_append_of_head? (p := StaticSite.isBlank) [quote]
      (by simpa using visible) b
    refine ⟨[quote] ++ a, b ++ [quote], .quoted quote _, by simp [Lexeme.text], by simp [none, notColon],
      ?_, ⟨whole.1, quotedBody_colon whole.1 whole.2⟩, by simp, rfl, ⟨quote, by simp, visible⟩,
      quote, by simp, visible⟩
    rw [front, back]
    simp [Lexeme.text]
  | char c => exact absurd rfl (literal c)
  | openComment body => exact whole.elim
  | openQuoted quote body => exact whole.elim

/-! ## Statements with a colon -/

/-- A literal in the place of another one makes no difference to how lexemes are read. -/
theorem Phrasal.replace {before behind : List Lexeme} {l m : Lexeme}
    (phrasal : Phrasal (before ++ l :: behind)) (old : ∀ c, l ≠ .char c) (new : ∀ c, m ≠ .char c)
    (whole : m.Whole) (comment : m.isComment = l.isComment) :
    Phrasal (before ++ m :: behind) ∧ marks (before ++ m :: behind) = marks (before ++ l :: behind) := by
  have visible : ∀ {k : Lexeme}, (∀ c, k ≠ .char c) → k.isBlank = false := by
    intro k literal
    cases k with
    | char c => exact absurd rfl (literal c)
    | _ => rfl
  have unmarked : ∀ {k : Lexeme}, (∀ c, k ≠ .char c) → marks [k] = [] := by
    intro k literal
    cases k with
    | char c => exact absurd rfl (literal c)
    | _ => rfl
  have front : Lexed before ∧ Spaced before :=
    ⟨phrasal.lexed.within (List.prefix_append _ _).isInfix,
      phrasal.spaced.within (List.prefix_append _ _).isInfix⟩
  have back : Lexed behind ∧ Spaced behind := by
    have within : behind <:+: before ++ l :: behind := ⟨before ++ [l], [], by simp⟩
    exact ⟨phrasal.lexed.within within, phrasal.spaced.within within⟩
  have same : begins (before ++ m :: behind) = begins (before ++ l :: behind) := by
    clear phrasal front
    induction before with
    | nil => simp [begins, visible old, visible new, comment]
    | cons k rest ih => simp [begins, ih]
  refine ⟨⟨?_, ?_, ?_, same.trans phrasal.starts⟩, ?_⟩
  · refine lexed_append front.1 (lexed_cons.mpr ⟨whole, ?_, back.1⟩) ?_
    · exact fun k _ slash => new _ slash.1
    · intro k _ n first star
      obtain rfl : m = n := by simpa using first
      exact new _ star.2
  · refine spaced_append front.2 (spaced_cons.mpr ⟨?_, ?_, back.2⟩) ?_
    · exact fun blank => by simp [visible new] at blank
    · exact fun k _ blank => by simp [visible new] at blank
    · intro k _ n first blanks
      obtain rfl : m = n := by simpa using first
      simp [visible new] at blanks
  · cases before with
    | nil => simpa using visible new
    | cons k rest => simpa using phrasal.head
  · rw [marks_append, marks_append, marks_cons m, marks_cons l, unmarked old, unmarked new]

/-- The first lexeme whose text holds a character. -/
theorem exists_first_lexeme {c : Char} {ls : List Lexeme} (some : c ∈ ls.flatMap Lexeme.text) :
    ∃ before l behind, ls = before ++ l :: behind ∧ c ∈ l.text ∧
      c ∉ before.flatMap Lexeme.text := by
  induction ls with
  | nil => simp at some
  | cons l rest ih =>
    by_cases here : c ∈ l.text
    · exact ⟨[], l, rest, rfl, here, by simp⟩
    · obtain ⟨before, m, behind, rfl, there, none⟩ := ih (by simpa [here] using some)
      exact ⟨l :: before, m, behind, rfl, there, by simpa [here] using none⟩

theorem exists_colonText_literal {before behind : List Lexeme} {l : Lexeme}
    (phrasal : Phrasal (before ++ l :: behind))
    (last : ∀ m ∈ (before ++ l :: behind).getLast?, m.isBlank = false)
    (literal : ∀ c, l ≠ .char c) (here : ':' ∈ l.text)
    (none : ':' ∉ before.flatMap Lexeme.text) :
    ∃ ms, Phrasal ms ∧ marks ms = marks (before ++ l :: behind) ∧
      ms.flatMap Lexeme.text = colonText ((before ++ l :: behind).flatMap Lexeme.text) := by
  obtain ⟨a, b, spaced, text, notBefore, written, whole, new, comment, left, right⟩ :=
    (phrasal.lexed.1 l (by simp)).colon literal here
  obtain ⟨kept, same⟩ := phrasal.replace literal new whole comment
  refine ⟨before ++ spaced :: behind, kept, same, ?_⟩
  have split : (before ++ l :: behind).flatMap Lexeme.text =
      (before.flatMap Lexeme.text ++ a) ++ ':' :: (b ++ behind.flatMap Lexeme.text) := by
    simp [text]
  have heads := isBlank_of_head?_text phrasal.lexed.1 phrasal.head
  have lasts := isBlank_of_getLast?_text phrasal.lexed.1 last
  rw [split] at heads lasts
  have name := Text.trim_append_left (s := before.flatMap Lexeme.text)
    (fun c first => heads c (mem_head?_of_start (List.prefix_append _ _) c first)) left
  have value := Text.trim_append_right (t := behind.flatMap Lexeme.text)
    (fun c final => lasts c (mem_getLast?_of_ending
      ((List.suffix_cons ':' _).trans (List.suffix_append _ _)) c final)) right
  rw [split, colonText, Text.splitFirst_append (by simp [none, notBefore]), name, value]
  simp [written]

theorem exists_colonText_char {before behind : List Lexeme}
    (phrasal : Phrasal (before ++ .char ':' :: behind))
    (none : ':' ∉ before.flatMap Lexeme.text) :
    ∃ ms, Phrasal ms ∧ marks ms = marks (before ++ .char ':' :: behind) ∧
      ms.flatMap Lexeme.text = colonText ((before ++ .char ':' :: behind).flatMap Lexeme.text) := by
  have within : trimmed before <:+: before ++ .char ':' :: behind :=
    (isInfix_trimmed before).trans (List.prefix_append _ _).isInfix
  have within' : trimmed behind <:+: before ++ .char ':' :: behind :=
    (isInfix_trimmed behind).trans
      ((List.suffix_cons _ _).trans (List.suffix_append _ _)).isInfix
  refine ⟨trimmed before ++ .char ':' :: .char ' ' :: trimmed behind, ⟨?_, ?_, ?_, ?_⟩, ?_, ?_⟩
  · refine lexed_append (phrasal.lexed.within within) (lexed_cons.mpr ⟨rfl, ?_, lexed_cons.mpr
      ⟨rfl, ?_, phrasal.lexed.within within'⟩⟩) ?_
    · simp [Lexeme.Apart]
    · simp [Lexeme.Apart]
    · simp [Lexeme.Apart]
  · refine spaced_append (phrasal.spaced.within within) (spaced_cons.mpr ⟨?_, ?_, spaced_cons.mpr
      ⟨fun _ => rfl, ?_, phrasal.spaced.within within'⟩⟩) ?_
    · exact fun blank => absurd blank (by decide)
    · exact fun m _ blank => absurd blank (by decide)
    · exact fun m first _ => head?_trimmed behind m first
    · rintro m - n first ⟨-, blank⟩
      obtain rfl : .char ':' = n := by simpa using first
      exact absurd blank (by decide)
  · cases front : trimmed before with
    | nil => simp; decide
    | cons m rest => simpa [front] using head?_trimmed before
  · exact begins_trimmed_append (by decide) phrasal.starts _
  · rw [marks_append, marks_append, marks_cons, marks_cons (.char ':') behind, marks_space_cons,
      marks_trimmed, marks_trimmed]
  · have left : ∀ m ∈ before, m.Whole := fun m member => phrasal.lexed.1 m (by simp [member])
    have right : ∀ m ∈ behind, m.Whole := fun m member => phrasal.lexed.1 m (by simp [member])
    have split : (before ++ .char ':' :: behind).flatMap Lexeme.text =
        before.flatMap Lexeme.text ++ ':' :: behind.flatMap Lexeme.text := by
      simp [Lexeme.text]
    rw [split, colonText, Text.splitFirst_append none, trim_flatMap_text left,
      trim_flatMap_text right]
    simp [Lexeme.text]

/-- The name and the value of a statement with a colon are written as a statement with the same
marks. -/
theorem exists_colonText {ls : List Lexeme} (phrasal : Phrasal ls)
    (last : ∀ l ∈ ls.getLast?, l.isBlank = false) (colon : ':' ∈ ls.flatMap Lexeme.text) :
    ∃ ms, Phrasal ms ∧ marks ms = marks ls ∧
      ms.flatMap Lexeme.text = colonText (ls.flatMap Lexeme.text) := by
  obtain ⟨before, l, behind, rfl, here, none⟩ := exists_first_lexeme colon
  by_cases literal : ∀ c, l ≠ .char c
  · exact exists_colonText_literal phrasal last literal here none
  · obtain ⟨c, rfl⟩ := not_forall_not.mp literal
    obtain rfl : ':' = c := by simpa [Lexeme.text] using here
    exact exists_colonText_char phrasal none

/-- A declaration is written as a statement with the same marks and a semicolon behind it. -/
theorem exists_declarationText {ls : List Lexeme} (phrasal : Phrasal ls)
    (last : ∀ l ∈ ls.getLast?, l.isBlank = false) :
    ∃ ms, Phrasal ms ∧ marks ms = marks ls ∧
      declarationText (ls.flatMap Lexeme.text) = ms.flatMap Lexeme.text ++ [';'] ∧
      tidiedDeclaration (ls.flatMap Lexeme.text) = (trimmed ms).flatMap Lexeme.text := by
  by_cases plain : (isAtRule (ls.flatMap Lexeme.text) || !(ls.flatMap Lexeme.text).elem ':') = true
  · refine ⟨ls, phrasal, rfl, by rw [declarationText, if_pos plain], ?_⟩
    rw [tidiedDeclaration, if_pos plain, trimmed_of_ends phrasal.head last]
  · have colon : ':' ∈ ls.flatMap Lexeme.text := by
      simp only [Bool.or_eq_true, Bool.not_eq_true', not_or, Bool.not_eq_false] at plain
      exact List.elem_iff.mp plain.2
    obtain ⟨ms, spaced, same, text⟩ := exists_colonText phrasal last colon
    refine ⟨ms, spaced, same, ?_, ?_⟩
    · rw [declarationText, if_neg plain, text, colonText]
    · rw [tidiedDeclaration, if_neg plain, ← trim_flatMap_text spaced.lexed.1, text]

/-! ## Writing once more -/

section Again

variable {t : Text} (head : ∀ c ∈ t.head?, isBlank c = false)

theorem not_mem_trim {c : Char} {t : Text} (none : c ∉ t) : c ∉ Text.trim t := fun member =>
  none ((List.dropWhile_suffix _).subset ((List.rdropWhile_prefix _ _).subset member))

/-- Trimming the name of a declaration keeps the character at its start. -/
theorem head?_trim_append {name value : Text}
    (head : ∀ c ∈ (name ++ ':' :: value).head?, isBlank c = false) (more : Text) :
    (Text.trim name ++ ':' :: more).head? = (name ++ ':' :: value).head? := by
  cases name with
  | nil => rfl
  | cons c rest =>
    have same := Text.head?_trim_of_head? (t := c :: rest) (by simpa using head)
    obtain ⟨others, split⟩ := List.head?_eq_some_iff.mp same
    simp [split]

/-- What is written around the first colon, without the blanks at its end. -/
theorem trim_colonText {name value : Text} (none : ':' ∉ name)
    (head : ∀ c ∈ (name ++ ':' :: value).head?, isBlank c = false) :
    ∃ more, Text.trim (colonText (name ++ ':' :: value)) = Text.trim name ++ ':' :: more ∧
      Text.trim more = Text.trim value := by
  have colon : (':' :: ' ' :: Text.trim value).rdropWhile isBlank =
      ':' :: (' ' :: Text.trim value).rdropWhile isBlank :=
    rdropWhile_append_of_getLast? [':'] (by decide) _
  refine ⟨(' ' :: Text.trim value).rdropWhile isBlank, ?_, ?_⟩
  · rw [colonText, Text.splitFirst_append none]
    change Text.trim (Text.trim name ++ [':', ' '] ++ Text.trim value) = _
    rw [List.append_assoc, Text.trim_append_left, ← colon]
    · rfl
    · exact fun c first => head c (head?_trim_append head _ ▸ first)
    · exact ⟨':', by simp, by decide⟩
  · rw [Text.trim_rdropWhile, Text.trim_space_cons, Text.trim_trim]

include head in
/-- What is written for a declaration is the same for the one that is read back. -/
theorem declarationText_tidiedDeclaration :
    declarationText (tidiedDeclaration t) = declarationText t := by
  by_cases plain : (isAtRule t || !t.elem ':') = true
  · rw [tidiedDeclaration, if_pos plain]
  · have colon : ':' ∈ t := by simp_all
    obtain ⟨name, value, rfl, none⟩ := List.eq_append_cons_of_mem colon
    obtain ⟨more, trimmed, same⟩ := trim_colonText none head
    have visible := not_mem_trim none
    rw [tidiedDeclaration, if_neg plain, trimmed, declarationText, declarationText, if_neg plain,
      isAtRule_of_head? (head?_trim_append head more), if_neg (by simp_all),
      Text.splitFirst_append none, Text.splitFirst_append visible]
    simp [same]

include head in
/-- What is written for a declaration is a declaration that is written with one semicolon more. -/
theorem declarationText_declarationText (some : t ≠ []) :
    declarationText (declarationText t) = declarationText t ++ [';'] := by
  by_cases plain : (isAtRule t || !t.elem ':') = true
  · have start : isAtRule (t ++ [';']) = isAtRule t :=
      isAtRule_of_head? (List.head?_append_of_ne_nil _ some)
    have written : declarationText t = t ++ [';'] := by rw [declarationText, if_pos plain]
    rw [written, declarationText, start, if_pos]
    simpa using plain
  · have colon : ':' ∈ t := by simp_all
    obtain ⟨name, value, rfl, none⟩ := List.eq_append_cons_of_mem colon
    have visible := not_mem_trim none
    have written : declarationText (name ++ ':' :: value) =
        Text.trim name ++ ':' :: ' ' :: (Text.trim value ++ [';']) := by
      rw [declarationText, if_neg plain, Text.splitFirst_append none]
      simp
    have ended : Text.trim (' ' :: (Text.trim value ++ [';'])) = Text.trim value ++ [';'] := by
      rw [Text.trim_space_cons]
      refine Text.trim_of_ends ?_ (by simp; decide)
      intro c first
      cases split : Text.trim value with
      | nil =>
        obtain rfl : ';' = c := by simpa [split] using first
        decide
      | cons d rest => exact Text.head?_trim value c (by simpa [split] using first)
    rw [written, declarationText, isAtRule_of_head? (head?_trim_append head _),
      if_neg (by simp_all), Text.splitFirst_append visible]
    simp [ended]

end Again

end StaticSite.Stylesheet
