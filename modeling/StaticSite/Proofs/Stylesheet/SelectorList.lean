import StaticSite.Proofs.Stylesheet.Selectors
import StaticSite.Proofs.Text.Pieces

/-! # Where selector lists are cut

A comma stands outside strings, comments and brackets when the text before it leaves none of them
open. A selector list is cut at these commas and nowhere else, whether its own strings, comments and
brackets end or not, and the blanks around each piece are dropped. Blanks open nothing and close
nothing, so joining the selectors again and cutting the result gives the same selectors.
-/

namespace StaticSite.Stylesheet

/-- A text that leaves no string, no comment and no bracket open. -/
structure Closed (t : Text) : Prop where
  complete : ∀ l ∈ lexemes t, l.isOpen = false
  brackets : bracketsAfter 0 (delimiters (lexemes t)) = 0

/-- Whether a comma of a text stands outside strings, comments and brackets. -/
def HasComma (t : Text) : Prop := ∃ before behind, t = before ++ ',' :: behind ∧ Closed before

/-- A text and the pieces between its commas outside strings, comments and brackets. -/
inductive Cut : Text → List Text → Prop
  | last {t : Text} (whole : ¬ HasComma t) : Cut t [t]
  | comma {piece rest : Text} {pieces : List Text} (closed : Closed piece)
      (whole : ¬ HasComma piece) (others : Cut rest pieces) :
      Cut (piece ++ ',' :: rest) (piece :: pieces)

/-- A selector and the piece of a list that it is written in, with blanks around it. -/
def Padded (piece selector : Text) : Prop :=
  selector.trim = selector ∧ ∃ before behind, piece = before ++ selector ++ behind ∧
    (∀ c ∈ before, isBlank c = true) ∧ ∀ c ∈ behind, isBlank c = true

/-! ## Closed texts -/

theorem Closed.lexed {t : Text} (closed : Closed t) : Lexed (lexemes t) :=
  lexed_lexemes closed.complete

theorem Closed.lexemes_append {t : Text} (closed : Closed t) {rest : Text}
    (apart : rest.head? ≠ some '*') : lexemes (t ++ rest) = lexemes t ++ lexemes rest := by
  have read := Stylesheet.lexemes_append closed.lexed apart
  rwa [flatMap_text_lexemes] at read

theorem lexemes_blank_cons {c : Char} (blank : isBlank c = true) (t : Text) :
    lexemes (c :: t) = .char c :: lexemes t := by
  apply lexemesFrom_outside_cons
  · rintro ⟨rfl, -⟩
    exact absurd blank (by decide)
  · by_contra quote
    have visible := isBlank_of_isQuote (by simpa using quote)
    rw [blank] at visible
    cases visible

/-- A blank in front of a text opens nothing and closes nothing. -/
theorem closed_blank_cons {c : Char} (blank : isBlank c = true) {t : Text} :
    Closed (c :: t) ↔ Closed t := by
  have read := lexemes_blank_cons blank t
  have none : Lexeme.delimiter? (.char c) = none := Lexeme.delimiter?_of_isBlank blank
  constructor
  · rintro ⟨complete, brackets⟩
    rw [read] at complete brackets
    refine ⟨fun l member => complete l (List.mem_cons_of_mem _ member), ?_⟩
    rwa [delimiters, List.filterMap_cons, none] at brackets
  · rintro ⟨complete, brackets⟩
    refine ⟨?_, ?_⟩
    · rw [read]
      exact List.forall_mem_cons.mpr ⟨rfl, complete⟩
    · rwa [read, delimiters, List.filterMap_cons, none]

theorem closed_blanks_append {blanks : Text} (all : ∀ c ∈ blanks, isBlank c = true) {t : Text} :
    Closed (blanks ++ t) ↔ Closed t := by
  induction blanks with
  | nil => rfl
  | cons c rest ih =>
    obtain ⟨here, others⟩ := List.forall_mem_cons.mp all
    rw [List.cons_append, closed_blank_cons here, ih others]

theorem Closed.trim {t : Text} (closed : Closed t) : Closed t.trim := by
  have text := trim_flatMap_text closed.lexed.1
  rw [flatMap_text_lexemes] at text
  have inside := closed.lexed.within (isInfix_trimmed (lexemes t))
  have read : lexemes t.trim = trimmed (lexemes t) := by rw [text, lexemes_flatMap_text inside]
  refine ⟨fun l member => ?_, ?_⟩
  · rw [read] at member
    exact (inside.1 l member).isOpen
  · rw [read, delimiters_trimmed]
    exact closed.brackets

/-! ## Commas -/

theorem hasComma_of_blanks_append {blanks : Text} (all : ∀ c ∈ blanks, isBlank c = true) {t : Text}
    (comma : HasComma (blanks ++ t)) : HasComma t := by
  obtain ⟨before, behind, split, closed⟩ := comma
  rcases List.append_eq_append_iff.mp split with ⟨front, rfl, rest⟩ | ⟨more, rfl, rest⟩
  · exact ⟨front, behind, rest, (closed_blanks_append all).mp closed⟩
  · -- The comma would be one of the blanks.
    cases more with
    | nil => exact ⟨[], behind, rest.symm, by simp [lexemes, lexemesFrom], rfl⟩
    | cons c more =>
      obtain ⟨rfl, -⟩ := List.cons.inj rest
      exact absurd (all ',' (by simp)) (by decide)

theorem padded_trim (t : Text) : Padded t t.trim := ⟨Text.trim_trim t, exists_dropped isBlank t⟩

/-- Trimming brings no comma out. -/
theorem hasComma_of_trim {t : Text} (comma : HasComma t.trim) : HasComma t := by
  obtain ⟨-, before, behind, whole, all, -⟩ := padded_trim t
  obtain ⟨front, rest, split, closed⟩ := comma
  refine ⟨before ++ front, rest ++ behind, ?_, (closed_blanks_append all).mpr closed⟩
  rw [split] at whole
  rw [whole]
  simp

/-- A text with a comma starts with a piece that has none. -/
theorem HasComma.first {t : Text} (comma : HasComma t) :
    ∃ piece rest, t = piece ++ ',' :: rest ∧ Closed piece ∧ ¬ HasComma piece := by
  obtain ⟨before, behind, rfl, closed⟩ := comma
  induction length : before.length using Nat.strong_induction_on generalizing before behind with
  | _ n ih =>
    by_cases inner : HasComma before
    · obtain ⟨front, middle, rfl, earlier⟩ := inner
      obtain ⟨piece, rest, split, found⟩ := ih front.length
        (by rw [← length, List.length_append, List.length_cons]; omega) front (middle ++ ',' :: behind)
        earlier rfl
      refine ⟨piece, rest, ?_, found⟩
      rw [← split]
      simp
    · exact ⟨before, behind, rfl, closed, inner⟩

/-- Every text is cut into pieces. -/
theorem exists_cut (t : Text) : ∃ pieces, Cut t pieces := by
  induction length : t.length using Nat.strong_induction_on generalizing t with
  | _ n ih =>
    by_cases comma : HasComma t
    · obtain ⟨piece, rest, rfl, closed, whole⟩ := comma.first
      obtain ⟨pieces, cut⟩ := ih rest.length
        (by rw [← length, List.length_append, List.length_cons]; omega) rest rfl
      exact ⟨piece :: pieces, .comma closed whole cut⟩
    · exact ⟨[t], .last comma⟩

/-! ## Cutting and joining -/

namespace Cut

variable {t : Text} {pieces : List Text} (cut : Cut t pieces)
include cut

theorem ne_nil : pieces ≠ [] := by
  cases cut <;> simp

/-- Joining the pieces with commas gives the text back. -/
theorem joinWith : Text.joinWith [','] pieces = t := by
  induction cut with
  | last whole => rfl
  | @comma piece rest pieces closed whole others ih =>
    rw [Text.joinWith_cons others.ne_nil, ih]
    rfl

theorem not_hasComma {piece : Text} (member : piece ∈ pieces) : ¬ HasComma piece := by
  induction cut with
  | last whole =>
    rw [List.mem_singleton.mp member]
    exact whole
  | comma closed whole others ih =>
    rcases List.mem_cons.mp member with rfl | later
    · exact whole
    · exact ih later

/-- Joining the trimmed pieces with commas and spaces, behind any blanks, gives a text whose pieces
are the same but for blanks. -/
theorem again {blanks : Text} (all : ∀ c ∈ blanks, isBlank c = true) :
    ∃ others, Cut (blanks ++ Text.joinWith ", " (pieces.map Text.trim)) others ∧
      others.map Text.trim = pieces.map Text.trim := by
  have quiet {piece : Text} (whole : ¬ HasComma piece) {blanks : Text}
      (all : ∀ c ∈ blanks, isBlank c = true) : ¬ HasComma (blanks ++ piece.trim) :=
    fun comma => whole (hasComma_of_trim (hasComma_of_blanks_append all comma))
  have same (piece : Text) {blanks : Text} (all : ∀ c ∈ blanks, isBlank c = true) :
      (blanks ++ piece.trim).trim = piece.trim := by
    rw [Text.trim_blanks_append all, Text.trim_trim]
  induction cut generalizing blanks with
  | @last t whole =>
    refine ⟨[blanks ++ t.trim], .last (quiet whole all), ?_⟩
    rw [List.map_singleton, List.map_singleton, same t all]
  | @comma piece rest pieces closed whole later ih =>
    obtain ⟨others, cut, trimmed⟩ := ih (show ∀ c ∈ [' '], isBlank c = true by decide)
    have front := (closed_blanks_append all).mpr closed.trim
    refine ⟨(blanks ++ piece.trim) :: others, ?_, ?_⟩
    · have text := Cut.comma front (quiet whole all) cut
      rw [List.map_cons, Text.joinWith_cons (by simpa using later.ne_nil)]
      simpa using text
    · rw [List.map_cons, List.map_cons, same piece all, trimmed]

end Cut

/-! ## Lexemes of pieces -/

/-- What is read before a lexeme is whole. -/
theorem lexed_before {t : Text} {before behind : List Lexeme} {l : Lexeme}
    (read : lexemes t = before ++ l :: behind) : Lexed before := by
  induction before generalizing t with
  | nil => exact ⟨by simp, .nil⟩
  | cons m more ih =>
    rcases lexemes_cases t with rfl | ⟨k, rest, whole, rfl, apart⟩ | ⟨k, single, -⟩
    · simp [lexemes, lexemesFrom] at read
    · rw [lexemes, lexemesFrom_text_append whole apart] at read
      obtain ⟨rfl, rest_⟩ := List.cons.inj read
      refine lexed_cons.mpr ⟨whole, ?_, ih rest_⟩
      rintro m first ⟨slash, rfl⟩
      refine apart ⟨slash, head?_of_head?_lexemes ?_⟩
      obtain ⟨others, rfl⟩ := List.head?_eq_some_iff.mp first
      rw [lexemes, rest_]
      rfl
    · simp [single] at read

theorem uncut_of_forall {depth : Nat} {ls : List Lexeme}
    (none : ∀ before behind, ls = before ++ .char ',' :: behind →
      bracketsAfter depth (delimiters before) ≠ 0) : Uncut depth (delimiters ls) := by
  induction ls generalizing depth with
  | nil => trivial
  | cons l rest ih =>
    refine uncut_cons.mpr ⟨uncut_singleton ?_, ih fun before behind split => ?_⟩
    · rintro ⟨rfl, rfl⟩
      exact none [] rest rfl rfl
    · rw [← bracketsAfter_cons]
      exact none (l :: before) behind (by rw [split]; rfl)

/-- A text without a comma outside strings, comments and brackets is not cut. -/
theorem uncut_of_not_hasComma {t : Text} (whole : ¬ HasComma t) : Uncut 0 (delimiters (lexemes t)) := by
  refine uncut_of_forall fun before behind split level => whole ?_
  have lexed := lexed_before split
  have read := lexemes_flatMap_text lexed
  refine ⟨before.flatMap Lexeme.text, behind.flatMap Lexeme.text, ?_, fun l member => ?_, ?_⟩
  · rw [← flatMap_text_lexemes t, split, List.flatMap_append, List.flatMap_cons]
    rfl
  · rw [read] at member
    exact (lexed.1 l member).isOpen
  · rwa [read]

theorem Cut.partsFrom {t : Text} {pieces : List Text} (cut : Cut t pieces) :
    Stylesheet.partsFrom [] 0 (lexemes t) = pieces := by
  induction cut with
  | @last t whole =>
    have read := partsFrom_append (uncut_of_not_hasComma whole) [] []
    rw [List.append_nil, flatMap_text_lexemes] at read
    rw [read]
    simp [Stylesheet.partsFrom]
  | @comma piece rest pieces closed whole others ih =>
    have next : lexemes (',' :: rest) = .char ',' :: lexemes rest := by
      apply lexemesFrom_outside_cons
      · rintro ⟨slash, -⟩
        exact absurd slash (by decide)
      · rfl
    have read := partsFrom_append (uncut_of_not_hasComma whole) [] (.char ',' :: lexemes rest)
    rw [closed.lexemes_append (by simp), next, read, closed.brackets, flatMap_text_lexemes,
      Stylesheet.partsFrom, if_pos ⟨rfl, rfl⟩, ih]
    simp

/-- The selectors of a list are its pieces without the blanks around them. -/
theorem Cut.selectors_eq {t : Text} {pieces : List Text} (cut : Cut t pieces) :
    selectors t = pieces.map Text.trim := by
  rw [selectors, cut.partsFrom]

/-- Any text is a selector list: its selectors, joined with commas and spaces, are its selectors
again; joined with commas they are the text but for the blanks around its pieces, which stand between
its commas outside strings, comments and brackets; and none of them holds such a comma. -/
theorem selectors_cut (t : Text) :
    selectors (Text.joinWith ", " (selectors t)) = selectors t ∧
      (∃ pieces, Cut t pieces ∧ Text.joinWith [','] pieces = t ∧
        List.Forall₂ Padded pieces (selectors t)) ∧
      ∀ selector ∈ selectors t, ¬ HasComma selector := by
  obtain ⟨pieces, cut⟩ := exists_cut t
  obtain ⟨others, again, same⟩ := cut.again (List.forall_mem_nil _)
  rw [List.nil_append] at again
  rw [cut.selectors_eq]
  refine ⟨?_, ⟨pieces, cut, cut.joinWith, ?_⟩, fun selector member => ?_⟩
  · rw [again.selectors_eq, same]
  · rw [List.forall₂_map_right_iff, List.forall₂_same]
    exact fun piece _ => padded_trim piece
  · obtain ⟨piece, inside, rfl⟩ := List.mem_map.mp member
    exact fun comma => cut.not_hasComma inside (hasComma_of_trim comma)

end StaticSite.Stylesheet
