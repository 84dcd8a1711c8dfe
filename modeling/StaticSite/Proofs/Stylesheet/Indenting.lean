import StaticSite.Proofs.Markup.RawLines
import StaticSite.Proofs.Stylesheet.Sequence

/-! # Stylesheets behind an indentation

Where no comment and no string goes on over the end of a line, a stylesheet whose lines are moved to
an indentation is read as the same tokens: one run of blanks between two lexemes is as good as
another.
-/

namespace StaticSite.Stylesheet

open Markup (indented)

/-! ## Runs of blanks -/

/-- Whether begun statements go on alike, whatever comes next. -/
def BegunAlike (p q : List Lexeme) : Prop :=
  p.all Lexeme.isBlank = q.all Lexeme.isBlank ∧ ∀ ls, phrase (p.reverse ++ ls) = phrase (q.reverse ++ ls)

namespace BegunAlike

variable {p q : List Lexeme} (alike : BegunAlike p q)
include alike

theorem phrase_eq : phrase p.reverse = phrase q.reverse := by
  simpa using alike.2 []

theorem cons (l : Lexeme) : BegunAlike (l :: p) (l :: q) :=
  ⟨by rw [List.all_cons, List.all_cons, alike.1], fun ls => by simpa using alike.2 (l :: ls)⟩

theorem consDeclaration_eq (rest : Tokens) : rest.consDeclaration p = rest.consDeclaration q := by
  rw [Tokens.consDeclaration, Tokens.consDeclaration, alike.1, alike.phrase_eq]

/-- Statements that go on alike are read alike. -/
theorem tokensFrom_eq (parens : Nat) (ls : List Lexeme) :
    tokensFrom p parens ls = tokensFrom q parens ls := by
  induction ls generalizing p q parens with
  | nil => rw [tokensFrom, tokensFrom, alike.1]
  | cons l rest ih =>
    cases l with
    | openComment body => rfl
    | openQuoted quote body => rfl
    | quoted quote body =>
      rw [tokensFrom, tokensFrom]
      exact ih (alike.cons _) parens
    | comment body =>
      rw [tokensFrom, tokensFrom, alike.1, ih (alike.cons _) parens]
    | char c =>
      rw [tokensFrom, tokensFrom, alike.phrase_eq, alike.consDeclaration_eq, alike.consDeclaration_eq,
        ih (alike.cons _) (parens + 1), ih (alike.cons _) (parens - 1), ih (alike.cons _) parens]

end BegunAlike

theorem begunAlike_blanks {bs cs : List Lexeme} (first : ∀ b ∈ bs, b.isBlank = true)
    (second : ∀ c ∈ cs, c.isBlank = true) (some : bs ≠ []) (more : cs ≠ []) (pending : List Lexeme) :
    BegunAlike (bs.reverse ++ pending) (cs.reverse ++ pending) := by
  constructor
  · simp only [List.all_append, List.all_reverse, List.all_eq_true.mpr first,
      List.all_eq_true.mpr second]
  · intro ls
    simp only [List.reverse_append, List.reverse_reverse, List.append_assoc]
    rw [phrase, phrase, ← flatMap_text_squeezed, ← flatMap_text_squeezed,
      squeezed_append false pending.reverse (bs ++ ls), squeezed_append false pending.reverse (cs ++ ls),
      squeezed_blanks first some, squeezed_blanks second more]

/-- Whether lexemes are read alike, whatever statement has begun. -/
def ReadAlike (ls ms : List Lexeme) : Prop :=
  ∀ pending parens, tokensFrom pending parens ls = tokensFrom pending parens ms

namespace ReadAlike

theorem trans {ls ms ns : List Lexeme} (first : ReadAlike ls ms) (second : ReadAlike ms ns) :
    ReadAlike ls ns := fun pending parens => (first pending parens).trans (second pending parens)

theorem cons {ls ms : List Lexeme} (alike : ReadAlike ls ms) (l : Lexeme) :
    ReadAlike (l :: ls) (l :: ms) := by
  intro pending parens
  cases l with
  | openComment body => rfl
  | openQuoted quote body => rfl
  | quoted quote body => exact alike _ parens
  | comment body => rw [tokensFrom, tokensFrom, alike, alike]
  | char c =>
    rw [tokensFrom, tokensFrom, alike, alike, alike, alike]

theorem append {ls ms : List Lexeme} (alike : ReadAlike ls ms) (before : List Lexeme) :
    ReadAlike (before ++ ls) (before ++ ms) := by
  induction before with
  | nil => exact alike
  | cons l rest ih => exact ih.cons l

/-- One run of blanks is as good as another. -/
theorem blanks {bs cs : List Lexeme} (first : ∀ b ∈ bs, b.isBlank = true)
    (second : ∀ c ∈ cs, c.isBlank = true) (some : bs ≠ []) (more : cs ≠ []) (ls : List Lexeme) :
    ReadAlike (bs ++ ls) (cs ++ ls) := by
  intro pending parens
  rw [tokensFrom_blanks bs first, tokensFrom_blanks cs second]
  exact (begunAlike_blanks first second some more pending).tokensFrom_eq parens ls

end ReadAlike

/-! ## Lines that are moved -/

/-- Whether no comment and no string goes on over the end of a line. -/
def Lined (t : Text) : Prop := ∀ line ∈ Text.lines t, ∀ l ∈ lexemes line, l.isOpen = false

instance (t : Text) : Decidable (Lined t) :=
  inferInstanceAs (Decidable (∀ line ∈ Text.lines t, ∀ l ∈ lexemes line, l.isOpen = false))

theorem lexemes_blanks_append {blanks : Text} (all : ∀ c ∈ blanks, isBlank c = true) (t : Text) :
    lexemes (blanks ++ t) = blanks.map .char ++ lexemes t :=
  Plain.lexemes_append (fun c member => isPlain_of_isBlank (all c member)) t

theorem isBlank_of_mem_chars {t : Text} (all : ∀ c ∈ t, isBlank c = true) :
    ∀ l ∈ t.map Lexeme.char, l.isBlank = true := by
  simpa [Lexeme.isBlank] using all

/-- A line without the blanks at its end has the same lexemes but for blanks at the end. -/
theorem exists_lexemes_trimRight {line : Text} (complete : ∀ l ∈ lexemes line, l.isOpen = false) :
    ∃ blanks : List Lexeme, (∀ l ∈ blanks, l.isBlank = true) ∧
      lexemes line = lexemes (Text.trimRight isBlank line) ++ blanks ∧
      ∀ l ∈ lexemes (Text.trimRight isBlank line), l.isOpen = false := by
  have lexed := lexed_lexemes complete
  have kept : (lexemes line).rdropWhile Lexeme.isBlank <+: lexemes line := List.rdropWhile_prefix _ _
  have same : lexemes (Text.trimRight isBlank line) = (lexemes line).rdropWhile Lexeme.isBlank := by
    have cut := rdropWhile_flatMap_text lexed.1
    rw [flatMap_text_lexemes] at cut
    rw [Text.trimRight, ← List.rdropWhile, cut]
    exact lexemes_flatMap_text (lexed.within kept.isInfix)
  refine ⟨(lexemes line).rtakeWhile Lexeme.isBlank, fun l member => List.mem_rtakeWhile_imp member, ?_, ?_⟩
  · rw [same, List.rdropWhile_append_rtakeWhile]
  · rw [same]
    exact fun l member => complete l (kept.subset member)

theorem exists_indented {indent : Text} (blanks : ∀ c ∈ indent, isBlank c = true) (line : Text) :
    ∃ front : Text, (∀ c ∈ front, isBlank c = true) ∧
      indented indent line = front ++ Text.trimRight isBlank line := by
  unfold indented
  split
  · next blank =>
    exact ⟨[], by simp, (List.rdropWhile_eq_nil_iff.mpr (List.all_eq_true.mp blank)).symm⟩
  · exact ⟨indent, blanks, rfl⟩

/-- Lines that are moved are read like the lines. -/
theorem readAlike_indented {indent outer : Text} (blanks : ∀ c ∈ indent, isBlank c = true)
    (behind : ∀ c ∈ outer, isBlank c = true) {ls : List Text}
    (complete : ∀ line ∈ ls, ∀ l ∈ lexemes line, l.isOpen = false) :
    ReadAlike (.char '\n' :: lexemes (written ls))
      (.char '\n' :: lexemes (written (ls.map (indented indent)) ++ outer)) := by
  have newline : ∀ l ∈ [Lexeme.char '\n'], l.isBlank = true := by simp; rfl
  induction ls with
  | nil =>
    have all := isBlank_of_mem_chars behind
    have run := lexemes_blanks_append behind []
    rw [List.append_nil, show lexemes [] = [] by rw [lexemes, lexemesFrom], List.append_nil] at run
    have blank : ∀ l ∈ Lexeme.char '\n' :: outer.map .char, l.isBlank = true :=
      List.forall_mem_cons.mpr ⟨rfl, all⟩
    have alike := ReadAlike.blanks newline blank (by simp) (by simp) []
    have none : lexemes (written []) = [] := by simp [written, lexemes, lexemesFrom]
    rw [none, List.map_nil, show written [] ++ outer = outer from rfl, run]
    simpa using alike
  | cons line rest ih =>
    obtain ⟨here, later⟩ := List.forall_mem_cons.mp complete
    have after : written ((line :: rest).map (indented indent)) ++ outer =
        indented indent line ++ '\n' :: (written (rest.map (indented indent)) ++ outer) := by
      simp [written]
    obtain ⟨ends, blank, whole, trimmed⟩ := exists_lexemes_trimRight here
    obtain ⟨front, all, moved⟩ := exists_indented blanks line
    rw [written_cons, after, lexemes_written_cons here, moved, List.append_assoc, lexemes_blanks_append all,
      lexemes_written_cons trimmed, whole]
    -- The blanks at the end of the line go with its line break, the indentation with the one before.
    have last : ReadAlike ((ends ++ [.char '\n']) ++ lexemes (written rest))
        ([.char '\n'] ++ lexemes (written rest)) :=
      .blanks (List.forall_mem_append.mpr ⟨blank, newline⟩) newline (by simp) (by simp) _
    have first (ms : List Lexeme) :
        ReadAlike ([.char '\n'] ++ ms) ((.char '\n' :: front.map .char) ++ ms) :=
      .blanks newline (List.forall_mem_cons.mpr ⟨rfl, isBlank_of_mem_chars all⟩) (by simp) (by simp) ms
    have inner := (last.trans (ih later)).append (.char '\n' :: lexemes (Text.trimRight isBlank line))
    have alike := inner.trans (first _)
    simpa using alike

theorem written_lines_dropLast {style : Style} {t out : Text} (laid : format style t = .ok out)
    (some : out ≠ []) : written (Text.lines out.dropLast) = out := by
  obtain ⟨lines, -, made⟩ := format_eq_ok_iff.mp laid
  have last : out = out.dropLast ++ ['\n'] := by
    rcases List.eq_nil_or_concat lines with rfl | ⟨front, line, rfl⟩
    · exact absurd made.symm some
    · have ends : out = (written front ++ line) ++ ['\n'] := by
        rw [← made, List.concat_eq_append, written_append]
        simp [written]
      rw [ends, List.dropLast_concat]
  have joined : Text.unlines (Text.lines out.dropLast) = out.dropLast := Text.joinWith_splitAt '\n' _
  have more : ¬ (Text.lines out.dropLast).isEmpty = true := by
    rw [List.isEmpty_iff]
    exact Text.splitAt_ne_nil '\n' out.dropLast
  rw [← page_eq_written, Text.page, if_neg more, joined, ← last]

/-- The lines of a laid-out stylesheet, moved and put between the tags of an element, are laid out
like the stylesheet. -/
theorem format_moved {style : Style} {t out : Text} (laid : format style t = .ok out)
    (some : out ≠ []) (lined : Lined out) {indent outer : Text}
    (blanks : ∀ c ∈ indent, isBlank c = true) (behind : ∀ c ∈ outer, isBlank c = true) :
    format style ('\n' :: (written ((Text.lines out.dropLast).map (indented indent)) ++ outer)) =
      format style out := by
  obtain ⟨whole, -⟩ := flush_of_format laid some
  have complete : ∀ line ∈ Text.lines out.dropLast, ∀ l ∈ lexemes line, l.isOpen = false :=
    fun line member => lined line (by rw [whole]; exact List.mem_append_left _ member)
  have alike := readAlike_indented blanks behind complete [] 0
  rw [written_lines_dropLast laid some] at alike
  have newline (t : Text) : lexemes ('\n' :: t) = .char '\n' :: lexemes t :=
    lexemes_blanks_append (show ∀ c ∈ ['\n'], isBlank c = true by decide) t
  have start : tokens ('\n' :: out) = tokens out := by
    rw [tokens, newline]
    exact (tokensFrom_newline [] 0 _).trans (tokensFrom_append_blanks (by simp; rfl) [] 0 _)
  rw [format, format, tokens, newline, ← alike, ← newline, ← tokens, start]

/-- A stylesheet in which no statement leaves a parenthesis open at the end of a block has a layout
that is laid out as it is. -/
theorem format_of_format {style : Style} {t out : Text} (accepted : format style t = .ok out)
    (ends : finishes false 0 (lexemes t) = true) : format style out = .ok out := by
  obtain ⟨sound, readable⟩ := fault_of_format accepted
  obtain ⟨lines, made, rfl⟩ := format_eq_ok_iff.mp accepted
  rw [sound] at made
  obtain ⟨again, kept, -, same⟩ := exists_linesFrom_reread made readable
  refine format_eq_ok_iff.mpr ⟨again, ?_, by rw [same ((readable_tokens sound).2.mpr ends)]⟩
  rw [tokens_of_format accepted]
  exact kept

end StaticSite.Stylesheet
