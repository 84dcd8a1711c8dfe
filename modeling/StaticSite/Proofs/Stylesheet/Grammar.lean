import StaticSite.Formatting.Outcome
import StaticSite.Proofs.Stylesheet.Soundness

/-! # The grammar of stylesheets

Which texts have a layout can be said of their lexemes alone: comments and strings end, blocks are
in balance, every block has a prelude, and nothing is left over at the end. Formatting succeeds for
exactly these texts; every other text comes back as it was, with one error.
-/

namespace StaticSite.Stylesheet

/-! ## Statements that have begun -/

/-- Whether a lexeme ends a statement behind others: a brace does, and so does a semicolon that
meets no open parenthesis. -/
def ends (before : List Lexeme) : Lexeme → Bool
  | .char c => endsStatement (parensAfter 0 (marks before)) c
  | _ => false

/-- Whether a lexeme is neither blank nor a comment. -/
def Lexeme.shows (l : Lexeme) : Bool := !l.isBlank && !l.isComment

/-- Whether a statement has begun: behind the last end of a statement stands something that is
neither blank nor a comment. -/
def Begun (ls : List Lexeme) : Prop :=
  ∃ start l behind, ls = start ++ l :: behind ∧ l.shows = true ∧
    ∀ mid m more, l :: behind = mid ++ m :: more → ends (start ++ mid) m = false

theorem not_begun_nil : ¬ Begun [] := by
  rintro ⟨start, l, behind, split, -⟩
  simp at split

/-- One more lexeme begins a statement or goes on with it, unless it ends one. -/
theorem begun_append_singleton {ls : List Lexeme} {x : Lexeme} :
    Begun (ls ++ [x]) ↔ ends ls x = false ∧ (Begun ls ∨ x.shows = true) := by
  constructor
  · rintro ⟨start, l, behind, split, shown, goesOn⟩
    cases behind using List.reverseRecOn with
    | nil =>
      obtain ⟨rfl, last⟩ := List.append_inj' split rfl
      obtain rfl : x = l := by simpa using last
      exact ⟨by simpa using goesOn [] x [] rfl, .inr shown⟩
    | append_singleton inner y =>
      rw [← List.cons_append, ← List.append_assoc] at split
      obtain ⟨rfl, last⟩ := List.append_inj' split rfl
      obtain rfl : x = y := by simpa using last
      refine ⟨goesOn (l :: inner) x [] rfl, .inl ⟨start, l, inner, rfl, shown, ?_⟩⟩
      intro mid m more part
      exact goesOn mid m (more ++ [x]) (by rw [← List.cons_append, part]; simp)
  · rintro ⟨goesOn, ⟨start, l, behind, rfl, shown, inside⟩ | shown⟩
    · refine ⟨start, l, behind ++ [x], by simp, shown, fun mid m more part => ?_⟩
      cases more using List.reverseRecOn with
      | nil =>
        obtain ⟨rfl, last⟩ := List.append_inj' (List.cons_append.trans part) rfl
        obtain rfl : x = m := by simpa using last
        exact goesOn
      | append_singleton inner y =>
        rw [← List.cons_append, ← List.cons_append, ← List.append_assoc] at part
        obtain ⟨split, -⟩ := List.append_inj' part rfl
        exact inside mid m inner split
    · refine ⟨ls, x, [], rfl, shown, fun mid m more part => ?_⟩
      obtain ⟨rfl, rfl, -⟩ : mid = [] ∧ m = x ∧ more = [] := by
        cases mid <;> simp_all
      simpa using goesOn

/-! ## The grammar -/

/-- Lexemes of a stylesheet. -/
structure Grammatical (ls : List Lexeme) : Prop where
  /-- No beginning closes more blocks than it opens. -/
  opened : ∀ before, before <+: marks ls → before.count '\x7d' ≤ before.count '\x7b'
  /-- All blocks are closed. -/
  closed : (marks ls).count '\x7d' = (marks ls).count '\x7b'
  /-- Every block has a prelude. -/
  headed : ∀ before, before ++ [.char '\x7b'] <+: ls → Begun before
  /-- Nothing is left over at the end. -/
  finished : ¬ Begun ls

/-- Every block behind `seen` has a prelude, and nothing is left over. -/
def Ended (seen ls : List Lexeme) : Prop :=
  (∀ before, before ++ [.char '\x7b'] <+: ls → Begun (seen ++ before)) ∧ ¬ Begun (seen ++ ls)

theorem ended_cons {seen rest : List Lexeme} {l : Lexeme} :
    Ended seen (l :: rest) ↔
      (l = .char '\x7b' → Begun seen) ∧ Ended (seen ++ [l]) rest := by
  have whole : seen ++ l :: rest = seen ++ [l] ++ rest := by simp
  rw [Ended, Ended, whole, ← and_assoc]
  refine and_congr_left' ⟨fun headed => ⟨?_, fun before inside => ?_⟩, fun ⟨here, later⟩ => ?_⟩
  · rintro rfl
    simpa using headed [] (by simp)
  · have start := headed (l :: before) (by simpa using inside)
    simpa using start
  · intro before inside
    cases before with
    | nil =>
      obtain rfl : Lexeme.char '\x7b' = l := by simpa using inside
      simpa using here rfl
    | cons m others =>
      obtain ⟨rfl, inner⟩ : m = l ∧ others ++ [Lexeme.char '\x7b'] <+: rest := by
        simpa [List.cons_prefix_cons] using inside
      simpa using later others inner

theorem ends_char (before : List Lexeme) (c : Char) :
    ends before (.char c) = endsStatement (parensAfter 0 (marks before)) c := rfl

/-- Lexemes are read without a fault exactly when every block has a prelude and nothing is left
over. -/
theorem sound_iff_ended {begun : Bool} {seen ls : List Lexeme}
    (complete : ∀ l ∈ ls, l.isOpen = false) (start : begun = true ↔ Begun seen) :
    sound begun (parensAfter 0 (marks seen)) ls = true ↔ Ended seen ls := by
  induction ls generalizing begun seen with
  | nil => simp [sound, Ended, ← start]
  | cons l rest ih =>
    obtain ⟨whole, others⟩ := List.forall_mem_cons.mp complete
    rw [ended_cons]
    cases l with
    | char c =>
      have later (after : Bool) (same : after = true ↔ Begun (seen ++ [.char c])) :
          sound after (parensStep (parensAfter 0 (marks seen)) c) rest = true ↔
            Ended (seen ++ [.char c]) rest := by
        rw [← ih others same, marks_append, parensAfter_append, parensAfter_char]
      rw [begun_append_singleton, ends_char] at later
      rw [sound]
      split_ifs with opening closing semicolon
      · subst opening
        simpa [start, parensStep] using fun _ => later false (by simp [endsStatement])
      · subst closing
        simpa [parensStep] using later false (by simp [endsStatement])
      · obtain ⟨rfl, none⟩ := semicolon
        simpa [parensStep] using later false (by simp [endsStatement, none])
      · have goesOn : endsStatement (parensAfter 0 (marks seen)) c = false := by
          simpa [endsStatement, opening, closing] using semicolon
        simpa [opening] using later (begun || !isBlank c)
          (by simp [goesOn, start, Lexeme.shows, Lexeme.isBlank, Lexeme.isComment])
    | comment body =>
      have unmarked : marks [Lexeme.comment body] = [] := rfl
      have later := @ih begun (seen ++ [.comment body]) others
        (by simp [begun_append_singleton, start, ends, Lexeme.shows, Lexeme.isComment])
      rw [marks_append, unmarked, List.append_nil] at later
      simpa [sound] using later
    | quoted quote body =>
      have unmarked : marks [Lexeme.quoted quote body] = [] := rfl
      have later := @ih true (seen ++ [.quoted quote body]) others
        (by simp [begun_append_singleton, ends, Lexeme.shows, Lexeme.isComment, Lexeme.isBlank])
      rw [marks_append, unmarked, List.append_nil] at later
      simpa [sound] using later
    | openComment body => simp [Lexeme.isOpen] at whole
    | openQuoted quote body => simp [Lexeme.isOpen] at whole

theorem forall_prefix_cons {α : Type} {p : List α → Prop} {a : α} {rest : List α} :
    (∀ before, before <+: a :: rest → p before) ↔
      p [] ∧ ∀ before, before <+: rest → p (a :: before) := by
  constructor
  · intro all
    exact ⟨all [] List.nil_prefix, fun before inside =>
      all _ (List.cons_prefix_cons.mpr ⟨rfl, inside⟩)⟩
  · rintro ⟨none, some⟩ before inside
    rcases List.prefix_cons_iff.mp inside with rfl | ⟨inner, rfl, within⟩
    · exact none
    · exact some inner within

/-- Braces are in balance exactly when no beginning closes more blocks than are open and all are
closed in the end. -/
theorem nested_filter_iff (depth : Nat) (t : Text) :
    nested depth (t.filter isBrace) = true ↔
      (∀ before, before <+: t → before.count '\x7d' ≤ before.count '\x7b' + depth) ∧
        t.count '\x7d' = t.count '\x7b' + depth := by
  induction t generalizing depth with
  | nil => simpa [nested] using eq_comm
  | cons c rest ih =>
    rw [forall_prefix_cons]
    by_cases opening : c = '\x7b'
    · subst opening
      have shift (n : Nat) : n + 1 + depth = n + (depth + 1) := by omega
      simp [isBrace, nested, ih, shift]
    · by_cases closing : c = '\x7d'
      · subst closing
        cases depth with
        | zero =>
          have shut : nested 0 (('\x7d' :: rest).filter isBrace) = false := by
            simp [isBrace, nested]
          refine ⟨fun balanced => absurd balanced (by simp [shut]), ?_⟩
          rintro ⟨⟨-, opened⟩, -⟩
          exact absurd (opened [] List.nil_prefix) (by simp)
        | succ outer =>
          have shift (n : Nat) : n + (outer + 1) = n + outer + 1 := by omega
          simp [isBrace, nested, ih, shift]
      · simp [isBrace, opening, closing, ih]

/-- A text has a layout exactly when it is written in lexemes that are those of a stylesheet. -/
theorem accepted_iff_grammatical {t : Text} :
    Accepted t ↔ ∃ ls, Lexed ls ∧ ls.flatMap Lexeme.text = t ∧ Grammatical ls := by
  have grammatical {ls : List Lexeme} (complete : ∀ l ∈ ls, l.isOpen = false) :
      sound false 0 ls = true ∧ nested 0 (braceMarks ls) = true ↔ Grammatical ls := by
    have ended := @sound_iff_ended false [] ls complete (by simp [not_begun_nil])
    rw [marks_nil] at ended
    rw [show sound false 0 ls = true ↔ Ended [] ls from ended, braceMarks, nested_filter_iff]
    constructor
    · rintro ⟨⟨headed, finished⟩, opened, closed⟩
      exact ⟨opened, closed, headed, finished⟩
    · intro good
      exact ⟨⟨good.headed, good.finished⟩, good.opened, good.closed⟩
  constructor
  · intro accepted
    obtain ⟨faultless, even⟩ := accepted_iff.mp accepted
    rw [tokens, braces_tokensFrom faultless] at even
    have complete := isOpen_of_fault faultless
    exact ⟨lexemes t, lexed_lexemes complete, flatMap_text_lexemes t,
      (grammatical complete).mp ⟨fault_tokens.mp faultless, even⟩⟩
  · rintro ⟨ls, lexed, rfl, good⟩
    have read := lexemes_flatMap_text lexed
    obtain ⟨sound, even⟩ := (grammatical fun l member => (lexed.1 l member).isOpen).mpr good
    have faultless := fault_tokens.mpr (read.symm ▸ sound)
    refine accepted_iff.mpr ⟨faultless, ?_⟩
    rw [tokens, braces_tokensFrom faultless, read]
    exact even

end StaticSite.Stylesheet

namespace StaticSite.Formatting

open Stylesheet

/-- Formatting a stylesheet succeeds exactly where the style has a unit and the text is in the
grammar; where it does not, the text stays as it is, with one error. -/
theorem outcome_stylesheet (style : Style) (t : Text) :
    ((outcome .stylesheet style t).success = true ↔ style.unitFault? = none ∧
      ∃ ls, Lexed ls ∧ ls.flatMap Lexeme.text = t ∧ Grammatical ls) ∧
    ((outcome .stylesheet style t).success = false →
      ∃ message, outcome .stylesheet style t = ⟨t, false, [message]⟩) := by
  have laid : (∃ out, format .stylesheet style t = .ok out) ↔ style.unitFault? = none ∧
      ∃ ls, Lexed ls ∧ ls.flatMap Lexeme.text = t ∧ Grammatical ls := by
    rw [← checkUnit_eq_ok_iff, ← accepted_iff_grammatical]
    constructor
    · rintro ⟨out, made⟩
      obtain ⟨unit, made⟩ := format_stylesheet_iff.mp made
      exact ⟨unit, style, out, made⟩
    · rintro ⟨unit, accepted⟩
      obtain ⟨out, made⟩ := accepted.format style
      exact ⟨out, format_stylesheet_iff.mpr ⟨unit, made⟩⟩
  rw [← laid, outcome]
  cases format .stylesheet style t with
  | ok out => simp [Outcome.success]
  | error fault => simp [Outcome.success]

end StaticSite.Formatting
