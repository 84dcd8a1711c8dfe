import StaticSite.Proofs.Stylesheet.Stability

/-! # When reading meets no fault

Whether lexemes are read without a fault depends on little: on the marks, on where blanks stand, and
on whether a statement has begun, but not on what comments and strings hold. The braces among the
tokens are then those among the characters, and they alone decide whether a layout exists.
-/

namespace StaticSite.Stylesheet

/-- Whether lexemes are read without a fault; `begun` tells whether the pending statement has
anything in it that is not blank. -/
def sound (begun : Bool) (parens : Nat) : List Lexeme → Bool
  | [] => !begun
  | .openComment _ :: _ | .openQuoted _ _ :: _ => false
  | .comment _ :: rest => sound begun parens rest
  | .quoted _ _ :: rest => sound true parens rest
  | .char c :: rest =>
      if c = '\x7b' then begun && sound false parens rest
      else if c = '\x7d' then sound false parens rest
      else if c = ';' ∧ parens = 0 then sound false parens rest
      else sound (begun || !isBlank c) (parensStep parens c) rest

/-- Lexemes that are not all blank have a phrase. -/
theorem phrase_ne_nil {ls : List Lexeme} (lexed : Lexed ls)
    (visible : ¬ ∀ l ∈ ls, l.isBlank = true) : phrase ls ≠ [] := by
  intro none
  have empty : tightened ls = [] := by
    rw [← lexemes_phrase lexed, none]
    rfl
  let shown : Lexeme → Option Lexeme := fun l => if l.isBlank then .none else .some l
  have unseen : ∀ l, l.isBlank = true → shown l = .none := fun l blank => if_pos blank
  have same : (tightened ls).filterMap shown = ls.filterMap shown := by
    rw [tightened, filterMap_trimmed unseen, filterMap_squeezed unseen]
  rw [empty, List.filterMap_nil, eq_comm, List.filterMap_eq_nil_iff] at same
  refine visible fun l member => ?_
  have hidden := same l member
  simpa [shown] using hidden

/-! ## Faults -/

theorem Lexed.behind {ls rest : List Lexeme} {l : Lexeme} (lexed : Lexed (ls ++ l :: rest)) :
    Lexed rest :=
  lexed.within ((List.suffix_cons _ _).trans (List.suffix_append _ _)).isInfix

/-- Reading meets no fault exactly where lexemes are sound. -/
theorem fault_tokensFrom {pending ls : List Lexeme} {parens : Nat}
    (lexed : Lexed (pending.reverse ++ ls)) :
    (tokensFrom pending parens ls).fault = none ↔
      sound (!pending.all Lexeme.isBlank) parens ls = true := by
  fun_induction tokensFrom pending parens ls with
  | case1 pending parens blank => simp [sound, blank]
  | case2 pending parens visible => simp [sound, visible, Tokens.stop]
  | case3 => simp [sound, Tokens.stop]
  | case4 => simp [sound, Tokens.stop]
  | case5 pending parens body rest blank ih =>
    rw [sound, blank]
    exact ih lexed.behind
  | case6 pending parens body rest visible ih =>
    simpa [sound, visible, Lexeme.isBlank] using ih (by simpa using lexed)
  | case7 pending parens quote body rest ih =>
    simpa [sound, Lexeme.isBlank] using ih (by simpa using lexed)
  | case8 pending parens rest text empty =>
    have blank : pending.all Lexeme.isBlank = true := by
      by_contra visible
      refine phrase_ne_nil (lexed.within (List.prefix_append _ _).isInfix) ?_
        (List.isEmpty_iff.mp empty)
      simpa using visible
    simp [sound, blank, Tokens.stop]
  | case9 pending parens rest text some =>
    rename_i ih
    have visible : pending.all Lexeme.isBlank = false := by
      by_contra blanks
      have blank : phrase pending.reverse = [] := phrase_of_blanks (by simpa using blanks)
      simp [text, blank] at some
    rw [sound, if_pos rfl, visible]
    exact ih lexed.behind
  | case10 pending parens rest notOpening ih =>
    rw [sound, if_neg notOpening, if_pos rfl, Tokens.fault_consDeclaration, Tokens.fault_cons]
    exact ih lexed.behind
  | case11 pending parens c rest notOpening notClosing ends ih =>
    rw [sound, if_neg notOpening, if_neg notClosing, if_pos ends, Tokens.fault_consDeclaration]
    exact ih lexed.behind
  | case12 pending parens rest notOpening notClosing notEnd ih =>
    rw [sound, if_neg notOpening, if_neg notClosing, if_neg notEnd]
    simpa [Lexeme.isBlank, Bool.or_comm, parensStep] using ih (by simpa using lexed)
  | case13 pending parens rest notOpening notClosing notEnd notLeft ih =>
    rw [sound, if_neg notOpening, if_neg notClosing, if_neg notEnd]
    simpa [Lexeme.isBlank, Bool.or_comm, parensStep] using ih (by simpa using lexed)
  | case14 pending parens c rest notOpening notClosing notEnd notLeft notRight ih =>
    rw [sound, if_neg notOpening, if_neg notClosing, if_neg notEnd]
    simpa [Lexeme.isBlank, Bool.or_comm, parensStep, notLeft, notRight] using
      ih (by simpa using lexed)

/-- Sound lexemes are complete. -/
theorem isOpen_of_sound {begun : Bool} {parens : Nat} {ls : List Lexeme}
    (good : sound begun parens ls = true) : ∀ l ∈ ls, l.isOpen = false := by
  fun_induction sound begun parens ls with
  | case1 => simp
  | case2 => cases good
  | case3 => cases good
  | _ => simp_all [Lexeme.isOpen]

/-- A text is read without a fault exactly when its lexemes are sound. -/
theorem fault_tokens {t : Text} :
    (tokens t).fault = none ↔ sound false 0 (lexemes t) = true := by
  constructor
  · intro none
    exact (fault_tokensFrom (lexed_lexemes (isOpen_of_fault none))).mp none
  · intro good
    exact (fault_tokensFrom (lexed_lexemes (isOpen_of_sound good))).mpr good

/-! ## Braces -/

/-- Whether a character is a brace. -/
def isBrace (c : Char) : Bool := c == '\x7b' || c == '\x7d'

/-- The brace that a token is. -/
def Token.brace? : Token → Option Char
  | .opening _ => some '\x7b'
  | .closing => some '\x7d'
  | .declaration _ | .comment _ => none

/-- The braces of tokens in order. -/
def braces (ts : List Token) : Text := ts.filterMap Token.brace?

theorem braces_append (ts us : List Token) : braces (ts ++ us) = braces ts ++ braces us :=
  List.filterMap_append

/-- Whether a token is a comment. -/
def Token.isComment : Token → Bool
  | .comment _ => true
  | _ => false

theorem braces_consDeclaration (pending : List Lexeme) (rest : Tokens) :
    braces (rest.consDeclaration pending).items = braces rest.items := by
  unfold Tokens.consDeclaration
  split <;> rfl

/-- The braces among the characters of lexemes. -/
def braceMarks (ls : List Lexeme) : Text := (marks ls).filter isBrace

theorem braceMarks_append (ls ms : List Lexeme) :
    braceMarks (ls ++ ms) = braceMarks ls ++ braceMarks ms := by
  rw [braceMarks, marks_append, List.filter_append]
  rfl

theorem braceMarks_char_cons {c : Char} (notOpening : c ≠ '\x7b') (notClosing : c ≠ '\x7d')
    (ls : List Lexeme) : braceMarks (.char c :: ls) = braceMarks ls := by
  have noBrace : isBrace c = false := by simp [isBrace, notOpening, notClosing]
  by_cases mark : isMark c = true <;> simp [braceMarks, marks, Lexeme.mark?, mark, noBrace]

/-- The braces of the tokens are the braces among the characters. -/
theorem braces_tokensFrom {pending ls : List Lexeme} {parens : Nat}
    (none : (tokensFrom pending parens ls).fault = none) :
    braces (tokensFrom pending parens ls).items = braceMarks ls := by
  fun_induction tokensFrom pending parens ls with
  | case1 => rfl
  | case2 => cases none
  | case3 => cases none
  | case4 => cases none
  | case5 pending parens body rest blank ih => exact ih none
  | case6 pending parens body rest visible ih => exact ih none
  | case7 pending parens quote body rest ih => exact ih none
  | case8 => cases none
  | case9 pending parens rest text some =>
    rename_i ih
    exact congrArg ('\x7b' :: ·) (ih none)
  | case10 pending parens rest notOpening ih =>
    rw [braces_consDeclaration]
    rw [Tokens.fault_consDeclaration] at none
    exact congrArg ('\x7d' :: ·) (ih none)
  | case11 pending parens c rest notOpening notClosing ends ih =>
    rw [Tokens.fault_consDeclaration] at none
    rw [braces_consDeclaration, ih none, braceMarks_char_cons notOpening notClosing]
  | case12 pending parens rest notOpening notClosing notEnd ih => exact ih none
  | case13 pending parens rest notOpening notClosing notEnd notLeft ih => exact ih none
  | case14 pending parens c rest notOpening notClosing notEnd notLeft notRight ih =>
    rw [ih none, braceMarks_char_cons notOpening notClosing]

/-- Whether braces are in balance behind some that are open. -/
def nested (depth : Nat) : Text → Bool
  | [] => depth == 0
  | c :: rest =>
      if c = '\x7b' then nested (depth + 1) rest else depth != 0 && nested (depth - 1) rest

/-- The balance of tokens is that of their braces. -/
theorem balanced_eq_nested (depth : Nat) (ts : List Token) :
    balanced depth ts = nested depth (braces ts) := by
  induction ts generalizing depth with
  | nil => rfl
  | cons token rest ih =>
    cases token with
    | closing =>
      cases depth with
      | zero => rfl
      | succ outer => simpa [balanced, braces, Token.brace?, nested] using ih outer
    | opening start => simpa [balanced, braces, Token.brace?, nested] using ih (depth + 1)
    | _ => exact ih depth

/-- Braces in balance make no difference to what stands behind them. -/
theorem nested_append {inner : Nat} {some : Text} (even : nested inner some = true) (depth : Nat)
    (more : Text) : nested (inner + depth) (some ++ more) = nested depth more := by
  induction some generalizing inner with
  | nil =>
    obtain rfl : inner = 0 := by simpa [nested] using even
    rw [List.nil_append, Nat.zero_add]
  | cons c rest ih =>
    rw [nested] at even
    rw [List.cons_append, nested]
    split at even
    · next opening =>
      rw [if_pos opening, Nat.add_right_comm]
      exact ih even
    · next closing =>
      simp only [Bool.and_eq_true, bne_iff_ne, ne_eq] at even
      obtain ⟨some, later⟩ := even
      have shift : inner + depth - 1 = inner - 1 + depth := by omega
      have opened : (inner + depth != 0) = true := by
        simp only [bne_iff_ne, ne_eq]
        omega
      rw [if_neg closing, opened, Bool.true_and, shift]
      exact ih later

/-! ## Layouts -/

/-- Whether a text has a layout; it has one in every style then. -/
def Accepted (t : Text) : Prop := ∃ style out, format style t = .ok out

theorem Accepted.format {t : Text} (accepted : Accepted t) (style : Style) :
    ∃ out, format style t = .ok out := by
  obtain ⟨first, out, laid⟩ := accepted
  exact exists_format laid style

theorem accepted_iff {t : Text} :
    Accepted t ↔ (tokens t).fault = none ∧ nested 0 (braces (tokens t).items) = true := by
  rw [← balanced_eq_nested]
  constructor
  · rintro ⟨style, out, laid⟩
    obtain ⟨lines, made, -⟩ := format_eq_ok_iff.mp laid
    exact (exists_linesFrom_iff _ _ _ _ _).mp ⟨lines, made⟩
  · intro good
    obtain ⟨lines, made⟩ := (exists_linesFrom_iff .standard _ 0 .nothing _).mpr good
    exact ⟨.standard, _, format_eq_ok_iff.mpr ⟨lines, made, rfl⟩⟩

/-- A layout has a layout. -/
theorem accepted_of_format {style : Style} {t out : Text} (laid : format style t = .ok out) :
    Accepted out := by
  have first : Accepted t := ⟨style, out, laid⟩
  rw [accepted_iff, ← balanced_eq_nested] at first ⊢
  rw [tokens_of_format laid, balanced_reread]
  exact ⟨rfl, first.2⟩

end StaticSite.Stylesheet
