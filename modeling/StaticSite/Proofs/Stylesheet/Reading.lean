import StaticSite.Proofs.Stylesheet.Statement

/-! # What a stylesheet is read as

While lexemes are read, those that are pending make up a statement that has begun, and `Reading`
says how. The tokens that come out are `Readable`: the text of each is a statement, and a statement
that leaves a parenthesis open is the last one of its block.
-/

namespace StaticSite.Stylesheet

/-! ## Texts of statements -/

/-- A text that is read as one statement where some parentheses are open. -/
structure Statement (parens : Nat) (t : Text) : Prop where
  phrasal : Phrasal (lexemes t)
  last : ∀ l ∈ (lexemes t).getLast?, l.isBlank = false
  inside : Within parens (marks (lexemes t))

/-- The number of open parentheses behind a statement. -/
def openAfter (parens : Nat) (t : Text) : Nat := parensAfter parens (marks (lexemes t))

theorem Statement.head {parens : Nat} {t : Text} (statement : Statement parens t) :
    ∀ c ∈ t.head?, isBlank c = false := by
  have visible := isBlank_of_head?_text statement.phrasal.lexed.1 statement.phrasal.head
  rwa [flatMap_text_lexemes] at visible

theorem Statement.ne_nil {parens : Nat} {t : Text} (statement : Statement parens t) : t ≠ [] := by
  rintro rfl
  have starts := statement.phrasal.starts
  simp [lexemes, lexemesFrom, begins] at starts

/-- The phrase of lexemes that begin a statement and stay within it is a statement. -/
theorem statement_phrase {parens : Nat} {ls : List Lexeme} (lexed : Lexed ls)
    (starts : begins ls = true) (inside : Within parens (marks ls)) :
    Statement parens (phrase ls) := by
  have read := lexemes_phrase lexed
  refine ⟨⟨?_, ?_, ?_, ?_⟩, ?_, ?_⟩
  · rw [read]
    exact lexed_tightened lexed
  · rw [read]
    exact spaced_tightened ls
  · rw [read]
    exact head?_trimmed _
  · rw [read]
    exact begins_tightened starts
  · rw [read]
    exact getLast?_trimmed _
  · rwa [read, marks_tightened]

theorem openAfter_phrase {parens : Nat} {ls : List Lexeme} (lexed : Lexed ls) :
    openAfter parens (phrase ls) = parensAfter parens (marks ls) := by
  rw [openAfter, lexemes_phrase lexed, marks_tightened]

/-! ## Tokens -/

/-- The number of open parentheses behind a token. -/
def Token.parensBehind (parens : Nat) : Token → Nat
  | .opening start => openAfter parens start
  | .declaration t => openAfter parens t
  | .closing | .comment _ => parens

/-- Tokens as they are read where some parentheses are open. -/
def Readable (parens : Nat) : List Token → Prop
  | [] => True
  | .opening start :: rest => Statement parens start ∧ Readable (openAfter parens start) rest
  | .closing :: rest => Readable parens rest
  | .declaration t :: rest =>
      Statement parens t ∧ (openAfter parens t = 0 ∨ rest.head? = some .closing) ∧
        Readable (openAfter parens t) rest
  | .comment t :: rest =>
      (∃ body, CommentBody body ∧ t = (Lexeme.comment body).text) ∧ Readable parens rest

/-- The number of declarations that leave a parenthesis open. -/
def unclosed (parens : Nat) : List Token → Nat
  | [] => 0
  | .declaration t :: rest =>
      (if openAfter parens t = 0 then 0 else 1) + unclosed (openAfter parens t) rest
  | token :: rest => unclosed (token.parensBehind parens) rest

@[simp] theorem Tokens.fault_cons (token : Token) (rest : Tokens) :
    (rest.cons token).fault = rest.fault := rfl

@[simp] theorem Tokens.fault_consDeclaration (pending : List Lexeme) (rest : Tokens) :
    (rest.consDeclaration pending).fault = rest.fault := by
  unfold Tokens.consDeclaration
  split <;> rfl

theorem Tokens.consDeclaration_of_blanks {pending : List Lexeme}
    (blanks : ∀ l ∈ pending, l.isBlank = true) (rest : Tokens) :
    rest.consDeclaration pending = rest := if_pos (by simpa using blanks)

theorem Tokens.consDeclaration_of_visible {pending : List Lexeme}
    (visible : ¬ ∀ l ∈ pending, l.isBlank = true) (rest : Tokens) :
    rest.consDeclaration pending = rest.cons (.declaration (phrase pending.reverse)) :=
  if_neg (by simpa using visible)

/-! ## The statement so far -/

/-- What is known while lexemes are read: `start` parentheses were open where the pending statement
began, and `parens` are open behind its pending lexemes. -/
structure Reading (start parens : Nat) (pending rest : List Lexeme) : Prop where
  lexed : Lexed (pending.reverse ++ rest)
  begun : (∀ l ∈ pending, l.isBlank = true) ∨ begins pending.reverse = true
  inside : Within start (marks pending.reverse)
  count : parensAfter start (marks pending.reverse) = parens

namespace Reading

variable {start parens : Nat} {pending rest : List Lexeme} {l : Lexeme}

theorem fresh {ls : List Lexeme} (lexed : Lexed ls) (parens : Nat) : Reading parens parens [] ls :=
  ⟨lexed, .inl (by simp), trivial, rfl⟩

theorem lexed_pending (reading : Reading start parens pending rest) : Lexed pending.reverse :=
  reading.lexed.within (List.prefix_append _ _).isInfix

theorem lexed_rest (reading : Reading start parens pending (l :: rest)) : Lexed rest :=
  reading.lexed.within ((List.suffix_cons _ _).trans (List.suffix_append _ _)).isInfix

/-- One more lexeme that stays within the statement. -/
theorem collect (reading : Reading start parens pending (l :: rest))
    (part : (∀ m ∈ pending, m.isBlank = true) → l.isComment = false)
    (stays : Within parens (marks [l])) :
    Reading start (parensAfter parens (marks [l])) (l :: pending) rest := by
  obtain ⟨lexed, begun, inside, count⟩ := reading
  refine ⟨by simpa using lexed, ?_, ?_, ?_⟩
  · rw [List.reverse_cons]
    rcases begun with blanks | starts
    · by_cases blank : l.isBlank = true
      · exact .inl (List.forall_mem_cons.mpr ⟨blank, blanks⟩)
      · rw [begins_blanks (by simpa using blanks)]
        exact .inr (by simp [begins, blank, part blanks])
    · exact .inr (by rwa [begins_append _ (exists_visible_of_begins starts)])
  · rw [List.reverse_cons, marks_append, within_append, count]
    exact ⟨inside, stays⟩
  · rw [List.reverse_cons, marks_append, parensAfter_append, count]

/-- Pending lexemes that are blank leave the parentheses as they are. -/
theorem start_eq (reading : Reading start parens pending rest)
    (blanks : ∀ l ∈ pending, l.isBlank = true) : start = parens := by
  have none : marks pending.reverse = [] := marks_of_blanks (by simpa using blanks)
  have count := reading.count
  rwa [none] at count

/-- Pending lexemes that are not all blank make up a statement. -/
theorem statement (reading : Reading start parens pending rest)
    (visible : ¬ ∀ l ∈ pending, l.isBlank = true) :
    Statement start (phrase pending.reverse) ∧
      openAfter start (phrase pending.reverse) = parens := by
  have starts := reading.begun.resolve_left visible
  exact ⟨statement_phrase reading.lexed_pending starts reading.inside,
    (openAfter_phrase reading.lexed_pending).trans reading.count⟩

/-- The pending statement and readable tokens behind it are readable. -/
theorem consDeclaration (reading : Reading start parens pending rest) {behind : Tokens}
    (ends : parens = 0 ∨ behind.items.head? = some .closing)
    (readable : Readable parens behind.items) :
    Readable start (behind.consDeclaration pending).items := by
  by_cases blanks : ∀ l ∈ pending, l.isBlank = true
  · obtain rfl := reading.start_eq blanks
    rwa [Tokens.consDeclaration_of_blanks blanks]
  · obtain ⟨statement, closed⟩ := reading.statement blanks
    rw [Tokens.consDeclaration_of_visible blanks]
    exact ⟨statement, ends.imp_left closed.trans, closed ▸ readable⟩

/-- The pending statement counts where it leaves a parenthesis open. -/
theorem unclosed_consDeclaration (reading : Reading start parens pending rest) (behind : Tokens) :
    unclosed start (behind.consDeclaration pending).items =
      (if pending.all Lexeme.isBlank || parens == 0 then 0 else 1) +
        unclosed parens behind.items := by
  by_cases blanks : ∀ l ∈ pending, l.isBlank = true
  · obtain rfl := reading.start_eq blanks
    rw [Tokens.consDeclaration_of_blanks blanks, List.all_eq_true.mpr blanks]
    simp
  · obtain ⟨statement, closed⟩ := reading.statement blanks
    have visible : pending.all Lexeme.isBlank = false := by simpa using blanks
    rw [Tokens.consDeclaration_of_visible blanks]
    simp [Tokens.cons, unclosed, closed, visible]

end Reading

/-! ## All lexemes -/

/-- Whether no parenthesis is open at any brace. -/
def closesParens (parens : Nat) : List Lexeme → Bool
  | [] => true
  | .char c :: rest =>
      (!(c == '\x7b' || c == '\x7d') || parens == 0) && closesParens (parensStep parens c) rest
  | _ :: rest => closesParens parens rest

/-- Whether no block closes while a statement that has `begun` leaves a parenthesis open. -/
def finishes (begun : Bool) (parens : Nat) : List Lexeme → Bool
  | [] => true
  | .char c :: rest =>
      if c = '\x7b' then finishes false parens rest
      else if c = '\x7d' then (!begun || parens == 0) && finishes false parens rest
      else if c = ';' ∧ parens = 0 then finishes false parens rest
      else finishes (begun || !isBlank c) (parensStep parens c) rest
  | .comment _ :: rest => finishes begun parens rest
  | _ :: rest => finishes true parens rest

/-- Where every brace finds the parentheses closed, every block does. -/
theorem finishes_of_closesParens {begun : Bool} {parens : Nat} {ls : List Lexeme}
    (closes : closesParens parens ls = true) : finishes begun parens ls = true := by
  induction ls generalizing begun parens with
  | nil => rfl
  | cons l rest ih =>
    cases l with
    | char c =>
      simp only [closesParens, Bool.and_eq_true] at closes
      obtain ⟨closed, others⟩ := closes
      rw [finishes]
      split_ifs with opening closing ends
      · subst opening
        exact ih others
      · subst closing
        obtain rfl : parens = 0 := by simpa using closed
        simpa [parensStep] using ih others
      · obtain ⟨rfl, rfl⟩ := ends
        exact ih others
      · exact ih others
    | _ => exact ih closes

/-- Reading gives readable tokens, and all of them close their parentheses exactly where every block
finds them closed. -/
theorem readable_tokensFrom {start parens : Nat} {pending ls : List Lexeme}
    (reading : Reading start parens pending ls)
    (sound : (tokensFrom pending parens ls).fault = none) :
    Readable start (tokensFrom pending parens ls).items ∧
      (unclosed start (tokensFrom pending parens ls).items = 0 ↔
        finishes (!pending.all Lexeme.isBlank) parens ls = true) := by
  fun_induction tokensFrom pending parens ls generalizing start with
  | case1 => exact ⟨trivial, fun _ => rfl, fun _ => rfl⟩
  | case2 => simp [Tokens.stop] at sound
  | case3 => simp [Tokens.stop] at sound
  | case4 => simp [Tokens.stop] at sound
  | case5 pending parens body rest blank ih =>
    obtain rfl := reading.start_eq (by simpa using blank)
    have inside : CommentBody body := reading.lexed.1 (.comment body) (by simp)
    obtain ⟨readable, exactly⟩ := ih (.fresh reading.lexed_rest _) sound
    refine ⟨⟨⟨body, inside, rfl⟩, readable⟩, ?_⟩
    rw [finishes, blank]
    exact exactly
  | case6 pending parens body rest visible ih =>
    have step := reading.collect (fun blanks => absurd (by simpa using blanks) visible) trivial
    rw [finishes]
    simpa [visible, Lexeme.isBlank] using ih step sound
  | case7 pending parens quote body rest ih =>
    simpa [Lexeme.isBlank, finishes] using ih (reading.collect (fun _ => rfl) trivial) sound
  | case8 => simp [Tokens.stop] at sound
  | case9 pending parens rest text some =>
    rename_i ih
    have visible : ¬ ∀ l ∈ pending, l.isBlank = true := by
      intro blanks
      have none : phrase pending.reverse = [] := phrase_of_blanks (by simpa using blanks)
      simp [text, none] at some
    obtain ⟨statement, closed⟩ := reading.statement visible
    obtain ⟨readable, exactly⟩ := ih (.fresh reading.lexed_rest _) sound
    refine ⟨⟨statement, closed ▸ readable⟩, ?_⟩
    rw [finishes, if_pos rfl]
    exact closed ▸ exactly
  | case10 pending parens rest notOpening ih =>
    obtain ⟨readable, exactly⟩ := ih (.fresh reading.lexed_rest _) (by simpa using sound)
    refine ⟨reading.consDeclaration (.inr rfl) readable, ?_⟩
    have same : unclosed parens ((tokensFrom [] parens rest).cons .closing).items =
        unclosed parens (tokensFrom [] parens rest).items := rfl
    rw [reading.unclosed_consDeclaration, finishes, if_neg notOpening, if_pos rfl, same]
    by_cases closed : (pending.all Lexeme.isBlank || parens == 0) = true
    · simpa [closed] using exactly
    · simp [closed]
  | case11 pending parens c rest notOpening notClosing ends ih =>
    obtain ⟨readable, exactly⟩ := ih (.fresh reading.lexed_rest _) (by simpa using sound)
    refine ⟨reading.consDeclaration (.inl ends.2) readable, ?_⟩
    rw [reading.unclosed_consDeclaration, finishes, if_neg notOpening, if_neg notClosing,
      if_pos ends]
    simpa [ends.2] using exactly
  | case12 pending parens rest notOpening notClosing notEnd ih =>
    have step := reading.collect (fun _ => rfl) (within_char notOpening notClosing notEnd)
    rw [finishes, if_neg notOpening, if_neg notClosing, if_neg notEnd]
    simpa [Lexeme.isBlank, Bool.or_comm, parensStep] using ih step sound
  | case13 pending parens rest notOpening notClosing notEnd notLeft ih =>
    have step := reading.collect (fun _ => rfl) (within_char notOpening notClosing notEnd)
    rw [finishes, if_neg notOpening, if_neg notClosing, if_neg notEnd]
    simpa [Lexeme.isBlank, Bool.or_comm, parensStep] using ih step sound
  | case14 pending parens c rest notOpening notClosing notEnd notLeft notRight ih =>
    have step := reading.collect (fun _ => rfl) (within_char notOpening notClosing notEnd)
    have same : parensStep parens c = parens := by
      rw [parensStep, if_neg notLeft, if_neg notRight]
    rw [parensAfter_char, same] at step
    rw [finishes, if_neg notOpening, if_neg notClosing, if_neg notEnd, same]
    simpa [Lexeme.isBlank, Bool.or_comm] using ih step sound

/-- Where reading meets no fault, every comment and every string ends. -/
theorem isOpen_of_fault {pending ls : List Lexeme} {parens : Nat}
    (sound : (tokensFrom pending parens ls).fault = none) : ∀ l ∈ ls, l.isOpen = false := by
  fun_induction tokensFrom pending parens ls with
  | case1 => simp
  | case2 => simp
  | case3 => simp [Tokens.stop] at sound
  | case4 => simp [Tokens.stop] at sound
  | case8 => simp [Tokens.stop] at sound
  | _ => simp_all [Lexeme.isOpen]

theorem readable_tokens {t : Text} (sound : (tokens t).fault = none) :
    Readable 0 (tokens t).items ∧
      (unclosed 0 (tokens t).items = 0 ↔ finishes false 0 (lexemes t) = true) :=
  readable_tokensFrom (.fresh (lexed_lexemes (isOpen_of_fault sound)) 0) sound

end StaticSite.Stylesheet
