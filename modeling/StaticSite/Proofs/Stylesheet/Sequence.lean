import StaticSite.Proofs.Stylesheet.Soundness
import StaticSite.Text.Digit

/-! # Stylesheets in a row

A text is settled when it is read without a fault and leaves no parenthesis open: the reader is back
where it started. What stands behind a settled text is read on its own, so texts in a row are read
one after the other.
-/

namespace StaticSite.Stylesheet

/-- Puts tokens in front. -/
def Tokens.prepend (items : List Token) (rest : Tokens) : Tokens :=
  { rest with items := items ++ rest.items }

theorem Tokens.cons_prepend (token : Token) (items : List Token) (rest : Tokens) :
    (rest.prepend items).cons token = rest.prepend (token :: items) := rfl

theorem Tokens.consDeclaration_prepend (pending : List Lexeme) (some rest : Tokens) :
    (rest.prepend some.items).consDeclaration pending =
      rest.prepend (some.consDeclaration pending).items := by
  unfold consDeclaration
  split <;> rfl

/-! ## Reading on -/

/-- Blanks at the start of the pending statement make no difference. -/
theorem tokensFrom_append_blanks {bs : List Lexeme} (blanks : ∀ b ∈ bs, b.isBlank = true)
    (pending : List Lexeme) (parens : Nat) (ls : List Lexeme) :
    tokensFrom (pending ++ bs) parens ls = tokensFrom pending parens ls := by
  have turned : ∀ b ∈ bs.reverse, b.isBlank = true := by simpa using blanks
  have all : bs.all Lexeme.isBlank = true := List.all_eq_true.mpr blanks
  have same (pending : List Lexeme) :
      phrase (pending ++ bs).reverse = phrase pending.reverse := by
    rw [List.reverse_append, phrase_blanks_append turned]
  have declared (rest : Tokens) (pending : List Lexeme) :
      rest.consDeclaration (pending ++ bs) = rest.consDeclaration pending := by
    rw [Tokens.consDeclaration, Tokens.consDeclaration, same, List.all_append, all, Bool.and_true]
  fun_induction tokensFrom pending parens ls with
  | case1 pending parens blank => simp [tokensFrom, all, blank]
  | case2 pending parens visible => simp [tokensFrom, visible]
  | case3 => rfl
  | case4 => rfl
  | case5 pending parens body rest blank ih => simp [tokensFrom, all, blank]
  | case6 pending parens body rest visible ih => simpa [tokensFrom, visible] using ih
  | case7 pending parens quote body rest ih => exact ih
  | case8 pending parens rest text empty =>
    rw [tokensFrom, if_pos rfl, same, if_pos empty]
  | case9 pending parens rest text some =>
    rw [tokensFrom, if_pos rfl, same, if_neg some]
  | case10 pending parens rest notOpening ih =>
    rw [tokensFrom, if_neg notOpening, if_pos rfl, declared]
  | case11 pending parens c rest notOpening notClosing ends ih =>
    rw [tokensFrom, if_neg notOpening, if_neg notClosing, if_pos ends, declared]
  | case12 pending parens rest notOpening notClosing notEnd ih =>
    rw [tokensFrom, if_neg notOpening, if_neg notClosing, if_neg notEnd, if_pos rfl]
    exact ih
  | case13 pending parens rest notOpening notClosing notEnd notLeft ih =>
    rw [tokensFrom, if_neg notOpening, if_neg notClosing, if_neg notEnd, if_neg notLeft, if_pos rfl]
    exact ih
  | case14 pending parens c rest notOpening notClosing notEnd notLeft notRight ih =>
    rw [tokensFrom, if_neg notOpening, if_neg notClosing, if_neg notEnd, if_neg notLeft,
      if_neg notRight]
    exact ih

theorem parensAfter_char_cons (parens : Nat) (c : Char) (ls : List Lexeme) :
    parensAfter parens (marks (.char c :: ls)) = parensAfter (parensStep parens c) (marks ls) := by
  rw [marks_cons, parensAfter_append, parensAfter_char]

/-- Behind lexemes that are read without a fault, reading starts anew. -/
theorem tokensFrom_append_of_fault {pending ls : List Lexeme} {parens : Nat}
    (none : (tokensFrom pending parens ls).fault = none) (rest : List Lexeme) :
    tokensFrom pending parens (ls ++ rest) =
      (tokensFrom [] (parensAfter parens (marks ls)) rest).prepend
        (tokensFrom pending parens ls).items := by
  fun_induction tokensFrom pending parens ls with
  | case1 pending parens blank =>
    have fresh := tokensFrom_append_blanks (List.all_eq_true.mp blank) [] parens rest
    rw [List.nil_append] at fresh
    exact fresh
  | case2 => cases none
  | case3 => cases none
  | case4 => cases none
  | case5 pending parens body more blank ih =>
    rw [List.cons_append, tokensFrom, if_pos blank, ih none]
    rfl
  | case6 pending parens body more visible ih =>
    rw [List.cons_append, tokensFrom, if_neg visible]
    exact ih none
  | case7 pending parens quote body more ih => exact ih none
  | case8 => cases none
  | case9 pending parens more text some =>
    rename_i ih
    rw [List.cons_append, tokensFrom, if_pos rfl, if_neg some, ih none, parensAfter_char_cons]
    rfl
  | case10 pending parens more notOpening ih =>
    rw [Tokens.fault_consDeclaration] at none
    rw [List.cons_append, tokensFrom, if_neg notOpening, if_pos rfl, ih none,
      parensAfter_char_cons, Tokens.cons_prepend]
    exact Tokens.consDeclaration_prepend _ ((tokensFrom [] parens more).cons .closing) _
  | case11 pending parens c more notOpening notClosing ends ih =>
    rw [Tokens.fault_consDeclaration] at none
    have same : parensStep parens c = parens := by simp [parensStep, ends.1]
    rw [List.cons_append, tokensFrom, if_neg notOpening, if_neg notClosing, if_pos ends, ih none,
      parensAfter_char_cons, same]
    exact Tokens.consDeclaration_prepend _ _ _
  | case12 pending parens more notOpening notClosing notEnd ih =>
    rw [List.cons_append, tokensFrom, if_neg notOpening, if_neg notClosing, if_neg notEnd,
      if_pos rfl, ih none, parensAfter_char_cons]
    rfl
  | case13 pending parens more notOpening notClosing notEnd notLeft ih =>
    rw [List.cons_append, tokensFrom, if_neg notOpening, if_neg notClosing, if_neg notEnd,
      if_neg notLeft, if_pos rfl, ih none, parensAfter_char_cons]
    rfl
  | case14 pending parens c more notOpening notClosing notEnd notLeft notRight ih =>
    have same : parensStep parens c = parens := by simp [parensStep, notLeft, notRight]
    rw [List.cons_append, tokensFrom, if_neg notOpening, if_neg notClosing, if_neg notEnd,
      if_neg notLeft, if_neg notRight, ih none, parensAfter_char_cons, same]

/-- Lexemes that are never read without a fault spoil what stands in front of them. -/
theorem sound_append_of_unsound {rest : List Lexeme}
    (fails : ∀ begun parens, sound begun parens rest = false) (begun : Bool) (parens : Nat)
    (ls : List Lexeme) : sound begun parens (ls ++ rest) = false := by
  fun_induction sound begun parens ls with
  | case1 begun parens => exact fails begun parens
  | _ => simp_all [sound]

/-- A slash at the end is left over. -/
theorem getLast?_of_sound {begun : Bool} {parens : Nat} {ls : List Lexeme}
    (good : sound begun parens ls = true) : ls.getLast? ≠ some (.char '/') := by
  intro slash
  have visible : isBlank '/' = false := by decide
  obtain ⟨before, rfl⟩ := List.getLast?_eq_some_iff.mp slash
  rw [sound_append_of_unsound fun _ _ => by simp [sound, visible]] at good
  cases good

/-! ## Plain texts -/

/-- The marks, and the characters that start or end comments and strings. -/
def specials : Text := ['\x7b', '\x7d', ';', '(', ')', '"', '\'', '/', '*', '\\']

/-- Whether a character is read as itself wherever it stands. -/
def isPlain (c : Char) : Bool := !specials.elem c

/-- A text of plain characters. -/
def Plain (t : Text) : Prop := ∀ c ∈ t, isPlain c = true

instance (t : Text) : Decidable (Plain t) := decidableForallMem _ t

theorem isPlain_of_forall {p : Char → Bool} (none : ∀ c ∈ specials, p c = false) {c : Char}
    (holds : p c = true) : isPlain c = true := by
  by_contra special
  have member : c ∈ specials := by simpa [isPlain] using special
  rw [none c member] at holds
  cases holds

theorem isPlain_of_isBlank {c : Char} (blank : isBlank c = true) : isPlain c = true :=
  isPlain_of_forall (by decide) blank

/-- Letters, digits, dashes, underscores and all characters beyond ASCII are plain. -/
theorem isPlain_of_word {c : Char}
    (word : (isLetterOrDigit c || c == '-' || c == '_' || 128 ≤ c.toNat) = true) :
    isPlain c = true :=
  @isPlain_of_forall (fun c => isLetterOrDigit c || c == '-' || c == '_' || 128 ≤ c.toNat)
    (by decide) c word

theorem isMark_of_isPlain {c : Char} (plain : isPlain c = true) : isMark c = false := by
  by_contra mark
  simp only [isMark, Bool.not_eq_false, Bool.or_eq_true, beq_iff_eq] at mark
  rcases mark with (((rfl | rfl) | rfl) | rfl) | rfl <;> exact absurd plain (by decide)

theorem isQuote_of_isPlain {c : Char} (plain : isPlain c = true) : isQuote c = false := by
  by_contra quote
  simp only [isQuote, Bool.not_eq_false, Bool.or_eq_true, beq_iff_eq] at quote
  rcases quote with rfl | rfl <;> exact absurd plain (by decide)

namespace Plain

variable {s t : Text}

theorem nil : Plain [] := by simp [Plain]

theorem append (first : Plain s) (second : Plain t) : Plain (s ++ t) := by
  intro c member
  rcases List.mem_append.mp member with inside | behind
  · exact first c inside
  · exact second c behind

theorem lexemes_append (plain : Plain s) (t : Text) :
    lexemes (s ++ t) = s.map .char ++ lexemes t := by
  induction s with
  | nil => rfl
  | cons c rest ih =>
    obtain ⟨here, later⟩ := List.forall_mem_cons.mp plain
    have noSlash : ¬ (c = '/' ∧ (rest ++ t).head? = some '*') := by
      rintro ⟨rfl, -⟩
      exact absurd here (by decide)
    rw [List.cons_append, lexemes, lexemesFrom_outside_cons noSlash (isQuote_of_isPlain here)]
    exact congrArg (.char c :: ·) (ih later)

theorem lexemes_eq (plain : Plain t) : lexemes t = t.map .char := by
  have read := plain.lexemes_append []
  have none : lexemes [] = [] := by rw [lexemes, lexemesFrom]
  rwa [List.append_nil, none, List.append_nil] at read

theorem marks_eq (plain : Plain t) : marks (t.map .char) = [] := by
  refine List.filterMap_eq_nil_iff.mpr fun l member => ?_
  obtain ⟨c, inside, rfl⟩ := List.mem_map.mp member
  simp [Lexeme.mark?, isMark_of_isPlain (plain c inside)]

end Plain

/-! ## Settled texts -/

/-- A text behind which the reader is back where it started. -/
structure Settled (t : Text) : Prop where
  faultless : (tokens t).fault = none
  closed : openAfter 0 t = 0

/-- The tokens of a text. -/
def items (t : Text) : List Token := (tokens t).items

namespace Settled

variable {s t : Text}

theorem lexemes_append (settled : Settled s) (t : Text) :
    lexemes (s ++ t) = lexemes s ++ lexemes t := by
  have lexed := lexed_lexemes (isOpen_of_fault settled.faultless)
  have ends := getLast?_of_sound (fault_tokens.mp settled.faultless)
  have apart : ¬ ((lexemes s).getLast? = some (.char '/') ∧ t.head? = some '*') :=
    fun both => ends both.1
  have read := lexemes_append_of_getLast? lexed apart
  rwa [flatMap_text_lexemes] at read

/-- What stands behind a settled text is read on its own. -/
theorem tokens_append (settled : Settled s) (t : Text) :
    tokens (s ++ t) = (tokens t).prepend (items s) := by
  rw [tokens, settled.lexemes_append, tokensFrom_append_of_fault settled.faultless]
  have closed := settled.closed
  rw [openAfter] at closed
  rw [closed]
  rfl

theorem append (first : Settled s) (second : Settled t) : Settled (s ++ t) := by
  constructor
  · rw [first.tokens_append]
    exact second.faultless
  · have closed := first.closed
    rw [openAfter] at closed
    rw [openAfter, first.lexemes_append, marks_append, parensAfter_append, closed]
    exact second.closed

theorem items_append (settled : Settled s) (t : Text) : items (s ++ t) = items s ++ items t := by
  rw [items, settled.tokens_append]
  rfl

theorem nil : Settled [] := ⟨rfl, rfl⟩

/-- A text of blanks is settled and has no tokens. -/
theorem blanks (blank : ∀ c ∈ t, isBlank c = true) : Settled t ∧ items t = [] := by
  have plain : Plain t := fun c member => isPlain_of_isBlank (blank c member)
  have all : ∀ l ∈ t.map Lexeme.char, l.isBlank = true := by
    simpa [Lexeme.isBlank] using blank
  have read : tokens t = ⟨[], none⟩ := by
    have collected := tokensFrom_blanks _ all [] 0 []
    rw [List.append_nil, List.append_nil, ← plain.lexemes_eq] at collected
    rw [tokens, collected, tokensFrom, if_pos (by simpa [plain.lexemes_eq] using all)]
  refine ⟨⟨by rw [read], ?_⟩, by rw [items, read]⟩
  rw [openAfter, plain.lexemes_eq, plain.marks_eq]
  rfl

end Settled

/-! ## Several texts -/

/-- Texts in a row, with blanks between them, are read one after the other. -/
theorem Settled.joinWith {separator : Text} (blank : ∀ c ∈ separator, isBlank c = true)
    {pieces : List Text} (settled : ∀ p ∈ pieces, Settled p) :
    Settled (Text.joinWith separator pieces) ∧
      items (Text.joinWith separator pieces) = pieces.flatMap items := by
  obtain ⟨between, nothing⟩ := Settled.blanks blank
  induction pieces with
  | nil => exact ⟨nil, rfl⟩
  | cons first rest ih =>
    obtain ⟨head, others⟩ := List.forall_mem_cons.mp settled
    obtain ⟨joined, read⟩ := ih others
    cases rest with
    | nil => exact ⟨head, by simp [Text.joinWith]⟩
    | cons second more =>
      rw [Text.joinWith, List.append_assoc]
      case x_1 => simp
      refine ⟨head.append (between.append joined), ?_⟩
      rw [head.items_append, between.items_append, nothing, read]
      rfl

/-- A text that has a layout on its own and leaves no parenthesis open. -/
structure Standalone (t : Text) : Prop where
  accepted : Accepted t
  closed : openAfter 0 t = 0

theorem standalone_iff {t : Text} :
    Standalone t ↔ Settled t ∧ nested 0 (braces (items t)) = true := by
  constructor
  · rintro ⟨accepted, closed⟩
    obtain ⟨faultless, even⟩ := accepted_iff.mp accepted
    exact ⟨⟨faultless, closed⟩, even⟩
  · rintro ⟨settled, even⟩
    exact ⟨accepted_iff.mpr ⟨settled.faultless, even⟩, settled.closed⟩

instance (t : Text) : Decidable (Settled t) :=
  decidable_of_iff ((tokens t).fault = none ∧ openAfter 0 t = 0)
    ⟨fun both => ⟨both.1, both.2⟩, fun settled => ⟨settled.faultless, settled.closed⟩⟩

instance (t : Text) : Decidable (Standalone t) := decidable_of_iff _ standalone_iff.symm

/-- Settled texts whose braces are in balance when all of them are read. -/
structure Balanced (pieces : List Text) : Prop where
  settled : ∀ p ∈ pieces, Settled p
  nested : nested 0 (braces (pieces.flatMap items)) = true

namespace Balanced

variable {some more : List Text}

theorem nil : Balanced [] := ⟨by simp, rfl⟩

theorem append (first : Balanced some) (second : Balanced more) : Balanced (some ++ more) := by
  constructor
  · intro p member
    rcases List.mem_append.mp member with inside | behind
    · exact first.settled p inside
    · exact second.settled p behind
  · rw [List.flatMap_append, braces_append]
    exact (nested_append first.nested 0 _).trans second.nested

theorem of_standalone {pieces : List Text} (standalone : ∀ p ∈ pieces, Standalone p) :
    Balanced pieces := by
  induction pieces with
  | nil => exact nil
  | cons p rest ih =>
    obtain ⟨first, others⟩ := List.forall_mem_cons.mp standalone
    obtain ⟨settled, even⟩ := standalone_iff.mp first
    exact @append [p] rest ⟨by simpa using settled, by simpa using even⟩ (ih others)

/-- Texts whose braces are in balance stand on their own in a row. -/
theorem joinWith {separator : Text} (blank : ∀ c ∈ separator, isBlank c = true)
    {pieces : List Text} (even : Balanced pieces) : Standalone (Text.joinWith separator pieces) := by
  obtain ⟨settled, read⟩ := Settled.joinWith blank even.settled
  refine standalone_iff.mpr ⟨settled, ?_⟩
  rw [read]
  exact even.nested

/-- A text that opens a block and one that closes it around texts in balance. -/
theorem block {opening closing : Text} (opens : Settled opening)
    (left : braces (items opening) = ['\x7b']) (closes : Settled closing)
    (right : braces (items closing) = ['\x7d']) {body : List Text} (even : Balanced body) :
    Balanced (opening :: body ++ [closing]) := by
  constructor
  · rintro p member
    rcases List.mem_append.mp member with inside | last
    · rcases List.mem_cons.mp inside with rfl | behind
      · exact opens
      · exact even.settled p behind
    · rw [List.mem_singleton.mp last]
      exact closes
  · have read : braces ((opening :: body ++ [closing]).flatMap items) =
        '\x7b' :: (braces (body.flatMap items) ++ ['\x7d']) := by
      simp [braces_append, left, right]
    rw [read, Stylesheet.nested, if_pos rfl]
    exact nested_append even.nested 1 _

end Balanced

theorem Standalone.nil : Standalone [] := standalone_iff.mpr ⟨.nil, rfl⟩

theorem Standalone.append {s t : Text} (first : Standalone s) (second : Standalone t) :
    Standalone (s ++ t) := by
  have pieces : Balanced [s, t] := .of_standalone (by simp [first, second])
  have joined := @Balanced.joinWith [] (by simp) _ pieces
  simpa [Text.joinWith] using joined

end StaticSite.Stylesheet
