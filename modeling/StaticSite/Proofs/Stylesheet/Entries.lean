import StaticSite.Proofs.Stylesheet.Composition
import StaticSite.Proofs.Stylesheet.Identifier

/-! # What a stylesheet consists of

Tokens whose braces are in balance are blocks, declarations and comments in a row. A block keeps the
tokens between its braces, so that they can be taken apart in the same way, and tokens in a row are
taken apart one after the other. A word is a name without blanks, and a text that starts with one is
its own prelude.
-/

namespace StaticSite.Stylesheet

/-- A part of a stylesheet, or of what stands in a block. -/
inductive Entry
  | comment (text : Text)
  | declaration (text : Text)
  /-- A block with its prelude and the tokens between its braces. -/
  | block (start : Text) (body : List Token)
  deriving DecidableEq, Repr

/-- A block that is not closed yet: its prelude, the tokens in it, last one first, and the number of
blocks that are open in it. -/
structure OpenBlock where
  start : Text
  seen : List Token
  depth : Nat

/-- The entries of the rest of some tokens. -/
def entriesFrom : Option OpenBlock → List Token → List Entry
  | _, [] => []
  | none, .comment t :: rest => .comment t :: entriesFrom none rest
  | none, .declaration t :: rest => .declaration t :: entriesFrom none rest
  | none, .opening start :: rest => entriesFrom (some ⟨start, [], 0⟩) rest
  | none, .closing :: rest => entriesFrom none rest
  | some ⟨start, seen, depth⟩, .opening inner :: rest =>
      entriesFrom (some ⟨start, .opening inner :: seen, depth + 1⟩) rest
  | some ⟨start, seen, 0⟩, .closing :: rest => .block start seen.reverse :: entriesFrom none rest
  | some ⟨start, seen, depth + 1⟩, .closing :: rest =>
      entriesFrom (some ⟨start, .closing :: seen, depth⟩) rest
  | some ⟨start, seen, depth⟩, .declaration t :: rest =>
      entriesFrom (some ⟨start, .declaration t :: seen, depth⟩) rest
  | some ⟨start, seen, depth⟩, .comment t :: rest =>
      entriesFrom (some ⟨start, .comment t :: seen, depth⟩) rest

/-- The entries of tokens. -/
def entries (ts : List Token) : List Entry := entriesFrom none ts

/-- The number of blocks that are open. -/
def openDepth : Option OpenBlock → Nat
  | none => 0
  | some opened => opened.depth + 1

/-- Tokens in balance are taken apart on their own. -/
theorem entriesFrom_append {opened : Option OpenBlock} {ts : List Token}
    (even : balanced (openDepth opened) ts = true) (us : List Token) :
    entriesFrom opened (ts ++ us) = entriesFrom opened ts ++ entries us := by
  fun_induction entriesFrom opened ts with
  | case1 opened =>
    cases opened with
    | none => rfl
    | some opened => simp [openDepth, balanced] at even
  | case5 => cases even
  | _ => simp_all [entriesFrom, balanced, openDepth]

/-- Tokens in balance go into the block that is open. -/
theorem entriesFrom_inside {inner : Nat} {body : List Token} (even : balanced inner body = true)
    (start : Text) (seen : List Token) (depth : Nat) (rest : List Token) :
    entriesFrom (some ⟨start, seen, depth + inner⟩) (body ++ rest) =
      entriesFrom (some ⟨start, body.reverse ++ seen, depth⟩) rest := by
  induction body generalizing inner seen with
  | nil =>
    obtain rfl : inner = 0 := by simpa [balanced] using even
    rfl
  | cons token more ih =>
    have pushed : (token :: more).reverse ++ seen = more.reverse ++ token :: seen := by simp
    rw [List.cons_append, pushed]
    cases token with
    | opening nested => exact ih even (.opening nested :: seen)
    | closing =>
      cases inner with
      | zero => cases even
      | succ outer => exact ih even (.closing :: seen)
    | declaration t => exact ih even (.declaration t :: seen)
    | comment t => exact ih even (.comment t :: seen)

theorem entries_append {ts : List Token} (even : balanced 0 ts = true) (us : List Token) :
    entries (ts ++ us) = entries ts ++ entries us :=
  @entriesFrom_append none _ even us

theorem entries_block {body : List Token} (even : balanced 0 body = true) (start : Text) :
    entries (.opening start :: body ++ [.closing]) = [.block start body] := by
  have inside := entriesFrom_inside even start [] 0 [.closing]
  rw [List.append_nil] at inside
  rw [entries, List.cons_append]
  refine inside.trans ?_
  simp [entriesFrom]

/-- Pieces that stand on their own are taken apart one by one. -/
theorem entries_flatMap {pieces : List Text} (standalone : ∀ p ∈ pieces, Standalone p) :
    entries (pieces.flatMap items) = pieces.flatMap fun p => entries (items p) := by
  induction pieces with
  | nil => rfl
  | cons p rest ih =>
    obtain ⟨here, others⟩ := List.forall_mem_cons.mp standalone
    have even := (standalone_iff.mp here).2
    rw [← balanced_eq_nested] at even
    rw [List.flatMap_cons, List.flatMap_cons, entries_append even, ih others]

/-- Pieces in a row, with blanks between them, are taken apart one by one. -/
theorem entries_joinWith {separator : Text} (blank : ∀ c ∈ separator, isBlank c = true)
    {pieces : List Text} (standalone : ∀ p ∈ pieces, Standalone p) :
    entries (items (Text.joinWith separator pieces)) =
      pieces.flatMap fun p => entries (items p) := by
  have settled : ∀ p ∈ pieces, Settled p := fun p member =>
    (standalone_iff.mp (standalone p member)).1
  rw [(Settled.joinWith blank settled).2, entries_flatMap standalone]

/-! ## Statements -/

/-- Whether a token is a declaration. -/
def Token.isDeclaration : Token → Bool
  | .declaration _ => true
  | _ => false

/-- Tokens other than comments. -/
def statements (ts : List Token) : List Token := ts.filter (!·.isComment)

theorem statements_append (ts us : List Token) :
    statements (ts ++ us) = statements ts ++ statements us := List.filter_append ..

theorem statements_flatMap {α : Type} (f : α → List Token) (xs : List α) :
    statements (xs.flatMap f) = xs.flatMap fun x => statements (f x) := List.filter_flatMap ..

/-! ## Words -/

/-- Whether a character may stand in a word: a letter, a digit, a dash or an underscore, and beyond
ASCII every character that is not blank. -/
def isWordPart (c : Char) : Bool := isNamePart c && !isBlank c

/-- A text of letters, digits, dashes and underscores. -/
def Word (t : Text) : Prop := ∀ c ∈ t, isWordPart c = true

instance (t : Text) : Decidable (Word t) := decidableForallMem _ t

namespace Word

variable {t : Text}

theorem isBlank_eq_false (word : Word t) : ∀ c ∈ t, isBlank c = false := by
  intro c member
  have part := word c member
  simp only [isWordPart, Bool.and_eq_true, Bool.not_eq_true'] at part
  exact part.2

theorem plain (word : Word t) : Plain t := by
  intro c member
  have part := word c member
  simp only [isWordPart, Bool.and_eq_true] at part
  refine isPlain_of_word ?_
  simp only [isNamePart, isNameStart, Bool.or_eq_true] at part
  simp only [isLetterOrDigit, Bool.or_eq_true]
  tauto

end Word

/-! ## Phrases of visible text -/

theorem flatMap_text_chars (t : Text) : (t.map Lexeme.char).flatMap Lexeme.text = t := by
  rw [List.flatMap_map]
  exact List.flatMap_singleton' t

theorem phraseFrom_visible {w : Text} (visible : ∀ c ∈ w, isBlank c = false) {after : Bool}
    (some : w ≠ []) (ls : List Lexeme) :
    phraseFrom after (w.map .char ++ ls) = w ++ phraseFrom false ls := by
  induction w generalizing after with
  | nil => exact absurd rfl some
  | cons c rest ih =>
    obtain ⟨here, others⟩ := List.forall_mem_cons.mp visible
    rw [List.map_cons, List.cons_append, phraseFrom, if_neg (by simp [here])]
    cases rest with
    | nil => rfl
    | cons d more =>
      rw [ih others (by simp)]
      rfl

/-- A phrase starts with the visible text that its lexemes start with. -/
theorem phrase_visible {w : Text} (visible : ∀ c ∈ w, isBlank c = false) (some : w ≠ [])
    (ls : List Lexeme) :
    phrase (w.map .char ++ ls) = w ++ (phraseFrom false ls).rdropWhile isBlank := by
  have head : ∀ c ∈ (w ++ phraseFrom false ls).head?, isBlank c = false := by
    rw [List.head?_append_of_ne_nil _ some]
    exact fun c first => visible c (List.mem_of_mem_head? first)
  rw [phrase, phraseFrom_visible visible some]
  change ((w ++ phraseFrom false ls).dropWhile isBlank).rdropWhile isBlank = _
  rw [dropWhile_of_head? head]
  exact rdropWhile_append_of_getLast? w (fun c last => visible c (List.mem_of_mem_getLast? last)) _

end StaticSite.Stylesheet
