import StaticSite.Proofs.Stylesheet.Entries

/-! # One declaration

A declaration is read up to the semicolon that ends it. What stands behind that semicolon in a value
is read on its own, and whether it holds another statement does not depend on what goes before, nor
on whether a semicolon or a closing brace comes last. So a value that makes one declaration in a
block makes one wherever it is written.
-/

namespace StaticSite.Stylesheet

/-- Lexemes up to the semicolon that ends the statement, and those behind it. -/
def cut (parens : Nat) : List Lexeme → List Lexeme × List Lexeme
  | [] => ([], [])
  | l :: rest =>
      if l = .char ';' ∧ parens = 0 then ([], rest)
      else
        let (statement, behind) := cut (parensAfter parens (marks [l])) rest
        (l :: statement, behind)

/-- The tokens behind the semicolon that ends the statement which lexemes belong to. -/
def later (ls : List Lexeme) : List Token := (tokensFrom [] 0 ((cut 0 ls).2 ++ [.char ';'])).items

/-- Lexemes that stay within a statement belong to it. -/
theorem cut_append {parens : Nat} {ls : List Lexeme} (within : Within parens (marks ls))
    (rest : List Lexeme) : cut parens (ls ++ rest) =
      (ls ++ (cut (parensAfter parens (marks ls)) rest).1,
        (cut (parensAfter parens (marks ls)) rest).2) := by
  induction ls generalizing parens with
  | nil => rfl
  | cons l more ih =>
    rw [marks_cons, within_append] at within
    have goesOn : ¬ (l = .char ';' ∧ parens = 0) := by
      rintro ⟨rfl, rfl⟩
      exact absurd within.1.1 (by decide)
    rw [List.cons_append, cut, if_neg goesOn, ih within.2, marks_cons l more, parensAfter_append]
    rfl

theorem cut_of_within {parens : Nat} {ls : List Lexeme} (within : Within parens (marks ls)) :
    cut parens ls = (ls, []) := by
  have whole := cut_append within []
  rw [List.append_nil] at whole
  rw [whole, cut, List.append_nil]

/-- Lexemes that stay within a statement have nothing behind it. -/
theorem later_of_within {ls : List Lexeme} (within : Within 0 (marks ls)) : later ls = [] := by
  rw [later, cut_of_within within]
  rfl

/-- A lexeme that is no brace and does not end the statement stays within it. -/
theorem within_singleton {l : Lexeme} {parens : Nat} (flat : ∀ m ∈ marks [l], isBrace m = false)
    (goesOn : ¬ (l = .char ';' ∧ parens = 0)) : Within parens (marks [l]) := by
  cases l with
  | char c =>
    obtain ⟨notOpening, notClosing⟩ := isBrace_of_marks flat
    exact within_char notOpening notClosing fun both => goesOn (both.imp_left (congrArg _))
  | _ => trivial

/-- Lexemes without braces that do not stay within a statement are cut at a semicolon. -/
theorem cut_of_not_within {ls : List Lexeme} (flat : ∀ m ∈ marks ls, isBrace m = false)
    {parens : Nat} (ended : ¬ Within parens (marks ls)) :
    ls = (cut parens ls).1 ++ .char ';' :: (cut parens ls).2 ∧
      parensAfter parens (marks (cut parens ls).1) = 0 := by
  induction ls generalizing parens with
  | nil => exact absurd trivial ended
  | cons l rest ih =>
    rw [marks_cons, List.forall_mem_append] at flat
    rw [cut]
    split
    · next semicolon =>
      obtain ⟨rfl, rfl⟩ := semicolon
      exact ⟨rfl, rfl⟩
    · next goesOn =>
      rw [marks_cons, within_append] at ended
      obtain ⟨whole, closed⟩ :=
        ih flat.2 fun within => ended ⟨within_singleton flat.1 goesOn, within⟩
      refine ⟨congrArg (l :: ·) whole, ?_⟩
      rw [marks_cons, parensAfter_append]
      exact closed

/-- Where a reader is behind lexemes without braces: it has given some tokens, and some lexemes are
pending. -/
theorem exists_tokensFrom_append {ls : List Lexeme} (complete : ∀ l ∈ ls, l.isOpen = false)
    (flat : ∀ m ∈ marks ls, isBrace m = false) (pending : List Lexeme) (parens : Nat) :
    ∃ given left, ∀ rest, tokensFrom pending parens (ls ++ rest) =
      (tokensFrom left (parensAfter parens (marks ls)) rest).prepend given := by
  induction ls generalizing pending parens with
  | nil => exact ⟨[], pending, fun _ => rfl⟩
  | cons l more ih =>
    obtain ⟨whole, others⟩ := List.forall_mem_cons.mp complete
    rw [marks_cons, List.forall_mem_append] at flat
    rw [marks_cons, parensAfter_append]
    have behind := ih others flat.2
    by_cases semicolon : l = .char ';' ∧ parens = 0
    · obtain ⟨rfl, rfl⟩ := semicolon
      obtain ⟨given, left, goes⟩ := behind [] 0
      refine ⟨(Tokens.consDeclaration pending ⟨given, none⟩).items, left, fun rest => ?_⟩
      rw [List.cons_append, tokensFrom, if_neg (by decide), if_neg (by decide), if_pos ⟨rfl, rfl⟩,
        goes]
      exact Tokens.consDeclaration_prepend pending ⟨given, none⟩ _
    · have within := within_singleton flat.1 semicolon
      by_cases part : pending.all Lexeme.isBlank = true → l.isComment = false
      · obtain ⟨given, left, goes⟩ := behind (l :: pending) (parensAfter parens (marks [l]))
        refine ⟨given, left, fun rest => ?_⟩
        rw [List.cons_append, tokensFrom_collect whole within part, goes]
      · obtain ⟨blank, comment⟩ : pending.all Lexeme.isBlank = true ∧ l.isComment = true := by
          simpa using part
        cases l with
        | comment body =>
          obtain ⟨given, left, goes⟩ := behind [] parens
          refine ⟨.comment (Lexeme.comment body).text :: given, left, fun rest => ?_⟩
          rw [List.cons_append, tokensFrom, if_pos blank, goes]
          rfl
        | _ => simp [Lexeme.isComment] at comment

section Reading

variable {ls : List Lexeme} {parens : Nat} (complete : ∀ l ∈ ls, l.isOpen = false)
  (flat : ∀ m ∈ marks ls, isBrace m = false) (closed : parensAfter parens (marks ls) = 0)
include complete flat closed

/-- A statement that has begun is read up to its end, and what stands behind that is read on its
own. -/
theorem tokensFrom_cut {pending : List Lexeme} (begun : pending.all Lexeme.isBlank = false)
    {mark : Char} (ends : mark = ';' ∨ mark = '\x7d') (rest : List Lexeme) :
    tokensFrom pending parens (ls ++ .char mark :: rest) =
      (tokensFrom [] 0 ((cut parens ls).2 ++ .char mark :: rest)).cons
        (.declaration (phrase (pending.reverse ++ (cut parens ls).1))) := by
  have declared {pending : List Lexeme} (begun : pending.all Lexeme.isBlank = false) (ts : Tokens) :
      ts.consDeclaration pending = ts.cons (.declaration (phrase pending.reverse)) := by
    rw [Tokens.consDeclaration, if_neg (by simp [begun])]
  induction ls generalizing pending parens with
  | nil =>
    obtain rfl : parens = 0 := closed
    rw [cut, List.append_nil, List.nil_append]
    rcases ends with rfl | rfl
    · exact declared begun _
    · exact declared begun _
  | cons l more ih =>
    obtain ⟨whole, others⟩ := List.forall_mem_cons.mp complete
    rw [marks_cons, List.forall_mem_append] at flat
    rw [marks_cons, parensAfter_append] at closed
    rw [cut]
    split
    · next semicolon =>
      obtain ⟨rfl, rfl⟩ := semicolon
      rw [List.cons_append, tokensFrom, if_neg (by decide), if_neg (by decide),
        if_pos ⟨rfl, rfl⟩, declared begun, List.append_nil]
    · next goesOn =>
      rw [List.cons_append, tokensFrom_collect whole (within_singleton flat.1 goesOn)
        (by simp [begun]), ih others flat.2 closed (by simp [begun])]
      simp

end Reading

/-- A closing brace at the end adds itself to the tokens that a semicolon there gives. -/
theorem items_append_closing {ls : List Lexeme} (complete : ∀ l ∈ ls, l.isOpen = false)
    (flat : ∀ m ∈ marks ls, isBrace m = false) (closed : parensAfter 0 (marks ls) = 0) :
    (tokensFrom [] 0 (ls ++ [.char '\x7d'])).items =
      (tokensFrom [] 0 (ls ++ [.char ';'])).items ++ [.closing] := by
  obtain ⟨given, left, goes⟩ := exists_tokensFrom_append complete flat [] 0
  have last : (tokensFrom left 0 [.char '\x7d']).items =
      (tokensFrom left 0 [.char ';']).items ++ [.closing] := by
    change (Tokens.consDeclaration left ⟨[.closing], none⟩).items =
      (Tokens.consDeclaration left ⟨[], none⟩).items ++ [.closing]
    unfold Tokens.consDeclaration
    split <;> rfl
  rw [goes, goes, closed]
  exact (congrArg (given ++ ·) last).trans (List.append_assoc ..).symm

/-- A piece before a closing brace has the tokens that it has before a semicolon. -/
theorem Inline.items_closing {t : Text} (inline : Inline t) :
    items (t ++ ['\x7d']) = items (t ++ [';']) ++ [.closing] := by
  rw [items, items, tokens, tokens, inline.lexemes_append_of_head? (by simp),
    inline.lexemes_append_of_head? (by simp), lexemes_singleton rfl, lexemes_singleton rfl]
  exact items_append_closing inline.complete inline.flat inline.closed

/-- A visible character before the last semicolon makes a declaration. -/
theorem statements_ne_nil {ls : List Lexeme} (complete : ∀ l ∈ ls, l.isOpen = false)
    (flat : ∀ m ∈ marks ls, isBrace m = false) (closed : parensAfter 0 (marks ls) = 0) {c : Char}
    (visible : isBlank c = false) (unmarked : isMark c = false) :
    statements (tokensFrom [] 0 (ls ++ [.char c, .char ';'])).items ≠ [] := by
  obtain ⟨given, left, goes⟩ := exists_tokensFrom_append complete flat [] 0
  have none : marks [.char c] = [] := by simp [marks, Lexeme.mark?, unmarked]
  have collected : tokensFrom left 0 [.char c, .char ';'] =
      ⟨[.declaration (phrase (left.reverse ++ [.char c]))], .none⟩ := by
    rw [tokensFrom_collect rfl (by rw [none]; trivial) (fun _ => rfl), none]
    simp [tokensFrom, parensAfter, Tokens.consDeclaration, Tokens.cons, Lexeme.isBlank, visible]
  rw [goes, closed, collected, Tokens.prepend, statements_append]
  simp [statements, Token.isComment]

/-- What stands behind the statement before a closing brace. -/
theorem items_cut_closing {ls : List Lexeme} (complete : ∀ l ∈ ls, l.isOpen = false)
    (flat : ∀ m ∈ marks ls, isBrace m = false) (closed : parensAfter 0 (marks ls) = 0) :
    (tokensFrom [] 0 ((cut 0 ls).2 ++ [.char '\x7d'])).items = later ls ++ [.closing] := by
  by_cases within : Within 0 (marks ls)
  · rw [later, cut_of_within within]
    rfl
  · obtain ⟨whole, even⟩ := cut_of_not_within flat within
    rw [whole, List.forall_mem_append, List.forall_mem_cons] at complete
    rw [whole, marks_append, marks_cons, List.forall_mem_append, List.forall_mem_append] at flat
    rw [whole, marks_append, parensAfter_append, even] at closed
    exact items_append_closing complete.2.2 flat.2.2 closed

/-- What ends before a visible character is followed by another statement. -/
theorem statements_later_ne_nil {ls : List Lexeme} (complete : ∀ l ∈ ls, l.isOpen = false)
    (flat : ∀ m ∈ marks ls, isBrace m = false) (closed : parensAfter 0 (marks ls) = 0)
    (ended : ¬ Within 0 (marks ls)) {c : Char} (last : ls.getLast? = some (.char c))
    (visible : isBlank c = false) (unmarked : isMark c = false) : statements (later ls) ≠ [] := by
  obtain ⟨whole, even⟩ := cut_of_not_within flat ended
  rw [whole, List.forall_mem_append, List.forall_mem_cons] at complete
  rw [whole, marks_append, marks_cons, List.forall_mem_append, List.forall_mem_append] at flat
  rw [whole, marks_append, parensAfter_append, even] at closed
  rw [whole, List.getLast?_append, List.getLast?_cons] at last
  have final : (cut 0 ls).2.getLast? = some (.char c) := by
    cases behind : (cut 0 ls).2.getLast? with
    | none =>
      obtain rfl : ';' = c := by simpa [behind] using last
      cases unmarked
    | some l => simpa [behind] using last
  obtain ⟨before, behind⟩ := List.getLast?_eq_some_iff.mp final
  rw [later, behind, List.append_assoc]
  rw [behind, List.forall_mem_append] at complete
  have none : marks [.char c] = [] := by simp [marks, Lexeme.mark?, unmarked]
  rw [behind, marks_append, none, List.append_nil] at flat
  change parensAfter 0 (marks (cut 0 ls).2) = 0 at closed
  rw [behind, marks_append, none, List.append_nil] at closed
  exact statements_ne_nil complete.2.2.1 flat.2.2 closed visible unmarked

/-- Where lexemes end in a visible character, nothing stands behind their statement exactly when no
semicolon in them ends it. -/
theorem statements_later_eq_nil_iff {t : Text} (inline : Inline t) {c : Char}
    (last : (lexemes t).getLast? = some (.char c)) (visible : isBlank c = false)
    (unmarked : isMark c = false) :
    statements (later (lexemes t)) = [] ↔ Within 0 (marks (lexemes t)) := by
  constructor
  · intro none
    by_contra ended
    exact statements_later_ne_nil inline.complete inline.flat inline.closed ended last visible
      unmarked none
  · intro within
    rw [later_of_within within]
    rfl

/-- A declaration with a semicolon: the statement that its start begins, and what stands behind that
statement in the value. -/
theorem items_declaration {start value : Text} (plain : Plain start)
    (visible : ∃ c ∈ start, isBlank c = false) (inline : Inline value) :
    items (start ++ value ++ [';']) =
      .declaration (phrase (start.map .char ++ (cut 0 (lexemes value)).1)) ::
        later (lexemes value) := by
  have chars : ∀ l ∈ start.map Lexeme.char, l.isOpen = false := by
    intro l member
    obtain ⟨c, -, rfl⟩ := List.mem_map.mp member
    rfl
  have none : ∀ l ∈ ([] : List Lexeme), l.isBlank = true := by simp
  have begun : ((start.map Lexeme.char).reverse ++ []).all Lexeme.isBlank = false := by
    simpa [Lexeme.isBlank] using visible
  have read : lexemes (start ++ value ++ [';']) =
      start.map .char ++ (lexemes value ++ [.char ';']) := by
    rw [List.append_assoc, plain.lexemes_append, inline.lexemes_append_of_head? (by simp),
      lexemes_singleton rfl]
  have unmarked := plain.marks_eq
  rw [items, tokens, read, tokensFrom_statement none (begins_chars visible) chars
    (by rw [unmarked]; trivial), unmarked, parensAfter, List.foldl_nil,
    tokensFrom_cut inline.complete inline.flat inline.closed begun (.inl rfl)]
  simp [Tokens.cons, later]

/-! ## Values -/

/-- A value that makes one declaration: with a property in front and a block around, it is read as
one block with one declaration, and leaves no parenthesis open. -/
structure Single (value : Text) : Prop extends Fits value where
  declared : (items (wrapped value)).countP Token.isDeclaration = 1

instance (value : Text) : Decidable (Single value) :=
  decidable_of_iff (Fits value ∧ (items (wrapped value)).countP Token.isDeclaration = 1)
    ⟨fun both => ⟨both.1, both.2⟩, fun single => ⟨single.toFits, single.declared⟩⟩

/-- A value with which one declaration can be written: nothing but comments stands behind the
semicolon in it that ends the declaration. -/
structure Lone (value : Text) : Prop extends Inline value where
  quiet : statements (later (lexemes value)) = []

theorem Plain.lone {t : Text} (plain : Plain t) : Lone t := by
  refine ⟨plain.inert.toInline, ?_⟩
  rw [later_of_within (by rw [plain.lexemes_eq, plain.marks_eq]; trivial)]
  rfl

/-- Tokens without braces and declarations are comments. -/
theorem statements_eq_nil {ts : List Token} (flat : braces ts = [])
    (none : ts.countP Token.isDeclaration = 0) : statements ts = [] := by
  rw [braces, List.filterMap_eq_nil_iff] at flat
  rw [List.countP_eq_zero] at none
  refine List.filter_eq_nil_iff.mpr fun token member => ?_
  have noBrace := flat token member
  have noDeclaration := none token member
  cases token <;> simp_all [Token.brace?, Token.isDeclaration, Token.isComment]

/-- The tokens of the block around a value that fits. -/
theorem Fits.items_wrapped {value : Text} (fits : Fits value) :
    ∃ d, items (wrapped value) =
      .opening ['a'] :: .declaration d :: (later (lexemes value) ++ [.closing]) := by
  have inline := fits.inline
  have closed : parensAfter 0 (marks (lexemes value)) = 0 := inline.closed
  have begun : [Lexeme.char ':', .char 'p'].all Lexeme.isBlank = false := by decide
  have cutting := tokensFrom_cut inline.complete inline.flat closed begun (.inr rfl) []
  have start : items (wrapped value) = .opening ['a'] ::
      (tokensFrom [.char ':', .char 'p'] 0 (lexemes value ++ [.char '\x7d'])).items := by
    have name : phrase [.char 'a'] = ['a'] := by decide
    rw [items, tokens, fits.lexemes_wrapped]
    simp [tokensFrom, Tokens.cons, name]
  refine ⟨phrase ([.char 'p', .char ':'] ++ (cut 0 (lexemes value)).1), ?_⟩
  rw [start, cutting, Tokens.cons, items_cut_closing inline.complete inline.flat closed]
  rfl

theorem Single.lone {value : Text} (single : Single value) : Lone value := by
  refine ⟨single.toFits.inline, ?_⟩
  obtain ⟨d, read⟩ := single.toFits.items_wrapped
  have one := single.one
  have declared := single.declared
  rw [read] at one declared
  refine statements_eq_nil ?_ ?_
  · change '\x7b' :: braces (later (lexemes value) ++ [.closing]) = _ at one
    rw [braces_append] at one
    change '\x7b' :: (braces (later (lexemes value)) ++ ['\x7d']) = _ at one
    simpa using one
  · simpa [List.countP_cons, Token.isDeclaration] using declared

end StaticSite.Stylesheet
