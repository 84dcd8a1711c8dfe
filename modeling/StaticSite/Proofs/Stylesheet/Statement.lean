import StaticSite.Proofs.Stylesheet.Phrase

/-! # Reading a statement

Which lexemes end a statement depends on its `marks` alone: braces, semicolons and parentheses
outside comments and strings. Lexemes whose marks stay `Within` a statement are collected as they
are, once the statement has begun with something that is neither blank nor a comment.
-/

namespace StaticSite.Stylesheet

/-- Whether a character is part of the structure of a stylesheet. -/
def isMark (c : Char) : Bool := c == '\x7b' || c == '\x7d' || c == ';' || c == '(' || c == ')'

namespace Lexeme

/-- The mark that a lexeme is. -/
def mark? : Lexeme → Option Char
  | .char c => if isMark c then some c else none
  | _ => none

/-- Whether a lexeme is a comment. -/
def isComment : Lexeme → Bool
  | .comment _ => true
  | _ => false

theorem mark?_of_isBlank {l : Lexeme} (blank : l.isBlank = true) : l.mark? = none := by
  obtain ⟨c, rfl, isBlank⟩ := eq_char_of_isBlank blank
  simp only [mark?, ite_eq_right_iff, reduceCtorEq, imp_false]
  intro mark
  simp only [isMark, Bool.or_eq_true, beq_iff_eq] at mark
  rcases mark with (((rfl | rfl) | rfl) | rfl) | rfl <;> exact absurd isBlank (by decide)

end Lexeme

/-- The marks of lexemes. -/
def marks (ls : List Lexeme) : Text := ls.filterMap Lexeme.mark?

/-- The number of open parentheses behind a mark. -/
def parensStep (parens : Nat) (mark : Char) : Nat :=
  if mark = '(' then parens + 1 else if mark = ')' then parens - 1 else parens

/-- The number of open parentheses behind marks. -/
def parensAfter (parens : Nat) (ms : Text) : Nat := ms.foldl parensStep parens

/-- Whether a mark ends a statement. -/
def endsStatement (parens : Nat) (mark : Char) : Bool :=
  mark == '\x7b' || mark == '\x7d' || mark == ';' && parens == 0

/-- Marks that do not end a statement. -/
def Within (parens : Nat) : Text → Prop
  | [] => True
  | m :: rest => endsStatement parens m = false ∧ Within (parensStep parens m) rest

/-- Whether the first lexeme that is not blank exists and is no comment. -/
def begins : List Lexeme → Bool
  | [] => false
  | l :: rest => if l.isBlank then begins rest else !l.isComment

/-! ## Marks -/

@[simp] theorem marks_nil : marks [] = [] := rfl

theorem marks_append (ls ms : List Lexeme) : marks (ls ++ ms) = marks ls ++ marks ms :=
  List.filterMap_append

theorem marks_cons (l : Lexeme) (ls : List Lexeme) : marks (l :: ls) = marks [l] ++ marks ls :=
  marks_append [l] ls

@[simp] theorem marks_space_cons (ls : List Lexeme) : marks (.char ' ' :: ls) = marks ls := rfl

theorem marks_of_blanks {bs : List Lexeme} (blanks : ∀ b ∈ bs, b.isBlank = true) :
    marks bs = [] := filterMap_of_blanks (fun _ => Lexeme.mark?_of_isBlank) blanks

theorem marks_squeezed (after : Bool) (ls : List Lexeme) :
    marks (squeezed after ls) = marks ls :=
  filterMap_squeezed (fun _ => Lexeme.mark?_of_isBlank) after ls

theorem marks_trimmed (ls : List Lexeme) : marks (trimmed ls) = marks ls :=
  filterMap_trimmed (fun _ => Lexeme.mark?_of_isBlank) ls

theorem marks_tightened (ls : List Lexeme) : marks (tightened ls) = marks ls := by
  rw [tightened, marks_trimmed, marks_squeezed]

theorem parensAfter_append (parens : Nat) (ms ns : Text) :
    parensAfter parens (ms ++ ns) = parensAfter (parensAfter parens ms) ns :=
  List.foldl_append

theorem within_append {parens : Nat} {ms ns : Text} :
    Within parens (ms ++ ns) ↔ Within parens ms ∧ Within (parensAfter parens ms) ns := by
  induction ms generalizing parens with
  | nil => simp [Within, parensAfter]
  | cons m rest ih => simp [Within, parensAfter, ih, and_assoc]

theorem parensAfter_char (parens : Nat) (c : Char) :
    parensAfter parens (marks [.char c]) = parensStep parens c := by
  by_cases mark : isMark c = true
  · simp [marks, Lexeme.mark?, mark, parensAfter]
  · have plain : c ≠ '(' ∧ c ≠ ')' := by
      simp only [isMark, Bool.or_eq_true, beq_iff_eq, not_or] at mark
      exact ⟨mark.1.2, mark.2⟩
    simp [marks, Lexeme.mark?, mark, parensAfter, parensStep, plain]

theorem within_char {parens : Nat} {c : Char} (notOpening : c ≠ '\x7b') (notClosing : c ≠ '\x7d')
    (notEnd : ¬ (c = ';' ∧ parens = 0)) : Within parens (marks [.char c]) := by
  by_cases mark : isMark c = true
  · have goesOn : endsStatement parens c = false := by
      simpa [endsStatement, notOpening, notClosing] using notEnd
    simp [marks, Lexeme.mark?, mark, Within, goesOn]
  · simp [marks, Lexeme.mark?, mark, Within]

/-! ## Beginnings -/

theorem begins_blanks {bs : List Lexeme} (blanks : ∀ b ∈ bs, b.isBlank = true)
    (ls : List Lexeme) : begins (bs ++ ls) = begins ls := by
  induction bs with
  | nil => rfl
  | cons b rest ih =>
    rw [List.cons_append, begins, if_pos (blanks b List.mem_cons_self)]
    exact ih fun c member => blanks c (List.mem_cons_of_mem _ member)

theorem begins_append {ls : List Lexeme} (ms : List Lexeme) (some : ∃ l ∈ ls, l.isBlank = false) :
    begins (ls ++ ms) = begins ls := by
  induction ls with
  | nil => simp at some
  | cons l rest ih =>
    rw [List.cons_append, begins, begins]
    split
    · next blank =>
      refine ih ?_
      simpa [blank] using some
    · rfl

/-- What begins holds something that is not blank. -/
theorem exists_visible_of_begins {ls : List Lexeme} (starts : begins ls = true) :
    ∃ l ∈ ls, l.isBlank = false := by
  induction ls with
  | nil => simp [begins] at starts
  | cons l rest ih =>
    by_cases blank : l.isBlank = true
    · rw [begins, if_pos blank] at starts
      obtain ⟨m, member, visible⟩ := ih starts
      exact ⟨m, List.mem_cons_of_mem _ member, visible⟩
    · exact ⟨l, List.mem_cons_self, by simpa using blank⟩

theorem begins_squeezed (after : Bool) (ls : List Lexeme) :
    begins (squeezed after ls) = begins ls := by
  induction ls generalizing after with
  | nil => rfl
  | cons l rest ih =>
    rw [squeezed, begins]
    by_cases blank : l.isBlank = true
    · cases after <;> simp [begins, blank, ih]
    · simp [begins, blank]

theorem begins_trimmed {ls : List Lexeme} (starts : begins ls = true) :
    begins (trimmed ls) = true := by
  have front : begins (ls.dropWhile Lexeme.isBlank) = true := by
    rw [← List.takeWhile_append_dropWhile (p := Lexeme.isBlank) (l := ls),
      begins_blanks fun b member => List.mem_takeWhile_imp member] at starts
    exact starts
  rw [← List.rdropWhile_append_rtakeWhile (p := Lexeme.isBlank) (l := ls.dropWhile Lexeme.isBlank)]
    at front
  obtain ⟨l, member, visible⟩ := exists_visible_of_begins front
  have kept : ∃ l ∈ trimmed ls, l.isBlank = false := by
    rcases List.mem_append.mp member with inside | behind
    · exact ⟨l, inside, visible⟩
    · have blank := List.mem_rtakeWhile_imp behind
      simp [visible] at blank
  exact (begins_append _ kept).symm.trans front

/-- A statement begins in the same way whatever stands behind a visible character in it. -/
theorem begins_trimmed_append {before behind : List Lexeme} {c : Char}
    (visible : StaticSite.isBlank c = false) (starts : begins (before ++ .char c :: behind) = true)
    (others : List Lexeme) : begins (trimmed before ++ .char c :: others) = true := by
  by_cases some : ∃ l ∈ before, l.isBlank = false
  · rw [begins_append _ some] at starts
    have kept := begins_trimmed starts
    rwa [begins_append _ (exists_visible_of_begins kept)]
  · have blanks : ∀ l ∈ trimmed before, l.isBlank = true := by
      intro l member
      by_contra shown
      exact some ⟨l, (isInfix_trimmed before).subset member, by simpa using shown⟩
    rw [begins_blanks blanks]
    simp [begins, Lexeme.isBlank, visible, Lexeme.isComment]

theorem begins_tightened {ls : List Lexeme} (starts : begins ls = true) :
    begins (tightened ls) = true :=
  begins_trimmed (by rwa [begins_squeezed])

/-- Lexemes that make up a statement: a phrase that can be read back and does not start with a
comment. -/
structure Phrasal (ls : List Lexeme) : Prop where
  lexed : Lexed ls
  spaced : Spaced ls
  head : ∀ l ∈ ls.head?, l.isBlank = false
  starts : begins ls = true

/-! ## Collecting lexemes -/

/-- A lexeme that does not end the statement is collected. -/
theorem tokensFrom_collect {pending : List Lexeme} {parens : Nat} {l : Lexeme}
    (complete : l.isOpen = false) (inside : Within parens (marks [l]))
    (part : pending.all Lexeme.isBlank = true → l.isComment = false) (rest : List Lexeme) :
    tokensFrom pending parens (l :: rest) =
      tokensFrom (l :: pending) (parensAfter parens (marks [l])) rest := by
  cases l with
  | comment body =>
    have begun : pending.all Lexeme.isBlank = false := by
      by_contra none
      simpa [Lexeme.isComment] using part (by simpa using none)
    rw [tokensFrom, if_neg (by simp [begun])]
    rfl
  | quoted quote body => rfl
  | char c =>
    by_cases mark : isMark c = true
    · simp only [marks, List.filterMap_cons, Lexeme.mark?, if_pos mark, List.filterMap_nil, Within,
        endsStatement, Bool.or_eq_false_iff, Bool.and_eq_false_imp, beq_iff_eq, beq_eq_false_iff_ne,
        and_true] at inside
      obtain ⟨⟨notOpening, notClosing⟩, notSemicolon⟩ := inside
      simp only [marks, List.filterMap_cons, Lexeme.mark?, if_pos mark, List.filterMap_nil]
      rw [tokensFrom, if_neg notOpening, if_neg notClosing, if_neg (by tauto)]
      simp only [parensAfter, List.foldl_cons, List.foldl_nil, parensStep]
      split_ifs <;> rfl
    · simp only [marks, List.filterMap_cons, Lexeme.mark?, if_neg mark, List.filterMap_nil]
      simp only [isMark, Bool.or_eq_true, beq_iff_eq, not_or] at mark
      obtain ⟨⟨⟨⟨notOpening, notClosing⟩, notSemicolon⟩, notLeft⟩, notRight⟩ := mark
      simp [tokensFrom, notOpening, notClosing, notSemicolon, notLeft, notRight, parensAfter]
  | openComment body => simp [Lexeme.isOpen] at complete
  | openQuoted quote body => simp [Lexeme.isOpen] at complete

/-- Lexemes of a statement that has begun are collected. -/
theorem tokensFrom_append {pending : List Lexeme} (begun : pending.all Lexeme.isBlank = false)
    {parens : Nat} {ls : List Lexeme} (complete : ∀ l ∈ ls, l.isOpen = false)
    (inside : Within parens (marks ls)) (rest : List Lexeme) :
    tokensFrom pending parens (ls ++ rest) =
      tokensFrom (ls.reverse ++ pending) (parensAfter parens (marks ls)) rest := by
  induction ls generalizing pending parens with
  | nil => rfl
  | cons l more ih =>
    rw [marks_cons] at inside
    obtain ⟨first, others⟩ := within_append.mp inside
    rw [List.cons_append, tokensFrom_collect (complete l List.mem_cons_self) first (by simp [begun]),
      ih (by simp [begun]) (fun m member => complete m (List.mem_cons_of_mem _ member)) others,
      marks_cons l more, parensAfter_append]
    simp

/-- Blanks are collected and change nothing. -/
theorem tokensFrom_blanks (bs : List Lexeme) (blanks : ∀ b ∈ bs, b.isBlank = true)
    (pending : List Lexeme) (parens : Nat) (rest : List Lexeme) :
    tokensFrom pending parens (bs ++ rest) = tokensFrom (bs.reverse ++ pending) parens rest := by
  induction bs generalizing pending with
  | nil => rfl
  | cons b more ih =>
    have blank := blanks b List.mem_cons_self
    have none : marks [b] = [] := marks_of_blanks (by simpa using blank)
    obtain ⟨c, rfl, -⟩ := Lexeme.eq_char_of_isBlank blank
    have step : tokensFrom pending parens (.char c :: (more ++ rest)) =
        tokensFrom (.char c :: pending) (parensAfter parens (marks [.char c])) (more ++ rest) :=
      tokensFrom_collect rfl (by rw [none]; trivial) (fun _ => rfl) _
    rw [none] at step
    rw [List.cons_append, step]
    refine (ih (fun d member => blanks d (List.mem_cons_of_mem _ member)) _).trans ?_
    simp

/-- Lexemes that begin a statement and stay within it are collected. -/
theorem tokensFrom_statement {pending : List Lexeme} (blank : ∀ b ∈ pending, b.isBlank = true)
    {parens : Nat} {ls : List Lexeme} (starts : begins ls = true)
    (complete : ∀ l ∈ ls, l.isOpen = false) (inside : Within parens (marks ls))
    (rest : List Lexeme) :
    tokensFrom pending parens (ls ++ rest) =
      tokensFrom (ls.reverse ++ pending) (parensAfter parens (marks ls)) rest := by
  induction ls generalizing pending with
  | nil => simp [begins] at starts
  | cons l more ih =>
    rw [marks_cons] at inside
    obtain ⟨first, others⟩ := within_append.mp inside
    have finished := fun m member => complete m (List.mem_cons_of_mem l member)
    rw [begins] at starts
    split at starts
    · next isBlank =>
      have none : marks [l] = [] := marks_of_blanks (by simpa using isBlank)
      have step := tokensFrom_blanks [l] (by simpa using isBlank) pending parens (more ++ rest)
      rw [none] at others
      refine step.trans ((ih (by simpa [isBlank] using blank) starts finished others).trans ?_)
      rw [marks_cons, none]
      simp
    · next visible =>
      have part : l.isComment = false := by simpa using starts
      rw [List.cons_append, tokensFrom_collect (complete l List.mem_cons_self) first (fun _ => part),
        tokensFrom_append (by simp [visible]) finished others, marks_cons l more,
        parensAfter_append]
      simp

end StaticSite.Stylesheet
