import Mathlib.Tactic.SplitIfs
import StaticSite.Text.Digit

/-! # Id selectors

A number sign and an identifier behind it select the element with that id. An identifier is made of
name characters and of escapes, and it does not begin like a number. An escape is longer than the
character that it stands for, so an identifier names its own text only when it holds no escape.
-/

namespace StaticSite.Stylesheet

/-- What an escape stands for that has no character, and what a null stands for. -/
def replacementChar : Char := '\ufffd'

/-- Prepares a text for reading: every line end becomes a line feed, and a null is replaced. -/
def preprocess : Text → Text
  | [] => []
  | '\r' :: '\n' :: rest => '\n' :: preprocess rest
  | c :: rest =>
      (if c = '\r' ∨ c = '\x0c' then '\n' else if c = '\x00' then replacementChar else c) ::
        preprocess rest

/-- Whether an identifier can begin with a character. -/
def isNameStart (c : Char) : Bool := isLetter c || c == '_' || 0x80 ≤ c.toNat

/-- Whether a character can stand in an identifier. -/
def isNamePart (c : Char) : Bool := isNameStart c || isDigit c || c == '-'

/-- Whether an escape begins a text. -/
def beginsEscape (t : Text) : Bool := t.head? == some '\\' && (t.drop 1).head? != some '\n'

/-- Whether an identifier begins a text. -/
def beginsIdentifier : Text → Bool
  | [] => false
  | '-' :: rest => rest.head?.any (fun c => isNameStart c || c == '-') || beginsEscape rest
  | c :: rest => isNameStart c || beginsEscape (c :: rest)

/-- The character with a number, or the replacement where there is none. -/
def charOfNumber (n : Nat) : Char :=
  if n = 0 ∨ (0xd800 ≤ n ∧ n ≤ 0xdfff) ∨ 0x10ffff < n then replacementChar else Char.ofNat n

/-- Whether a character is a blank between the parts of a selector. -/
def isSelectorBlank (c : Char) : Bool := c == ' ' || c == '\t' || c == '\n'

/-- The character that an escape stands for and the number of its characters behind the backslash:
up to six digits and a blank behind them, or any one character. -/
def escaped : Text → Char × Nat
  | [] => (replacementChar, 0)
  | c :: rest =>
      if isHexDigit c then
        let digits := ((c :: rest).takeWhile isHexDigit).take 6
        let blank := ((c :: rest).drop digits.length).head?.any isSelectorBlank
        (charOfNumber (Text.hexadecimal digits), digits.length + if blank then 1 else 0)
      else (c, 1)

/-- Reads an identifier as far as it goes, after so many characters that belong to an escape: its
name, and the text behind it. -/
def nameFrom : Nat → Text → Text × Text
  | _, [] => ([], [])
  | skip + 1, _ :: rest => nameFrom skip rest
  | 0, c :: rest =>
      if isNamePart c then
        let (name, behind) := nameFrom 0 rest
        (c :: name, behind)
      else if beginsEscape (c :: rest) then
        let (name, behind) := nameFrom (escaped rest).2 rest
        ((escaped rest).1 :: name, behind)
      else ([], c :: rest)

/-- Reads the id selector that begins a text: the id that it names, and the text behind it. -/
def idSelector? (t : Text) : Option (Text × Text) :=
  match preprocess t with
  | '#' :: rest => if beginsIdentifier rest then some (nameFrom 0 rest) else none
  | _ => none

example : idSelector? "#\\31 a\\:b-é.in-view" = some ("1a:b-é".toList, ".in-view".toList) := by
  decide +kernel

/-- Whether a text is an identifier as it stands, without escapes. -/
def IsIdentifier (t : Text) : Prop := beginsIdentifier t = true ∧ ∀ c ∈ t, isNamePart c = true

instance (t : Text) : Decidable (IsIdentifier t) := inferInstanceAs (Decidable (_ ∧ _))

/-! ## Preparing -/

theorem preprocess_cons {c : Char} {rest : Text} (notReturn : c ≠ '\r') :
    preprocess (c :: rest) =
      (if c = '\x0c' then '\n' else if c = '\x00' then replacementChar else c) ::
        preprocess rest := by
  rw [preprocess]
  · simp [notReturn]
  · intro more same
    exact absurd same notReturn

/-- Texts are prepared one by one where no line end is split. -/
theorem preprocess_append (s : Text) {t : Text} (whole : t.head? ≠ some '\n') :
    preprocess (s ++ t) = preprocess s ++ preprocess t := by
  induction s using preprocess.induct with
  | case1 => rfl
  | case2 rest ih => simp [preprocess, ih]
  | case3 c rest single ih =>
    rw [List.cons_append, preprocess.eq_3 c rest single, preprocess.eq_3 c (rest ++ t), ih]
    · rfl
    · rintro more rfl same
      cases rest with
      | nil => exact whole (by simp [List.nil_append] at same; simp [same])
      | cons d others => exact single others rfl (by simp at same; simp [same.1])

theorem length_preprocess (t : Text) : (preprocess t).length ≤ t.length := by
  induction t using preprocess.induct with
  | case1 => exact Nat.le_refl _
  | case2 rest ih =>
    rw [preprocess, List.length_cons, List.length_cons, List.length_cons]
    omega
  | case3 c rest single ih =>
    rw [preprocess.eq_3 c rest single, List.length_cons, List.length_cons]
    omega

/-- An identifier without escapes needs no preparation. -/
theorem preprocess_of_isNamePart {t : Text} (named : ∀ c ∈ t, isNamePart c = true) :
    preprocess t = t := by
  induction t with
  | nil => rfl
  | cons c rest ih =>
    obtain ⟨own, others⟩ := List.forall_mem_cons.mp named
    have notReturn : c ≠ '\r' := by rintro rfl; exact absurd own (by decide)
    have notFeed : c ≠ '\x0c' := by rintro rfl; exact absurd own (by decide)
    have notNull : c ≠ '\x00' := by rintro rfl; exact absurd own (by decide)
    rw [preprocess_cons notReturn, if_neg notFeed, if_neg notNull, ih others]

/-! ## Reading -/

/-- What follows the selector of a component in its rules: a blank, a class or a pseudo-class. -/
def Follows (t : Text) : Prop := ∃ c ∈ [' ', ':', '.'], t.head? = some c

theorem Follows.cons {t : Text} (follows : Follows t) :
    ∃ c rest, t = c :: rest ∧ isNamePart c = false ∧ c ≠ '\\' ∧ c ≠ '\n' ∧ c ≠ '\r' ∧
      c ≠ '\x0c' ∧ c ≠ '\x00' := by
  obtain ⟨c, listed, head⟩ := follows
  obtain ⟨rest, rfl⟩ := List.head?_eq_some_iff.mp head
  refine ⟨c, rest, rfl, ?_⟩
  clear head
  revert c
  decide

theorem Follows.preprocess {t : Text} (follows : Follows t) : Follows (preprocess t) := by
  obtain ⟨c, rest, rfl, -, -, -, notReturn, notFeed, notNull⟩ := follows.cons
  obtain ⟨d, listed, head⟩ := follows
  rw [preprocess_cons notReturn, if_neg notFeed, if_neg notNull]
  exact ⟨d, listed, head⟩

theorem nameFrom_isNamePart {t behind : Text} (named : ∀ c ∈ t, isNamePart c = true)
    (follows : Follows behind) : nameFrom 0 (t ++ behind) = (t, behind) := by
  induction t with
  | nil =>
    obtain ⟨c, rest, rfl, other, notBackslash, -⟩ := follows.cons
    simp [nameFrom, other, beginsEscape, notBackslash]
  | cons c rest ih =>
    obtain ⟨own, others⟩ := List.forall_mem_cons.mp named
    rw [List.cons_append, nameFrom, if_pos own, ih others]

/-- An escape with something behind it has characters behind its backslash. -/
theorem escaped_pos {t : Text} (some : t ≠ []) : 1 ≤ (escaped t).2 := by
  cases t with
  | nil => exact absurd rfl some
  | cons c rest =>
    rw [escaped]
    split_ifs with hex
    · rw [List.takeWhile_cons_of_pos hex]
      simp
      omega
    · exact Nat.le_refl 1

/-- What is read as an identifier in front of something is no shorter than its name, and of the same
length only when it is its own name. -/
theorem nameFrom_sound {skip : Nat} {t : Text} (more : (nameFrom skip t).2 ≠ []) : ∃ body,
    t.drop skip = body ++ (nameFrom skip t).2 ∧ (nameFrom skip t).1.length ≤ body.length ∧
      ((nameFrom skip t).1.length = body.length →
        (nameFrom skip t).1 = body ∧ ∀ c ∈ body, isNamePart c = true) := by
  induction t generalizing skip with
  | nil => exact absurd (by cases skip <;> rfl) more
  | cons c rest ih =>
    cases skip with
    | succ skip => exact ih more
    | zero =>
      rw [nameFrom] at more ⊢
      split_ifs at more ⊢ with part escape
      · obtain ⟨body, split, short, same⟩ := ih more
        refine ⟨c :: body, congrArg (c :: ·) split, by simpa using short, fun equal => ?_⟩
        obtain ⟨name, parts⟩ := same (by simpa using equal)
        exact ⟨congrArg (c :: ·) name, List.forall_mem_cons.mpr ⟨part, parts⟩⟩
      · obtain ⟨body, split, short, -⟩ := ih more
        -- The backslash and what it escapes are two characters at least, for one of the name.
        have inside : (escaped rest).2 < rest.length := by
          have left : (rest.drop (escaped rest).2).length ≠ 0 := by
            intro none
            rw [List.length_eq_zero_iff, split] at none
            exact more (List.append_eq_nil_iff.mp none).2
          rw [List.length_drop] at left
          omega
        have characters : (rest.take (escaped rest).2).length = (escaped rest).2 :=
          List.length_take_of_le (Nat.le_of_lt inside)
        have two : 1 ≤ (escaped rest).2 := escaped_pos (by rintro rfl; exact absurd inside (by simp))
        refine ⟨c :: (rest.take (escaped rest).2 ++ body), ?_, ?_, fun equal => ?_⟩
        · rw [List.cons_append, List.append_assoc, ← split, List.take_append_drop]
          rfl
        · rw [List.length_cons, List.length_cons, List.length_append]
          omega
        · rw [List.length_cons, List.length_cons, List.length_append] at equal
          omega
      · exact ⟨[], rfl, Nat.le_refl _, by simp⟩

theorem beginsEscape_of_isNamePart {c : Char} (part : isNamePart c = true) (rest : Text) :
    beginsEscape (c :: rest) = false := by
  have notBackslash : c ≠ '\\' := by rintro rfl; exact absurd part (by decide)
  simp [beginsEscape, notBackslash]

theorem beginsIdentifier_cons {c : Char} (notDash : c ≠ '-') (rest : Text) :
    beginsIdentifier (c :: rest) = (isNameStart c || beginsEscape (c :: rest)) := by
  rw [beginsIdentifier]
  exact notDash

/-- Whether an identifier begins a text of name characters is decided within it. -/
theorem beginsIdentifier_append {t behind : Text} (named : ∀ c ∈ t, isNamePart c = true)
    (follows : Follows behind) : beginsIdentifier (t ++ behind) = beginsIdentifier t := by
  have names : ∀ c ∈ [' ', ':', '.'], isNameStart c = false ∧ c ≠ '-' ∧ c ≠ '\\' := by decide
  obtain ⟨d, listed, head⟩ := follows
  obtain ⟨more, rfl⟩ := List.head?_eq_some_iff.mp head
  obtain ⟨notStart, notDash, notBackslash⟩ := names d listed
  cases t with
  | nil =>
    rw [List.nil_append, beginsIdentifier_cons notDash]
    simp [notStart, beginsEscape, notBackslash, beginsIdentifier]
  | cons c rest =>
    have part := named c List.mem_cons_self
    by_cases dash : c = '-'
    · subst dash
      cases rest with
      | nil => simp [beginsIdentifier, notStart, notDash, beginsEscape, notBackslash]
      | cons e others =>
        have next := named e (by simp)
        simp [beginsIdentifier, beginsEscape_of_isNamePart next]
    · rw [List.cons_append, beginsIdentifier_cons dash, beginsIdentifier_cons dash,
        beginsEscape_of_isNamePart part, beginsEscape_of_isNamePart part]

/-- A text behind a number sign is an id selector with that text for its id exactly when it is an
identifier without escapes. -/
theorem idSelector?_eq_iff (t : Text) {behind : Text} (follows : Follows behind) :
    idSelector? ('#' :: t ++ behind) = some (t, preprocess behind) ↔ IsIdentifier t := by
  have prepared : preprocess ('#' :: t ++ behind) = '#' :: (preprocess t ++ preprocess behind) := by
    obtain ⟨c, rest, rfl, -, -, notLine, -⟩ := follows.cons
    rw [List.cons_append, preprocess_cons (by decide), preprocess_append t (by simpa using notLine)]
    rfl
  have reading : idSelector? ('#' :: t ++ behind) =
      if beginsIdentifier (preprocess t ++ preprocess behind) then
        some (nameFrom 0 (preprocess t ++ preprocess behind)) else none := by
    rw [idSelector?, prepared]
    rfl
  rw [reading]
  constructor
  · intro read
    split at read
    · next begins =>
      have whole : nameFrom 0 (preprocess t ++ preprocess behind) = (t, preprocess behind) :=
        Option.some.inj read
      have more : preprocess behind ≠ [] := by
        obtain ⟨c, rest, same, -⟩ := follows.preprocess.cons
        simp [same]
      obtain ⟨body, split, short, same⟩ := nameFrom_sound
        (show (nameFrom 0 (preprocess t ++ preprocess behind)).2 ≠ [] by rw [whole]; exact more)
      rw [whole] at split short same
      obtain rfl : preprocess t = body := List.append_cancel_right split
      have prepare := length_preprocess t
      obtain ⟨own, named⟩ := same (by dsimp only at short ⊢; omega)
      dsimp only at own
      rw [← own] at begins named
      exact ⟨beginsIdentifier_append named follows.preprocess ▸ begins, named⟩
    · cases read
  · rintro ⟨begins, named⟩
    rw [preprocess_of_isNamePart named, beginsIdentifier_append named follows.preprocess,
      if_pos begins, nameFrom_isNamePart named follows.preprocess]

end StaticSite.Stylesheet
