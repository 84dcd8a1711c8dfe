/-! # Texts and blank characters

A `Text` is the list of characters that every reader and printer of the library works on. This
module says which characters are blank, and trims, tests and squeezes texts by such a class.
-/

namespace StaticSite

/-- A text as the list of its characters. -/
abbrev Text := List Char

instance : Coe String Text := ⟨String.toList⟩

section Decidable

variable (p : Char → Prop) [DecidablePred p]

/-! What is said of the characters of a text is decided on the text, whatever other way there is to
decide what is said of all characters. -/

instance (priority := high) decidableForallMem (t : Text) : Decidable (∀ c ∈ t, p c) :=
  List.decidableBAll p t

instance (priority := high) decidableExistsMem (t : Text) : Decidable (∃ c ∈ t, p c) :=
  List.decidableBEx p t

instance (priority := high) decidableForallFirst (first : Option Char) :
    Decidable (∀ c ∈ first, p c) := Option.decidableForallMem first

end Decidable

/-- Unicode white space, with the four information separators. -/
def isBlank (c : Char) : Bool :=
  let n := c.toNat
  (9 ≤ n && n ≤ 13) || (28 ≤ n && n ≤ 32) || n == 0x85 || n == 0xa0 || n == 0x1680 ||
    (0x2000 ≤ n && n ≤ 0x200a) || n == 0x2028 || n == 0x2029 || n == 0x202f || n == 0x205f ||
    n == 0x3000

/-- The white space of markup: a non-breaking space is content there. -/
def isMarkupBlank (c : Char) : Bool :=
  c == ' ' || c == '\t' || c == '\n' || c == '\r' || c == '\x0c'

/-- Blanks of markup are blanks. -/
theorem isBlank_of_isMarkupBlank {c : Char} (blank : isMarkupBlank c = true) : isBlank c = true := by
  simp only [isMarkupBlank, Bool.or_eq_true, beq_iff_eq] at blank
  rcases blank with (((rfl | rfl) | rfl) | rfl) | rfl <;> decide

namespace Text

/-- Drops the characters of a class at the left end. -/
def trimLeft (drop : Char → Bool) (t : Text) : Text := t.dropWhile drop

/-- Drops the characters of a class at the right end. -/
def trimRight (drop : Char → Bool) (t : Text) : Text := (t.reverse.dropWhile drop).reverse

/-- Drops the characters of a class at both ends. -/
def trimBy (drop : Char → Bool) (t : Text) : Text := trimRight drop (trimLeft drop t)

/-- Drops blanks at both ends. -/
def trim (t : Text) : Text := trimBy isBlank t

/-- Drops spaces at both ends. -/
def trimSpaces (t : Text) : Text := trimBy (· == ' ') t

/-- Drops newlines at both ends. -/
def trimNewlines (t : Text) : Text := trimBy (· == '\n') t

/-- A text is blank when all its characters are. -/
def isBlank (t : Text) : Bool := t.all StaticSite.isBlank

/-- Writes each run of characters of a class as one space. -/
def squeeze (run : Char → Bool) : Text → Text
  | [] => []
  | c :: rest =>
      if run c then
        match rest with
        | [] => [' ']
        | d :: _ => if run d then squeeze run rest else ' ' :: squeeze run rest
      else c :: squeeze run rest

/-- Whether a text starts with another one. -/
def startsWith (start t : Text) : Bool := start.isPrefixOf t

/-- The text before the first occurrence of a pattern and the text after it. -/
def cut? (pattern : Text) : Text → Option (Text × Text)
  | [] => if pattern.isEmpty then some ([], []) else none
  | c :: rest =>
      if pattern.isPrefixOf (c :: rest) then some ([], (c :: rest).drop pattern.length)
      else (cut? pattern rest).map fun (before, after) => (c :: before, after)

/-- Whether a pattern occurs in a text. -/
def contains (pattern t : Text) : Bool := (cut? pattern t).isSome

theorem cut?_eq {pattern t before after : Text} (found : cut? pattern t = some (before, after)) :
    t = before ++ pattern ++ after := by
  induction t generalizing before with
  | nil =>
    simp only [cut?] at found
    split at found
    · next empty => simp_all
    · simp at found
  | cons c rest ih =>
    simp only [cut?] at found
    split at found
    · next here =>
      simp only [Option.some.injEq, Prod.mk.injEq] at found
      obtain ⟨rfl, rfl⟩ := found
      obtain ⟨tail, whole⟩ := List.isPrefixOf_iff_prefix.mp here
      rw [← whole]
      simp
    · simp only [Option.map_eq_some_iff, Prod.mk.injEq, Prod.exists] at found
      obtain ⟨b, a, inner, rfl, rfl⟩ := found
      simp [ih inner]

/-- Puts a separator between texts. -/
def joinWith (separator : Text) : List Text → Text
  | [] => []
  | [t] => t
  | t :: rest => t ++ separator ++ joinWith separator rest

/-- Splits a text at every occurrence of a character. -/
def splitAt (separator : Char) : Text → List Text
  | [] => [[]]
  | c :: rest =>
      if c = separator then [] :: splitAt separator rest
      else
        match splitAt separator rest with
        | [] => [[c]]
        | first :: others => (c :: first) :: others

theorem splitAt_ne_nil (separator : Char) (t : Text) : splitAt separator t ≠ [] := by
  cases t with
  | nil => simp [splitAt]
  | cons c rest =>
    simp only [splitAt]
    split
    · simp
    · split <;> simp

/-- Joining the pieces with the separator gives the text back. -/
theorem joinWith_splitAt (separator : Char) (t : Text) :
    joinWith [separator] (splitAt separator t) = t := by
  induction t with
  | nil => rfl
  | cons c rest ih =>
    simp only [splitAt]
    cases pieces : splitAt separator rest with
    | nil => exact absurd pieces (splitAt_ne_nil separator rest)
    | cons first others =>
      rw [pieces] at ih
      split
      · next same => simp [joinWith, same, ih]
      · cases others with
        | nil => simp_all [joinWith]
        | cons second more => simp_all [joinWith]

/-- Splits a text at its first occurrence of a character, without that character. -/
def splitFirst (separator : Char) (t : Text) : Text × Text :=
  (t.takeWhile (· != separator), (t.dropWhile (· != separator)).drop 1)

end Text

end StaticSite
