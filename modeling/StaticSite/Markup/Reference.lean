import StaticSite.Markup.ReferenceTable
import StaticSite.Text.Digit

/-! # References

A reference stands for characters by number or by name. Some names of the table are also read
without the semicolon at their end; in an attribute value even a longer word is then read as the
longest such name and the rest of the word.
-/

namespace StaticSite.Markup

/-- The replacement character. -/
def replacementChar : Char := Char.ofNat 0xfffd

/-- What the numbers from 128 to 159 stand for: windows-1252, where it has a character. -/
def westernChars : List Nat := [
  0x20ac, 0x81, 0x201a, 0x192, 0x201e, 0x2026, 0x2020, 0x2021, 0x2c6, 0x2030, 0x160, 0x2039,
  0x152, 0x8d, 0x17d, 0x8f, 0x90, 0x2018, 0x2019, 0x201c, 0x201d, 0x2022, 0x2013, 0x2014, 0x2dc,
  0x2122, 0x161, 0x203a, 0x153, 0x9d, 0x17e, 0x178]

/-- The character that a number stands for. -/
def numberedChar (n : Nat) : Char :=
  if 128 ≤ n ∧ n < 160 then Char.ofNat (westernChars.getD (n - 128) n)
  else if n ≠ 0 ∧ n.isValidChar then Char.ofNat n
  else replacementChar

/-- Numbers that stand for nothing in an attribute value: controls and what is no character. -/
def isVoidNumber (n : Nat) : Bool :=
  (1 ≤ n && n ≤ 8) || n == 0xb || (0xe ≤ n && n ≤ 0x1f) || n == 0x7f ||
    (0xfdd0 ≤ n && n ≤ 0xfdef) || (n ≤ 0x10ffff && 0xfffe ≤ n % 0x10000)

/-- A named reference. -/
structure NamedReference where
  name : Text
  /-- Whether the name is also read without a semicolon. -/
  bare : Bool
  characters : Text

/-- Reads one entry of the table. -/
def NamedReference.ofEntry (entry : Text) : NamedReference :=
  let name := entry.takeWhile fun c => c != ':' && c != '='
  let rest := entry.drop name.length
  { name
    bare := rest.head? == some ':'
    characters := (Text.splitAt '.' (rest.drop 1)).map fun digits =>
      Char.ofNat (Text.hexadecimal digits) }

/-- All named references. -/
def namedReferences : List NamedReference :=
  referenceTable.flatMap fun line => (Text.splitAt ' ' (line : String).toList).map .ofEntry

/-- The references for the characters that mark up text. -/
def markupReferences : List NamedReference := [
  ⟨"amp", true, ['&']⟩, ⟨"lt", true, ['<']⟩, ⟨"gt", true, ['>']⟩, ⟨"quot", true, ['"']⟩]

/-- The reference of a name. -/
def namedReference? (name : Text) : Option NamedReference :=
  match markupReferences.find? (·.name == name) with
  | some reference => some reference
  | none => namedReferences.find? (·.name == name)

/-- What a name in content stands for: an unknown one for itself, after its ampersand. -/
def namedText (name : Text) : Text :=
  match namedReference? name with
  | some reference => reference.characters
  | none => '&' :: name

/-- The reference of a name that is read without a semicolon. -/
def bareReference? (name : Text) : Option NamedReference :=
  (namedReference? name).filter (·.bare)

/-- The reference with the longest name that a word begins with, from a length downwards. -/
def longestReference? (word : Text) : Nat → Option NamedReference
  | 0 => none
  | n + 1 => if n = 0 then none else
      match bareReference? (word.take (n + 1)) with
      | some reference => some reference
      | none => longestReference? word n

/-- Whether a character may stand in the name of a reference in an attribute value. -/
def isReferenceChar (c : Char) : Bool :=
  !(c == '\t' || c == '\n' || c == '\x0c' || c == ' ' || c == '<' || c == '&' || c == '#' ||
    c == ';')

/-- The length of a semicolon at the start of a text, if it has one. -/
def semicolonLength (t : Text) : Nat := if t.head? = some ';' then 1 else 0

/-- What a number in an attribute value stands for. -/
def numberedText (n : Nat) : Text := if isVoidNumber n then [] else [numberedChar n]

/-- The reference that a text after an ampersand begins with, in an attribute value: what it stands
for and the number of characters it takes. -/
def valueReference? : Text → Option (Text × Nat)
  | '#' :: rest =>
      let digits := rest.takeWhile isDigit
      if !digits.isEmpty then
        some (numberedText (Text.decimal digits),
          1 + digits.length + semicolonLength (rest.drop digits.length))
      else
        match rest with
        | c :: more =>
            let hexDigits := more.takeWhile isHexDigit
            if (c = 'x' ∨ c = 'X') ∧ !hexDigits.isEmpty then
              some (numberedText (Text.hexadecimal hexDigits),
                2 + hexDigits.length + semicolonLength (more.drop hexDigits.length))
            else none
        | [] => none
  | t =>
      let word := (t.takeWhile isReferenceChar).take 32
      let whole :=
        if (t.drop word.length).head? = some ';' then
          (namedReference? word).map fun reference => (reference.characters, word.length + 1)
        else none
      whole.orElse fun _ =>
        (longestReference? word word.length).map fun reference =>
          (reference.characters, reference.name.length)

/-- Resolves the references of an attribute value, after `skip` characters that are already
read. -/
def resolveFrom (skip : Nat) : Text → Text
  | [] => []
  | c :: rest =>
      if 0 < skip then resolveFrom (skip - 1) rest
      else if c = '&' then
        match valueReference? rest with
        | some (characters, length) => characters ++ resolveFrom length rest
        | none => c :: resolveFrom 0 rest
      else c :: resolveFrom 0 rest

/-- Resolves the references of an attribute value. -/
def resolve (t : Text) : Text := resolveFrom 0 t

/-- A value without ampersands is its own resolution. -/
theorem resolve_of_not_mem {t : Text} (plain : '&' ∉ t) : resolve t = t := by
  unfold resolve
  induction t with
  | nil => rfl
  | cons c rest ih =>
    simp only [List.mem_cons, not_or] at plain
    simp [resolveFrom, Ne.symm plain.1, ih plain.2]

end StaticSite.Markup
