import StaticSite.Number.Numeral
import StaticSite.Value.Basic

/-! # Lexemes of JSON

The words of a JSON text with the offsets at which they start. Reading words never fails: a string
that is not well formed is a lexeme that carries its fault, and a character that starts no word is
a stray one, so that whoever expects a word decides which fault comes first.

A text is a list of characters, and half of a surrogate pair is none. An escape that writes one is
read as the replacement character, so texts with such halves, and the faults that they cause where a
path or a file is encoded, are outside of what is said here.
-/

namespace StaticSite.Json

/-- What can be wrong with a JSON text. -/
inductive Cause
  | byteOrderMark
  | valueExpected
  | propertyNameExpected
  | colonExpected
  | commaExpected
  | extraData
  | unterminatedString
  | controlCharacter
  | badEscape
  | badUnicodeEscape
  deriving DecidableEq, Repr

/-- The wording of a cause. -/
def Cause.message : Cause → String
  | .byteOrderMark => "Unexpected UTF-8 BOM (decode using utf-8-sig)"
  | .valueExpected => "Expecting value"
  | .propertyNameExpected => "Expecting property name enclosed in double quotes"
  | .colonExpected => "Expecting ':' delimiter"
  | .commaExpected => "Expecting ',' delimiter"
  | .extraData => "Extra data"
  | .unterminatedString => "Unterminated string starting at"
  | .controlCharacter => "Invalid control character at"
  | .badEscape => "Invalid \\escape"
  | .badUnicodeEscape => "Invalid \\uXXXX escape"

/-- A cause and the offset of the character it concerns. -/
structure Fault where
  cause : Cause
  offset : Nat
  deriving DecidableEq, Repr

/-- A word of JSON. -/
inductive Lexeme
  | tableStart
  | tableEnd
  | listStart
  | listEnd
  | comma
  | colon
  | string (content : Text)
  | badString (fault : Fault)
  | scalar (value : Value)
  | stray (c : Char)

/-- Space that may stand between words. -/
def isSpace (c : Char) : Bool := c == ' ' || c == '\t' || c == '\n' || c == '\r'

/-- The number that four hexadecimal digits write. -/
def quad? (a b c d : Char) : Option Nat := do
  let digits ← [a, b, c, d].mapM hexDigit?
  pure (StaticSite.ofDigits 16 digits)

/-- The character with a number; the replacement character stands for half of a surrogate pair. -/
def scalarChar (n : Nat) : Char := if n.isValidChar then Char.ofNat n else Char.ofNat 0xfffd

/-- The character that a one-letter escape stands for. -/
def simpleEscape? : Char → Option Char
  | '"' => some '"'
  | '\\' => some '\\'
  | '/' => some '/'
  | 'b' => some (Char.ofNat 8)
  | 'f' => some (Char.ofNat 12)
  | 'n' => some '\n'
  | 'r' => some '\r'
  | 't' => some '\t'
  | _ => none

/-- The rest of a string: its characters and the offset after the closing quote. A string begins
at `start` and the rest of it at `offset`; `seen` holds the characters so far, last one first. -/
def stringRest (start offset : Nat) (seen : Text) : Text → Except Fault (Text × Nat)
  | [] => .error ⟨.unterminatedString, start⟩
  | '"' :: _ => .ok (seen.reverse, offset + 1)
  | '\\' :: 'u' :: a :: b :: c :: d :: rest =>
      if rest.isEmpty then .error ⟨.badUnicodeEscape, offset + 1⟩
      else
        match quad? a b c d with
        | none => .error ⟨.badUnicodeEscape, offset + 1⟩
        | some high =>
            if 0xd800 ≤ high ∧ high < 0xdc00 then
              match rest with
              | '\\' :: 'u' :: e :: f :: g :: h :: more =>
                  if more.isEmpty then
                    stringRest start (offset + 6) (scalarChar high :: seen)
                      ('\\' :: 'u' :: e :: f :: g :: h :: more)
                  else
                    match quad? e f g h with
                    | none => .error ⟨.badUnicodeEscape, offset + 7⟩
                    | some low =>
                        if 0xdc00 ≤ low ∧ low < 0xe000 then
                          let point := 0x10000 + (high - 0xd800) * 0x400 + (low - 0xdc00)
                          stringRest start (offset + 12) (scalarChar point :: seen) more
                        else
                          stringRest start (offset + 6) (scalarChar high :: seen)
                            ('\\' :: 'u' :: e :: f :: g :: h :: more)
              | other => stringRest start (offset + 6) (scalarChar high :: seen) other
            else stringRest start (offset + 6) (scalarChar high :: seen) rest
  | '\\' :: 'u' :: _ => .error ⟨.badUnicodeEscape, offset + 1⟩
  | ['\\'] => .error ⟨.unterminatedString, start⟩
  | '\\' :: c :: rest =>
      match simpleEscape? c with
      | some d => stringRest start (offset + 2) (d :: seen) rest
      | none => .error ⟨.badEscape, offset⟩
  | c :: rest =>
      if c.toNat < 32 then .error ⟨.controlCharacter, offset⟩
      else stringRest start (offset + 1) (c :: seen) rest

/-- The fraction of a number: a point and at least one digit. -/
def fraction? : Text → Option Text
  | '.' :: rest =>
      let digits := rest.takeWhile isDigit
      if digits.isEmpty then none else some digits
  | _ => none

/-- The exponent of a number: its letter, an optional sign and at least one digit. -/
def exponentLength? : Text → Option (Int × Nat)
  | c :: rest =>
      if c = 'e' ∨ c = 'E' then
        let (negative, unsigned) := Number.takeSign rest
        let digits := unsigned.takeWhile isDigit
        if digits.isEmpty then none
        else
          let power : Int := Text.decimal digits
          some (if negative then -power else power, 1 + (rest.length - unsigned.length) + digits.length)
      else none
  | [] => none

/-- An unsigned number at the start of a text, and how many characters it takes. -/
def unsigned? (negative : Bool) (t : Text) : Option (Value × Nat) :=
  let whole := match t with
    | '0' :: _ => ['0']
    | t => t.takeWhile isDigit
  if whole.isEmpty then none
  else
    let afterWhole := t.drop whole.length
    let fraction := fraction? afterWhole
    let fractionLength := (fraction.map fun digits => digits.length + 1).getD 0
    let exponent := exponentLength? (afterWhole.drop fractionLength)
    let length := whole.length + fractionLength + (exponent.map (·.2)).getD 0
    match fraction, exponent with
    | none, none =>
        let n : Int := Text.decimal whole
        some (.int (if negative then -n else n), length)
    | _, _ =>
        let digits := fraction.getD []
        let power := (exponent.map (·.1)).getD 0 - digits.length
        let x := Number.ofDigits (Text.decimal (whole ++ digits)) power
        some (.float (Number.signed negative x), length)

/-- The words that stand for values. -/
def words : List (Text × Value) :=
  [("null", .null), ("true", .bool true), ("false", .bool false),
    ("NaN", .float Number.notANumber), ("Infinity", .float Number.infinity),
    ("-Infinity", .float (-Number.infinity))]

/-- A word or a number at the start of a text, and how many characters it takes. -/
def scalar? (t : Text) : Option (Value × Nat) :=
  match words.find? fun (word, _) => word.isPrefixOf t with
  | some (word, value) => some (value, word.length)
  | none =>
      match t with
      | '-' :: rest => (unsigned? true rest).map fun (value, length) => (value, length + 1)
      | t => unsigned? false t

/-- The lexeme that a text starts with, and how many characters it takes. -/
def lexeme (offset : Nat) (c : Char) (rest : Text) : Lexeme × Nat :=
  match c with
  | '\x7b' => (.tableStart, 1)
  | '\x7d' => (.tableEnd, 1)
  | '[' => (.listStart, 1)
  | ']' => (.listEnd, 1)
  | ',' => (.comma, 1)
  | ':' => (.colon, 1)
  | '"' =>
      match stringRest offset (offset + 1) [] rest with
      | .ok (content, after) => (.string content, after - offset)
      | .error fault => (.badString fault, 1)
  | c =>
      match scalar? (c :: rest) with
      | some (value, length) => (.scalar value, length)
      | none => (.stray c, 1)

/-- The lexemes of a text from an offset on, after `skip` characters that are already read. -/
def lexemesFrom (offset skip : Nat) : Text → List (Nat × Lexeme)
  | [] => []
  | c :: rest =>
      if 0 < skip then lexemesFrom (offset + 1) (skip - 1) rest
      else if isSpace c then lexemesFrom (offset + 1) 0 rest
      else
        let (word, length) := lexeme offset c rest
        (offset, word) :: lexemesFrom (offset + 1) (length - 1) rest

/-- The lexemes of a text with their offsets. -/
def lexemes (t : Text) : List (Nat × Lexeme) := lexemesFrom 0 0 t

end StaticSite.Json
