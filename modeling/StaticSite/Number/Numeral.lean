import StaticSite.Number.Shortest
import StaticSite.Text.LowerCase

/-! # Numerals

Reading numbers. A decimal numeral is a digit text with a power of ten; reading rounds it to the
nearest float, and powers far outside the range of floats are cut off first. Settings and tree data
also accept numerals written as text, with single underscores between digits.
-/

namespace StaticSite.Number

/-- Infinity. -/
def infinity : Float := Float.ofBits 0x7ff0000000000000

/-- Not a number. -/
def notANumber : Float := Float.ofBits 0x7ff8000000000000

/-- The float nearest to `digits · 10 ^ exponent`. -/
def ofDigits (digits : Nat) (exponent : Int) : Float :=
  if digits = 0 then 0.0
  else
    let size := exponent + (Text.ofNat digits).length
    if size > 400 then infinity
    else if size < -400 then 0.0
    else if 0 ≤ exponent then Float.ofScientific (digits * Nat.pow 10 exponent.toNat) false 0
    else Float.ofScientific digits true (-exponent).toNat

/-- Gives a float a sign. -/
def signed (negative : Bool) (x : Float) : Float := if negative then -x else x

/-- The float nearest to an integer. -/
def ofInt (n : Int) : Float := signed (n < 0) (ofDigits n.natAbs 0)

/-- Takes a sign off the front of a text. -/
def takeSign : Text → Bool × Text
  | '-' :: rest => (true, rest)
  | '+' :: rest => (false, rest)
  | t => (false, t)

/-- Removes single underscores that stand between digits; any other underscore refuses. -/
def dropUnderscores (isDigit : Char → Bool) : Text → Option Text
  | [] => some []
  | [c] => if c = '_' then none else some [c]
  | c :: d :: rest =>
      if c = '_' then none
      else if d = '_' then
        match rest with
        | e :: _ =>
            if isDigit c && isDigit e then (dropUnderscores isDigit rest).map (c :: ·) else none
        | [] => none
      else (dropUnderscores isDigit (d :: rest)).map (c :: ·)

/-- Reads a power of ten: an optional sign and digits. -/
def exponent? (t : Text) : Option Int :=
  let (negative, digits) := takeSign t
  if digits.isEmpty || !digits.all isDigit then none
  else some (if negative then -(digits.decimal : Int) else digits.decimal)

/-- Reads an unsigned decimal numeral: digits, an optional point, an optional exponent, with a
digit somewhere before the exponent. -/
def decimal? (t : Text) : Option Float :=
  let whole := t.takeWhile isDigit
  let afterWhole := t.dropWhile isDigit
  let (fraction, tail) := match afterWhole with
    | '.' :: rest => (rest.takeWhile isDigit, rest.dropWhile isDigit)
    | rest => ([], rest)
  if whole.isEmpty && fraction.isEmpty then none
  else
    let power : Option Int := match tail with
      | [] => some 0
      | c :: rest => if c = 'e' ∨ c = 'E' then exponent? rest else none
    power.map fun p => ofDigits (Text.decimal (whole ++ fraction)) (p - fraction.length)

/-- Reads a word for a number that is not finite. -/
def special? (t : Text) : Option Float :=
  let word := t.lower
  if word = "inf" ∨ word = "infinity" then some infinity
  else if word = "nan" then some notANumber
  else none

end StaticSite.Number
