import StaticSite.Number.Numeral
import StaticSite.Text.Quoted

/-! # Whole numbers of settings

A setting may give a whole number as text, with blanks around it, digits of any script, and single
underscores between digits. Floats lose their fraction.
-/

namespace StaticSite

/-- The integer that is left of a finite number without its fraction. -/
def Binary.truncate? : Binary → Option Int
  | .finite negative mantissa exponent =>
      let magnitude : Nat :=
        if 0 ≤ exponent then mantissa * Nat.pow 2 exponent.toNat
        else mantissa / Nat.pow 2 (-exponent).toNat
      some (if negative then -(magnitude : Int) else magnitude)
  | _ => none

namespace Number

/-- Why a text is no whole number. -/
inductive WholeFault
  | malformed (t : Text)
  | tooLong (digits : Nat)
  deriving DecidableEq, Repr

/-- The most digits that a whole number may be written with. -/
def digitLimit : Nat := 4300

/-- The most characters of a malformed text that a message shows. -/
def shownLimit : Nat := 200

/-- The wording of a fault. -/
def WholeFault.message : WholeFault → Text
  | .malformed t =>
      "invalid literal for int() with base 10: " ++ (Text.quoted t).take shownLimit
  | .tooLong digits =>
      "Exceeds the limit (" ++ Text.ofNat digitLimit ++
        " digits) for integer string conversion: value has " ++ Text.ofNat digits ++
        " digits; use sys.set_int_max_str_digits() to increase the limit"

/-- Whether a character is a decimal digit of any script. -/
def isScriptDigit (c : Char) : Bool := (scriptDigit? c).isSome

/-- Reads a whole number. -/
def whole (t : Text) : Except WholeFault Int :=
  let (negative, unsigned) := takeSign (Text.trim t)
  match dropUnderscores isScriptDigit unsigned with
  | none => .error (.malformed t)
  | some digits =>
      if digits.isEmpty || !digits.all isScriptDigit then .error (.malformed t)
      else if digitLimit < digits.length then .error (.tooLong digits.length)
      else
        let magnitude : Nat := StaticSite.ofDigits 10 (digits.filterMap scriptDigit?)
        .ok (if negative then -(magnitude : Int) else magnitude)

end Number

end StaticSite
