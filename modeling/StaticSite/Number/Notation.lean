import StaticSite.Number.Shortest

/-! # Number text

How numbers are written. A float has the fewest digits that read back as it, in positional notation
from `10 ^ -4` up to `10 ^ 16` and with an exponent of at least two digits elsewhere. In generated
style text an integral float is written as the integer it is.
-/

namespace StaticSite.Number

/-- Writes digits in positional notation, with a point and at least one digit on each side. -/
def positional (digits : Text) (point : Int) : Text :=
  if point ≤ 0 then "0." ++ List.replicate (-point).toNat '0' ++ digits
  else
    let whole := digits.take point.toNat
    let rest := digits.drop point.toNat
    whole ++ List.replicate (point.toNat - digits.length) '0' ++ "." ++
      (if rest.isEmpty then ['0'] else rest)

/-- Writes an exponent with a sign and at least two digits. -/
def exponentText (exponent : Int) : Text :=
  let digits := Text.ofNat exponent.natAbs
  let sign := if exponent < 0 then '-' else '+'
  sign :: List.replicate (2 - digits.length) '0' ++ digits

/-- Writes digits with one digit before the point and an exponent. -/
def scientific (digits : Text) (exponent : Int) : Text :=
  let mantissa := match digits with
    | d :: [] => [d]
    | d :: rest => d :: '.' :: rest
    | [] => []
  mantissa ++ "e" ++ exponentText exponent

/-- Writes a decimal: positional notation for exponents from -4 up to 15. -/
def ofDecimal (d : Decimal) : Text :=
  if d.digits = 0 then "0.0"
  else
    let digits := Text.ofNat d.digits
    let exponent := d.exponent + digits.length - 1
    if -4 ≤ exponent ∧ exponent < 16 then positional digits (exponent + 1)
    else scientific digits exponent

/-- Writes a binary number. -/
def ofBinary : Binary → Text
  | .nan => "nan"
  | .infinite negative => if negative then "-inf" else "inf"
  | .finite negative mantissa exponent =>
      (if negative then "-" else "") ++ ofDecimal (Decimal.shortest mantissa exponent)

/-- Writes a float. -/
def ofFloat (x : Float) : Text := ofBinary (Binary.ofFloat x)

/-- Writes a float in style text: an integral one without a point. -/
def plainFloat (x : Float) : Text :=
  match (Binary.ofFloat x).toInt? with
  | some n => Text.ofInt n
  | none => ofFloat x

end StaticSite.Number
