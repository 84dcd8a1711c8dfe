import StaticSite.Text.Digit

/-! # Shortest decimals

A finite binary number has many decimals that read back as it. `shortest` finds the fewest digits
that do, and among those the ones nearest to the number, the even one of two that are equally near, by
exact arithmetic on natural numbers: for each number of digits it tries the two neighbours of the
number on that decimal grid.
-/

namespace StaticSite

/-- The parts of a binary floating-point number. -/
inductive Binary
  | nan
  | infinite (negative : Bool)
  /-- The number `mantissa · 2 ^ exponent`. -/
  | finite (negative : Bool) (mantissa : Nat) (exponent : Int)
  deriving DecidableEq, Repr

namespace Binary

/-- Takes a 64-bit pattern apart. -/
def ofBits (bits : UInt64) : Binary :=
  let n := bits.toNat
  let negative := n / Nat.pow 2 63 == 1
  let exponent : Nat := n / Nat.pow 2 52 % 2048
  let fraction : Nat := n % Nat.pow 2 52
  if exponent = 2047 then
    if fraction = 0 then .infinite negative else .nan
  else if exponent = 0 then .finite negative fraction (-1074)
  else .finite negative (Nat.pow 2 52 + fraction) (exponent - 1075)

/-- The parts of a float. -/
def ofFloat (x : Float) : Binary := ofBits x.toBits

/-- The integer that a finite number is, if it is one. -/
def toInt? : Binary → Option Int
  | .finite negative mantissa exponent =>
      let magnitude : Option Nat :=
        if 0 ≤ exponent then some (mantissa * Nat.pow 2 exponent.toNat)
        else
          let scale := Nat.pow 2 (-exponent).toNat
          if mantissa % scale = 0 then some (mantissa / scale) else none
      magnitude.map fun m => if negative then -(m : Int) else m
  | _ => none

end Binary

/-- The decimal `digits · 10 ^ exponent`. -/
structure Decimal where
  digits : Nat
  exponent : Int
  deriving DecidableEq, Repr

/-- The reals that round to a binary number, as fractions over one denominator; the ends belong to
the interval when the mantissa is even. -/
structure Rounding where
  low : Nat
  value : Nat
  high : Nat
  denominator : Nat
  closed : Bool

namespace Rounding

/-- The interval of a positive binary number: half way to each neighbour, where the lower
neighbour of a power of two is only half as far. -/
def ofBinary (mantissa : Nat) (exponent : Int) : Rounding :=
  let up := Nat.pow 2 exponent.toNat
  let lowerGap := if mantissa = Nat.pow 2 52 ∧ -1074 < exponent then 1 else 2
  { low := (4 * mantissa - lowerGap) * up
    value := 4 * mantissa * up
    high := (4 * mantissa + 2) * up
    denominator := 4 * Nat.pow 2 (-exponent).toNat
    closed := mantissa % 2 == 0 }

/-- Numerator and denominator of a power of ten. -/
def power (exponent : Int) : Nat × Nat := (Nat.pow 10 exponent.toNat, Nat.pow 10 (-exponent).toNat)

/-- Whether a decimal rounds to the number. -/
def contains (r : Rounding) (d : Decimal) : Bool :=
  let (up, down) := power d.exponent
  let point := d.digits * up * r.denominator
  let low := r.low * down
  let high := r.high * down
  if r.closed then low ≤ point && point ≤ high else low < point && point < high

/-- The distance between a decimal and the number, for comparing decimals of one exponent. -/
def distance (r : Rounding) (d : Decimal) : Nat :=
  let (up, down) := power d.exponent
  let point := d.digits * up * r.denominator
  let value := r.value * down
  (point - value) + (value - point)

/-- Whether the lower of two neighbours on a grid is the better one: it is nearer, or as near and
its last digit is even. -/
def prefersBelow (r : Rounding) (below above : Decimal) : Bool :=
  if r.distance below = r.distance above then below.digits % 2 == 0
  else r.distance below < r.distance above

/-- The better of the number's two neighbours on the grid of a power of ten, if one of them
rounds to the number. -/
def onGrid (r : Rounding) (exponent : Int) : Option Decimal :=
  let (up, down) := power exponent
  let below : Decimal := ⟨r.value * down / (up * r.denominator), exponent⟩
  let above : Decimal := ⟨below.digits + 1, exponent⟩
  match below.digits != 0 && r.contains below, r.contains above with
  | true, true => if r.prefersBelow below above then some below else some above
  | true, false => some below
  | false, true => some above
  | false, false => none

/-- The exponent `e` with `10 ^ (e - 1) ≤ value < 10 ^ e`. -/
def magnitude (r : Rounding) : Int :=
  if r.denominator ≤ r.value then (Text.ofNat (r.value / r.denominator)).length
  else
    let inverse := (r.denominator + r.value - 1) / r.value
    1 - (Text.ofNat (inverse - 1)).length

/-- The fewest digits that round to the number. -/
def shortest (r : Rounding) : Decimal :=
  let top := r.magnitude
  ((List.range 18).findSome? fun (count : Nat) => r.onGrid (top - (count : Int))).getD ⟨0, 0⟩

end Rounding

namespace Decimal

/-- The shortest decimal that reads back as a binary number `mantissa · 2 ^ exponent`. -/
def shortest (mantissa : Nat) (exponent : Int) : Decimal :=
  if mantissa = 0 then ⟨0, 0⟩ else (Rounding.ofBinary mantissa exponent).shortest

end Decimal

end StaticSite
