import StaticSite.Check.Issue
import StaticSite.Number.Numeral

/-! # Checks of single values

What counts as a text, a truth value or a number. Truth values and numbers may be written as text.
-/

namespace StaticSite

/-- A number as data gives it: an integer or a float. -/
inductive Quantity
  | int (n : Int)
  | float (x : Float)
  deriving Inhabited, Repr

namespace Quantity

/-- A number as raw data. -/
def toValue : Quantity → Value
  | .int n => .int n
  | .float x => .float x

/-- A number in style text. -/
def styleText : Quantity → Text
  | .int n => Text.ofInt n
  | .float x => Number.plainFloat x

end Quantity

/-- A text or a number. -/
inductive Scalar
  | text (s : String)
  | number (q : Quantity)
  deriving Inhabited, Repr

namespace Scalar

/-- A text or a number as raw data. -/
def toValue : Scalar → Value
  | .text s => .text s
  | .number q => q.toValue

/-- A text or a number in style text. -/
def styleText : Scalar → Text
  | .text s => s
  | .number q => q.styleText

end Scalar

/-- A style value is written the same way as the raw value it came from. -/
theorem Scalar.styleText_toValue (s : Scalar) : s.toValue.styleText = s.styleText := by
  cases s with
  | text s => rfl
  | number q => cases q <;> rfl

namespace Check

/-- Checks a text. -/
def text : Value → Checked String
  | .text s => .valid s
  | _ => .issue .stringType

/-- The words for truth. -/
def trueWords : List Text := ["1", "on", "t", "true", "y", "yes"]

/-- The words for falsehood. -/
def falseWords : List Text := ["0", "off", "f", "false", "n", "no"]

/-- Checks a truth value: also zero and one, and words in any case. -/
def bool : Value → Checked Bool
  | .bool b => .valid b
  | .int n => if n = 0 then .valid false else if n = 1 then .valid true else .issue .boolParsing
  | .float x =>
      match (Binary.ofFloat x).toInt? with
      | some n =>
          if n = 0 then .valid false else if n = 1 then .valid true else .issue .boolParsing
      | none => .issue .boolType
  | .text s =>
      let word := Text.lower s
      if trueWords.elem word then .valid true
      else if falseWords.elem word then .valid false
      else .issue .boolParsing
  | _ => .issue .boolType

/-- Removes underscores, where they stand inside the text and never side by side. -/
def withoutUnderscores (t : Text) : Text :=
  if t.head? = some '_' ∨ t.getLast? = some '_' ∨ Text.contains "__" t then t
  else t.filter (· != '_')

/-- White space around a number: the separators of information are not part of it. -/
def isPadding (c : Char) : Bool := isBlank c && !(28 ≤ c.toNat && c.toNat ≤ 31)

/-- Reads a float: a sign and a decimal numeral, or a word for what is not finite. -/
def signedFloat? (t : Text) : Option Float :=
  let (negative, unsigned) := Number.takeSign t
  ((Number.decimal? unsigned).orElse fun _ => Number.special? unsigned).map
    (Number.signed negative)

/-- Reads a float written as text. -/
def floatOfText? (t : Text) : Option Float :=
  (signedFloat? (Text.trimBy isPadding t)).orElse fun _ => signedFloat? (withoutUnderscores t)

/-- Checks a float. -/
def float : Value → Checked Float
  | .float x => .valid x
  | .int n =>
      let x := Number.ofInt n
      if x.isInf then .issue .floatType else .valid x
  | .bool b => .valid (if b then 1.0 else 0.0)
  | .text s =>
      match floatOfText? s with
      | some x => .valid x
      | none => .issue .floatParsing
  | _ => .issue .floatType

/-- Removes the zeros that a numeral starts with, one of which stays where no other digit or a
point follows. Among these zeros underscores may stand. -/
def withoutLeadingZeros (t : Text) : Option Text :=
  match t with
  | '0' :: _ =>
      let zeros := t.takeWhile fun c => c == '0' || c == '_'
      match t.drop zeros.length with
      | [] => some (t.drop (t.length - 1))
      | '.' :: _ => some (t.drop (zeros.length - 1))
      | c :: rest => if isDigit c then some (c :: rest) else none
  | c :: _ => if isDigit c || c == '-' then some t else none
  | [] => none

/-- Removes a fraction of nothing but zeros. -/
def withoutZeroFraction (t : Text) : Text :=
  let whole := t.takeWhile (· != '.')
  let fraction := t.drop (whole.length + 1)
  if !fraction.isEmpty && fraction.all (· == '0') then whole else t

/-- Reads an integer without anything around it: an optional minus sign, and digits that do not
start with a needless zero. -/
def plainInt? (t : Text) : Option Int :=
  let (negative, digits) := match t with
    | '-' :: rest => (true, rest)
    | t => (false, t)
  if digits.isEmpty || !digits.all isDigit || (digits.head? = some '0' && digits.length ≠ 1) then
    none
  else
    let n : Int := Text.decimal digits
    some (if negative then -n else n)

/-- Reads an integer written as text. -/
def intOfText? (t : Text) : Option Int :=
  (plainInt? t).orElse fun _ =>
    let trimmed := Text.trimBy isPadding t
    let unsigned := match trimmed with
      | '+' :: rest => if rest.head? = some '-' then none else some rest
      | t => some t
    unsigned.bind fun u => (withoutLeadingZeros u).bind fun z =>
      plainInt? (withoutUnderscores (withoutZeroFraction z))

/-- Both of the issues that a value has as an integer and as a float. -/
def numberIssues {α : Type} (int float : IssueKind) : Checked α :=
  .invalid [⟨int, [.key "int"]⟩, ⟨float, [.key "float"]⟩]

/-- Checks a number: integers stay integers. -/
def quantity : Value → Checked Quantity
  | .int n => .valid (.int n)
  | .float x => .valid (.float x)
  | .bool b => .valid (.int (if b then 1 else 0))
  | .text s =>
      match intOfText? s, floatOfText? s with
      | some n, _ => .valid (.int n)
      | none, some x => .valid (.float x)
      | none, none => numberIssues .intParsing .floatParsing
  | _ => numberIssues .intType .floatType

/-- Checks a text or a number. -/
def scalar : Value → Checked Scalar
  | .text s => .valid (.text s)
  | .int n => .valid (.number (.int n))
  | .float x => .valid (.number (.float x))
  | .bool b => .valid (.number (.int (if b then 1 else 0)))
  | _ => .invalid [⟨.stringType, [.key "str"]⟩, ⟨.intType, [.key "int"]⟩,
      ⟨.floatType, [.key "float"]⟩]

/-- Checks a word of a fixed list. -/
def oneOf (words : List String) : Value → Checked String
  | .text s => if words.elem s then .valid s else .issue .literal
  | _ => .issue .literal

end Check

end StaticSite
