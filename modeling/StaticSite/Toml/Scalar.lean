import StaticSite.Number.Numeral
import StaticSite.Toml.Reader
import StaticSite.Value.Basic

/-! # Texts, keys, numbers and dates of TOML

The values without members, and the keys, whose parts are bare words or texts of one line.
-/

namespace StaticSite.Toml

open Reader

/-! Texts. -/

/-- What a basic text of several lines refuses. -/
def isControlInLines (c : Char) : Bool := isControl c && c != '\n'

/-- The character that an escape of one letter stands for. -/
def simpleEscape? : Char → Option Char
  | 'b' => some (Char.ofNat 8)
  | 't' => some '\t'
  | 'n' => some '\n'
  | 'f' => some (Char.ofNat 12)
  | 'r' => some '\r'
  | '"' => some '"'
  | '\\' => some '\\'
  | _ => none

/-- Takes a character that is written as a number of hexadecimal digits. -/
def hexChar (width : Nat) : Reader Char := fun left =>
  let digits := left.take width
  if digits.length < width ∨ !digits.all isHexDigit then .error ⟨.badHex, left.length⟩
  else
    let n := Text.hexadecimal digits
    let after := left.drop width
    if n.isValidChar then .ok (Char.ofNat n, after) else .error ⟨.notScalar, after.length⟩

/-- Takes what follows a backslash at the end of a line: the gap up to the next word. -/
def lineContinuation : Reader (Option Char) := do
  skipSpace
  match ← peek with
  | none => pure none
  | some '\n' => do
      skipWhile isGap
      pure none
  | some _ => fail .badEscape

/-- Takes what follows a backslash: a character, or nothing at the end of a line. -/
def escape (lines : Bool) : Reader (Option Char) := do
  match ← peek with
  | none => fail .badEscape
  | some c =>
      if lines && isGap c then lineContinuation
      else do
        skip 1
        match c with
        | 'u' => some <$> hexChar 4
        | 'U' => some <$> hexChar 8
        | c =>
            match simpleEscape? c with
            | some d => pure (some d)
            | none => fail .badEscape

/-- Takes the rest of a basic text and its end; `seen` holds the characters so far, last one
first. At most a given number of steps is taken. -/
def basicRest (lines : Bool) (seen : Text) : Nat → Reader Text
  | 0 => fail .unterminatedString
  | n + 1 => do
      match ← peek with
      | none => fail .unterminatedString
      | some '"' =>
          if !lines then
            skip 1
            pure seen.reverse
          else if ← sees "\"\"\"" then
            skip 3
            pure seen.reverse
          else
            skip 1
            basicRest lines ('"' :: seen) n
      | some '\\' =>
          skip 1
          let c ← escape lines
          basicRest lines (c.toList ++ seen) n
      | some c =>
          if (if lines then isControlInLines c else isControl c) then fail (.illegalCharacter c)
          else
            skip 1
            basicRest lines (c :: seen) n

/-- Takes the rest of a basic text and its end. -/
def basicText (lines : Bool) : Reader Text := fun left => basicRest lines [] (left.length + 1) left

/-- Takes up to two quotes that stand right behind a text of several lines and belong to it. -/
def extraQuotes (quote : Char) : Reader Text := fun left =>
  let extra := (left.take 2).takeWhile (· == quote)
  .ok (extra, left.drop extra.length)

/-- Takes the rest of a text of several lines, whose first line end does not count. -/
def linesText (quote : Char) : Reader Text := do
  if ← sees ['\n'] then skip 1
  let content ← if quote = '\'' then takeUntil "'''" isControlInLines else basicText true
  pure (content ++ (← extraQuotes quote))

/-- Takes a literal text of one line after its quote. -/
def literalText : Reader Text := takeUntil ['\''] isControl

/-- Takes a text if there is one. -/
def text? : Reader (Option Text) := do
  if ← sees "\"\"\"" then
    skip 3
    some <$> linesText '"'
  else if ← sees "'''" then
    skip 3
    some <$> linesText '\''
  else if ← sees ['"'] then
    skip 1
    some <$> basicText false
  else if ← sees ['\''] then
    skip 1
    some <$> literalText
  else pure none

/-! Keys. -/

/-- The characters of a bare part of a key. -/
def isBare (c : Char) : Bool := isLetterOrDigit c || c == '-' || c == '_'

/-- Takes a bare word. -/
def bareWord : Reader Text := fun left => .ok (left.takeWhile isBare, left.dropWhile isBare)

/-- Takes a part of a key. -/
def keyPart : Reader String := do
  match ← peek with
  | some '\'' =>
      skip 1
      String.ofList <$> literalText
  | some '"' =>
      skip 1
      String.ofList <$> basicText false
  | some c => if isBare c then String.ofList <$> bareWord else fail .keyExpected
  | none => fail .keyExpected

/-- Takes the parts of a key that follow after points, at most a given number. -/
def keyRest : Nat → Reader Key
  | 0 => pure []
  | n + 1 => do
      skipSpace
      if ← sees ['.'] then
        skip 1
        skipSpace
        let part ← keyPart
        pure (part :: (← keyRest n))
      else pure []

/-- Takes a key and the space behind it. -/
def key : Reader Key := do
  let first ← keyPart
  let others ← fun left => keyRest (left.length + 1) left
  pure (first :: others)

/-! Numbers. -/

/-- How many characters continue a run of digits; a single underscore may stand between digits. -/
def runRest (isDigit : Char → Bool) : Text → Nat
  | '_' :: c :: rest => if isDigit c then runRest isDigit rest + 2 else 0
  | c :: rest => if isDigit c then runRest isDigit rest + 1 else 0
  | [] => 0

/-- The run of digits that a text starts with. -/
def digitRun (isDigit : Char → Bool) : Text → Text
  | c :: rest => if isDigit c then c :: rest.take (runRest isDigit rest) else []
  | [] => []

/-- The letters of the bases that whole numbers can be written in. -/
def bases : List (Char × Nat) := [('x', 16), ('b', 2), ('o', 8)]

/-- Whether a character is a digit of a base. -/
def isDigitOf (base : Nat) (c : Char) : Bool := (hexDigit? c).any (· < base)

/-- A whole number in one of the bases, and how many characters it takes. -/
def basedNumber? : Text → Option (Value × Nat)
  | '0' :: letter :: rest => do
      let base ← bases.lookup letter
      let run := digitRun (isDigitOf base) rest
      if run.isEmpty then none
      else some (.int (StaticSite.ofDigits base (run.filterMap hexDigit?)), run.length + 2)
  | _ => none

/-- The fraction that a text starts with, its point among the characters. -/
def fraction : Text → Text
  | '.' :: rest =>
      let run := digitRun isDigit rest
      if run.isEmpty then [] else '.' :: run
  | _ => []

/-- The sign that a text starts with. -/
def sign : Text → Text
  | '+' :: _ => ['+']
  | '-' :: _ => ['-']
  | _ => []

/-- The exponent that a text starts with. -/
def exponent : Text → Text
  | c :: rest =>
      if c = 'e' ∨ c = 'E' then
        let run := digitRun isDigit (rest.drop (sign rest).length)
        if run.isEmpty then [] else c :: sign rest ++ run
      else []
  | [] => []

/-- The whole part that a text starts with: a zero, or a run of digits that starts with another
one. -/
def wholePart : Text → Text
  | '0' :: _ => ['0']
  | t => digitRun isDigit t

/-- A decimal number, and how many characters it takes. -/
def decimalNumber? (t : Text) : Option (Value × Nat) :=
  let start := sign t
  let whole := wholePart (t.drop start.length)
  if whole.isEmpty then none
  else
    let rest := t.drop (start.length + whole.length)
    let part := fraction rest
    let power := exponent (rest.drop part.length)
    let length := start.length + whole.length + part.length + power.length
    let plain := (whole ++ part ++ power).filter (· != '_')
    let negative := start = ['-']
    if part.isEmpty && power.isEmpty then
      let n : Int := Text.decimal plain
      some (.int (if negative then -n else n), length)
    else (Number.decimal? plain).map fun x => (.float (Number.signed negative x), length)

/-- The words for numbers that are not finite, and for truth values. -/
def words : List (Text × Value) :=
  [("inf", .float Number.infinity), ("+inf", .float Number.infinity),
    ("-inf", .float (-Number.infinity)), ("nan", .float Number.notANumber),
    ("+nan", .float Number.notANumber), ("-nan", .float Number.notANumber)]

/-- The words for truth values. -/
def truthWords : List (Text × Value) := [("true", .bool true), ("false", .bool false)]

/-- A word of a list that a text starts with, and how many characters it takes. -/
def word? (list : List (Text × Value)) (t : Text) : Option (Value × Nat) :=
  (list.find? fun (word, _) => word.isPrefixOf t).map fun (word, v) => (v, word.length)

/-! Dates and times. -/

/-- A number of a fixed width of digits within bounds, and the rest. -/
def fixed? (width low high : Nat) (t : Text) : Option (Nat × Text) :=
  let digits := t.take width
  let n := Text.decimal digits
  if digits.length = width ∧ digits.all isDigit ∧ low ≤ n ∧ n ≤ high then some (n, t.drop width)
  else none

/-- The text after a character. -/
def after? (c : Char) : Text → Option Text
  | d :: rest => if d = c then some rest else none
  | [] => none

/-- A date, whose day need not be one of its month, and the rest. -/
def date? (t : Text) : Option (Date × Text) := do
  let (year, t) ← fixed? 4 0 9999 t
  let (month, t) ← fixed? 2 1 12 (← after? '-' t)
  let (day, t) ← fixed? 2 1 31 (← after? '-' t)
  pure (⟨year, month, day⟩, t)

/-- The fraction of a second in microseconds, and the rest; further digits are dropped. -/
def microseconds (t : Text) : Nat × Text :=
  match t with
  | '.' :: rest =>
      let digits := rest.takeWhile isDigit
      if digits.isEmpty then (0, t)
      else
        let kept := digits.take 6
        (Text.decimal kept * Nat.pow 10 (6 - kept.length), rest.drop digits.length)
  | _ => (0, t)

/-- A time of day, and the rest. -/
def clock? (t : Text) : Option (Clock × Text) := do
  let (hour, t) ← fixed? 2 0 23 t
  let (minute, t) ← fixed? 2 0 59 (← after? ':' t)
  let (second, t) ← fixed? 2 0 59 (← after? ':' t)
  let (micro, t) := microseconds t
  pure (⟨hour, minute, second, micro⟩, t)

/-- The offset of a time from universal time in minutes, and the rest. -/
def offset (t : Text) : Option Int × Text :=
  match t with
  | c :: rest =>
      if c = 'Z' ∨ c = 'z' then (some 0, rest)
      else if c = '+' ∨ c = '-' then
        let read : Option (Int × Text) := do
          let (hours, rest) ← fixed? 2 0 23 rest
          let (minutes, rest) ← fixed? 2 0 59 (← after? ':' rest)
          pure (hours * 60 + minutes, rest)
        match read with
        | some (minutes, rest) => (some (if c = '-' then -minutes else minutes), rest)
        | none => (none, t)
      else (none, t)
  | [] => (none, t)

/-- A time of day behind a date, and the rest. -/
def clockBehindDate? : Text → Option (Clock × Text)
  | c :: rest => if c = 'T' ∨ c = 't' ∨ c = ' ' then clock? rest else none
  | [] => none

/-- A date, a time of day or both; the date need not stand in the calendar. -/
def moment? (t : Text) : Option (Moment × Text) :=
  match date? t with
  | some (date, rest) =>
      match clockBehindDate? rest with
      | some (clock, rest) =>
          let (minutes, rest) := offset rest
          some (.full date clock minutes, rest)
      | none => some (.date date, rest)
  | none => (clock? t).map fun (clock, rest) => (.time clock, rest)

/-- Whether the date of a calendar value stands in the calendar. -/
def inCalendar : Moment → Bool
  | .date d | .full d _ _ => decide d.Valid
  | .time _ => true

/-- Takes a number, a truth value or a calendar value. -/
def plainValue : Reader Value := fun left =>
  match word? truthWords left with
  | some (v, length) => .ok (v, left.drop length)
  | none =>
      match moment? left with
      | some (m, rest) =>
          if inCalendar m then .ok (.moment m, rest) else .error ⟨.badMoment, left.length⟩
      | none =>
          match (basedNumber? left).orElse fun _ =>
              (decimalNumber? left).orElse fun _ => word? words left with
          | some (v, length) => .ok (v, left.drop length)
          | none => .error ⟨.valueExpected, left.length⟩

end StaticSite.Toml
