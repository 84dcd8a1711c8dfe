import StaticSite.Text.Digit

/-! # Dates and times

Settings may hold calendar values: a date, a time of day, or both with an optional offset from
universal time.
-/

namespace StaticSite

/-- A day of the calendar. -/
structure Date where
  year : Nat
  month : Nat
  day : Nat
  deriving DecidableEq, Repr

/-- A time of day. -/
structure Clock where
  hour : Nat
  minute : Nat
  second : Nat
  microsecond : Nat
  deriving DecidableEq, Repr

/-- A calendar value; an offset is given in minutes. -/
inductive Moment
  | date (day : Date)
  | time (clock : Clock)
  | full (day : Date) (clock : Clock) (offset : Option Int)
  deriving DecidableEq, Repr

/-- The number of days of a month. -/
def daysIn (year month : Nat) : Nat :=
  if month = 2 then
    if year % 4 = 0 ∧ (year % 100 ≠ 0 ∨ year % 400 = 0) then 29 else 28
  else if month = 4 ∨ month = 6 ∨ month = 9 ∨ month = 11 then 30
  else 31

/-- Whether a date stands in the calendar, whose years start at one. -/
def Date.Valid (d : Date) : Prop :=
  1 ≤ d.year ∧ 1 ≤ d.month ∧ d.month ≤ 12 ∧ 1 ≤ d.day ∧ d.day ≤ daysIn d.year d.month

instance (d : Date) : Decidable d.Valid := by unfold Date.Valid; infer_instance

/-- Decimal digits filled with zeros up to a width. -/
def paddedNat (width n : Nat) : Text :=
  let digits := Text.ofNat n
  List.replicate (width - digits.length) '0' ++ digits

/-- Writes a date as year, month and day. -/
def Date.text (d : Date) : Text :=
  paddedNat 4 d.year ++ "-" ++ paddedNat 2 d.month ++ "-" ++ paddedNat 2 d.day

/-- Writes a time of day, with six digits of a second where it has a fraction. -/
def Clock.text (c : Clock) : Text :=
  paddedNat 2 c.hour ++ ":" ++ paddedNat 2 c.minute ++ ":" ++ paddedNat 2 c.second ++
    (if c.microsecond = 0 then [] else '.' :: paddedNat 6 c.microsecond)

/-- Writes an offset as a sign, hours and minutes. -/
def offsetText (minutes : Int) : Text :=
  (if minutes < 0 then '-' else '+') :: paddedNat 2 (minutes.natAbs / 60) ++ ":" ++
    paddedNat 2 (minutes.natAbs % 60)

/-- The plain form of a calendar value. -/
def Moment.text : Moment → Text
  | .date day => day.text
  | .time clock => clock.text
  | .full day clock offset =>
      day.text ++ " " ++ clock.text ++ (match offset with
        | some minutes => offsetText minutes
        | none => [])

/-- The name of the type of a calendar value. -/
def Moment.shortTypeName : Moment → String
  | .date _ => "date"
  | .time _ => "time"
  | .full .. => "datetime"

/-- The full name of the type of a calendar value. -/
def Moment.typeName (m : Moment) : String := "datetime." ++ m.shortTypeName

/-- The numbers of a time of day, without a fraction and a second that are zero at the end. -/
def Clock.parts (c : Clock) : List Nat :=
  if c.microsecond ≠ 0 then [c.hour, c.minute, c.second, c.microsecond]
  else if c.second ≠ 0 then [c.hour, c.minute, c.second]
  else [c.hour, c.minute]

/-- The constructor form of an offset: days and seconds, the seconds never negative. -/
def zoneText (minutes : Int) : Text :=
  if minutes = 0 then "datetime.timezone.utc"
  else
    let days := minutes.fdiv 1440
    let seconds := (minutes.fmod 1440) * 60
    let span : Text :=
      if days = 0 then "seconds=" ++ Text.ofInt seconds
      else if seconds = 0 then "days=" ++ Text.ofInt days
      else "days=" ++ Text.ofInt days ++ ", seconds=" ++ Text.ofInt seconds
    "datetime.timezone(datetime.timedelta(" ++ span ++ "))"

/-- The constructor form of a calendar value, as it stands in lists and messages. -/
def Moment.quoted (m : Moment) : Text :=
  let numbers : List Text → Text := Text.joinWith ", "
  let dateParts (d : Date) : List Text := [Text.ofNat d.year, Text.ofNat d.month, Text.ofNat d.day]
  m.typeName ++ "(" ++ (match m with
    | .date day => numbers (dateParts day)
    | .time clock => numbers (clock.parts.map Text.ofNat)
    | .full day clock offset =>
        numbers (dateParts day ++ clock.parts.map Text.ofNat) ++ (match offset with
          | some minutes => ", tzinfo=" ++ zoneText minutes
          | none => [])) ++ ")"

end StaticSite
