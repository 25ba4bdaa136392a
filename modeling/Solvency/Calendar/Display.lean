import Solvency.Calendar.Basic
import Solvency.Text.Integer

/-!
Texts of days and time stamps. By itself a day is written with dashes, and a time stamp goes on with colons and, where
they are not zero, six digits of a fraction; an offset stands at the end. As a part of a list or map it is written as
the call that gives it.
-/

namespace Solvency

/-- The digits of a number, filled up with zeros to a width. -/
def digitsOfWidth (width n : Nat) : Text :=
  let ds := Text.digits n
  .ofChars (List.replicate (width - ds.length) '0' ++ ds)

/-- Numbers with commas between. -/
def commaSeparated (ns : List Nat) : Text := Text.intercalate ", " (ns.map fun (n : Nat) => Text.decimal n)

/-- The text of a length of time in minutes, as the call that gives it. -/
def minutesCall (minutes : Int) : Text :=
  let days := minutes.fdiv Timestamp.minutesOfDay
  let seconds := minutes.fmod Timestamp.minutesOfDay * 60
  let fields : List Text := (if days = 0 then [] else ["days=" ++ Text.decimal days])
    ++ (if seconds = 0 then [] else ["seconds=" ++ Text.decimal seconds])
  let arguments : Text := if fields.isEmpty then "0" else Text.intercalate ", " fields
  "datetime.timedelta(" ++ arguments ++ ")"

def CalendarError.message : CalendarError → Text
  | .year value => "year " ++ Text.decimal value ++ " is out of range"
  | .month => "month must be in 1..12"
  | .day => "day is out of range for month"
  | .hour => "hour must be in 0..23"
  | .minute => "minute must be in 0..59"
  | .second => "second must be in 0..59"
  | .offset minutes =>
    "offset must be a timedelta strictly between -timedelta(hours=24) and timedelta(hours=24), not "
      ++ minutesCall minutes ++ "."

namespace CalendarDate

/-- The text of a day by itself. -/
def display (d : CalendarDate) : Text :=
  digitsOfWidth 4 d.year ++ "-" ++ digitsOfWidth 2 d.month ++ "-" ++ digitsOfWidth 2 d.day

/-- The text of a day as a part. -/
def displayPart (d : CalendarDate) : Text :=
  "datetime.date(" ++ commaSeparated [d.year, d.month, d.day] ++ ")"

end CalendarDate

namespace Timestamp

/-- The text of an offset: a sign, hours and minutes. -/
def displayOffset (minutes : Int) : Text :=
  (if minutes < 0 then "-" else "+") ++ digitsOfWidth 2 (minutes.natAbs / 60) ++ ":"
    ++ digitsOfWidth 2 (minutes.natAbs % 60)

/-- The text of a time stamp by itself. -/
def display (t : Timestamp) : Text :=
  let fraction : Text := if t.microsecond = 0 then [] else "." ++ digitsOfWidth 6 t.microsecond
  t.date.display ++ " " ++ digitsOfWidth 2 t.hour ++ ":" ++ digitsOfWidth 2 t.minute ++ ":"
    ++ digitsOfWidth 2 t.second ++ fraction ++ (t.offset.map displayOffset).getD []

/-- The text of a clock ahead of universal time, as a part. -/
def offsetPart (minutes : Int) : Text :=
  if minutes = 0 then "datetime.timezone.utc" else "datetime.timezone(" ++ minutesCall minutes ++ ")"

/-- The text of a time stamp as a part; a fraction and seconds are left out where they are zero. -/
def displayPart (t : Timestamp) : Text :=
  let seconds := if t.microsecond = 0 then if t.second = 0 then [] else [t.second] else [t.second, t.microsecond]
  "datetime.datetime(" ++ commaSeparated ([t.date.year, t.date.month, t.date.day, t.hour, t.minute] ++ seconds)
    ++ (match t.offset with | some minutes => ", tzinfo=" ++ offsetPart minutes | none => "") ++ ")"

end Timestamp

end Solvency
