/-!
Days of the calendar and times of day. Years run from 1 to 9999 by the Gregorian rule. A time stamp may say how far its
clock is ahead of universal time; two that say so are the same moment if they agree once that is taken off.
-/

namespace Solvency

/-- Why numbers name no day or no time of day. -/
inductive CalendarError where
  | year (value : Nat)
  | month
  | day
  | hour
  | minute
  | second
  /-- A clock a whole day or more ahead or behind, in minutes. -/
  | offset (minutes : Int)
  deriving DecidableEq, Repr

/-- A year with a day more than others. -/
def isLeapYear (year : Nat) : Bool := year % 4 = 0 && (year % 100 ≠ 0 || year % 400 = 0)

def daysInMonth (year month : Nat) : Nat :=
  if month = 2 then if isLeapYear year then 29 else 28
  else if month = 4 ∨ month = 6 ∨ month = 9 ∨ month = 11 then 30
  else 31

/-- A day. -/
structure CalendarDate where
  year : Nat
  month : Nat
  day : Nat
  deriving DecidableEq, Repr

namespace CalendarDate

def ofNumbers (year month day : Nat) : Except CalendarError CalendarDate :=
  if year = 0 ∨ 9999 < year then .error (.year year)
  else if month = 0 ∨ 12 < month then .error .month
  else if day = 0 ∨ daysInMonth year month < day then .error .day
  else .ok ⟨year, month, day⟩

def daysBeforeYear (year : Nat) : Nat :=
  let past := year - 1
  past * 365 + past / 4 - past / 100 + past / 400

/-- The days before a month in its year. -/
def daysBeforeMonth (year : Nat) : Nat → Nat
  | 0 => 0
  | 1 => 0
  | month + 1 => daysBeforeMonth year month + daysInMonth year month

/-- The number of the day, counted from the first day of the first year. -/
def number (d : CalendarDate) : Nat := daysBeforeYear d.year + daysBeforeMonth d.year d.month + d.day

end CalendarDate

/-- A time of a day, with the minutes by which its clock is ahead of universal time if they are known. -/
structure Timestamp where
  date : CalendarDate
  hour : Nat
  minute : Nat
  second : Nat
  microsecond : Nat
  offset : Option Int
  deriving DecidableEq, Repr

namespace Timestamp

def minutesOfDay : Int := 1440

/-- An offset of less than a day. -/
def checkOffset (minutes : Int) : Except CalendarError Unit :=
  if minutes ≤ -minutesOfDay ∨ minutesOfDay ≤ minutes then .error (.offset minutes) else .ok ()

/-- The time stamp that numbers name; the offset is judged first, then the day. -/
def ofNumbers (year month day hour minute second microsecond : Nat) (offset : Option Int) :
    Except CalendarError Timestamp := do
  if let some minutes := offset then checkOffset minutes
  let date ← CalendarDate.ofNumbers year month day
  if 23 < hour then throw .hour
  if 59 < minute then throw .minute
  if 59 < second then throw .second
  return { date, hour, minute, second, microsecond, offset }

/-- The microseconds up to the moment by its own clock. -/
def clock (t : Timestamp) : Int :=
  (((t.date.number * 24 + t.hour) * 60 + t.minute) * 60 + t.second) * 1000000 + t.microsecond

/-- Whether two time stamps are the same moment; one with an offset is never the same as one without. -/
def sameMoment (a b : Timestamp) : Bool :=
  match a.offset, b.offset with
  | none, none => a = b
  | some m, some n => a.clock - m * 60000000 = b.clock - n * 60000000
  | _, _ => false

end Timestamp

end Solvency
