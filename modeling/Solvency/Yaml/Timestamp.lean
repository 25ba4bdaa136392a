import Solvency.Document.Basic
import Solvency.Text.Base

/-!
Days and time stamps as plain texts. A day is a year of four digits, a month and a day of two, with dashes between. A
time stamp may have months, days and hours of one digit, has a `T` or blanks in front of its time, and may end with a
fraction of a second and with `Z` or an offset from universal time.
-/

namespace Solvency.Yaml

/-- A number of at least `least` and at most `most` digits, and what is behind it. -/
def digits? (least most : Nat) (cs : List Char) : Option (Nat × List Char) :=
  let ds := (cs.take most).takeWhile Char.isDigit
  if ds.length < least then none else some (Text.ofBase 10 ds, cs.drop ds.length)

def behind? (char : Char) : List Char → Option (List Char)
  | c :: rest => if c = char then some rest else none
  | [] => none

/-- The microseconds of a fraction of which the first six digits count, and what is behind it. -/
def fraction (cs : List Char) : Nat × List Char :=
  match cs with
  | '.' :: rest =>
    let ds := (rest.takeWhile Char.isDigit).take 6
    (Text.ofBase 10 (ds ++ List.replicate (6 - ds.length) '0'), rest.dropWhile Char.isDigit)
  | _ => (0, cs)

/-- The time behind a day: what is behind a `T` or blanks. -/
def timePart? (cs : List Char) : Option (List Char) :=
  match cs with
  | 'T' :: rest => some rest
  | 't' :: rest => some rest
  | c :: _ => if c = ' ' ∨ c = '\t' then some (cs.dropWhile fun c => c = ' ' || c = '\t') else none
  | [] => none

/-- The minutes of an offset at the end of a time stamp, if it has one. -/
def offset? (cs : List Char) : Option (Option Int) :=
  match cs with
  | [] => some none
  | _ =>
    match cs.dropWhile fun c => c = ' ' || c = '\t' with
    | ['Z'] => some (some 0)
    | sign :: rest =>
      if sign = '+' ∨ sign = '-' then do
        let (hours, rest) ← digits? 1 2 rest
        let minutes ← match rest with
          | [] => some 0
          | ':' :: rest => do
            let (minutes, rest) ← digits? 2 2 rest
            if rest.isEmpty then some minutes else none
          | _ => none
        let total : Int := hours * 60 + minutes
        some (some (if sign = '-' then -total else total))
      else none
    | [] => none

/-- The day that a text has the form of. -/
def date? (cs : List Char) : Option (Except CalendarError CalendarDate) := do
  let (year, cs) ← digits? 4 4 cs
  let (month, cs) ← digits? 2 2 (← behind? '-' cs)
  let (day, cs) ← digits? 2 2 (← behind? '-' cs)
  if cs.isEmpty then some (CalendarDate.ofNumbers year month day) else none

/-- The time stamp that a text has the form of. -/
def timestamp? (cs : List Char) : Option (Except CalendarError Timestamp) := do
  let (year, cs) ← digits? 4 4 cs
  let (month, cs) ← digits? 1 2 (← behind? '-' cs)
  let (day, cs) ← digits? 1 2 (← behind? '-' cs)
  let (hour, cs) ← digits? 1 2 (← timePart? cs)
  let (minute, cs) ← digits? 2 2 (← behind? ':' cs)
  let (second, cs) ← digits? 2 2 (← behind? ':' cs)
  let (microsecond, cs) := fraction cs
  let offset ← offset? cs
  some (Timestamp.ofNumbers year month day hour minute second microsecond offset)

/-- The day or time stamp that a text has the form of. -/
def calendar? (cs : List Char) : Option (Except CalendarError Scalar) :=
  match date? cs with
  | some found => some (found.map .date)
  | none => (timestamp? cs).map fun found => found.map .timestamp

end Solvency.Yaml
