import Solvency.Binary64.Arithmetic
import Solvency.Binary64.Decimal
import Solvency.Yaml.Fault
import Solvency.Yaml.Timestamp

/-!
Scalars that plain texts stand for: null, truth values, integers to the bases 2, 8, 10, 16 and 60, numbers with a
point, days and time stamps. Underscores between digits do not count. Any other plain text is a text. A text may have
the form of a value and stand for none, such as a day that no month has.
-/

namespace Solvency.Yaml

def nulls : List String := ["", "~", "null", "Null", "NULL"]

/-- The spellings of truth. -/
def trues : List String := ["yes", "Yes", "YES", "true", "True", "TRUE", "on", "On", "ON"]

def falses : List String := ["no", "No", "NO", "false", "False", "FALSE", "off", "Off", "OFF"]

def splitSign : List Char → Bool × List Char
  | '-' :: rest => (true, rest)
  | '+' :: rest => (false, rest)
  | rest => (false, rest)

/-- An ASCII digit or an underscore. -/
def isDigitOrMark (c : Char) : Bool := c.isDigit || c = '_'

def withoutMarks (cs : List Char) : List Char := cs.filter (· ≠ '_')

/-- Parts between colons. -/
def splitColons (cs : List Char) : List (List Char) := cs.splitOn ':'

/-- A part behind a colon: one digit, or two of which the first is below six. -/
def isSixtieth : List Char → Bool
  | [c] => c.isDigit
  | [c, d] => '0' ≤ c && c ≤ '5' && d.isDigit
  | _ => false

/-! ### Integers -/

/-- The integer of digits to a base that is a power of two; there has to be one. -/
def ofDigits (base : Nat) (cs : List Char) : Except Fault Nat :=
  match withoutMarks cs with
  | [] => .error .noInteger
  | ds => .ok (Text.ofBase base ds)

/-- The integer of decimal digits; there may not be too many. -/
def ofDecimalDigits (cs : List Char) : Except Fault Nat :=
  let ds := withoutMarks cs
  if Text.digitLimit < ds.length then .error .noInteger else .ok (Text.ofBase 10 ds)

/-- The integer of parts to the base of sixty. -/
def ofSixtieths (first : Nat) (sixtieths : List (List Char)) : Nat :=
  sixtieths.foldl (fun n part => n * 60 + Text.ofBase 10 part) first

/-- Decimal digits and underscores that start with a digit that is not zero. -/
def isCount : List Char → Bool
  | c :: rest => '1' ≤ c && c ≤ '9' && rest.all isDigitOrMark
  | [] => false

/-- The magnitude of an integer, for a text of its form. -/
def wholeNumber? (cs : List Char) : Option (Except Fault Nat) :=
  match cs with
  | ['0'] => some (.ok 0)
  | '0' :: 'b' :: rest =>
    if !rest.isEmpty && rest.all fun c => c = '0' || c = '1' || c = '_' then some (ofDigits 2 rest) else none
  | '0' :: 'x' :: rest =>
    if !rest.isEmpty && rest.all fun c => (Text.hexValue? c).isSome || c = '_' then some (ofDigits 16 rest) else none
  | '0' :: rest =>
    if rest.all fun c => ('0' ≤ c && c ≤ '7') || c = '_' then some (ofDigits 8 cs) else none
  | _ =>
    match splitColons cs with
    | [count] => if isCount count then some (ofDecimalDigits count) else none
    | count :: sixtieths =>
      if isCount count && sixtieths.all isSixtieth then
        some ((ofDecimalDigits count).map fun first => ofSixtieths first sixtieths)
      else none
    | [] => none

/-! ### Numbers with a point -/

/-- A power of ten, which has to have a sign; none counts as one of zero. -/
def power? : List Char → Option Int
  | [] => some 0
  | c :: sign :: rest =>
    if (c = 'e' || c = 'E') && (sign = '-' || sign = '+') && !rest.isEmpty && rest.all Char.isDigit then
      let n : Int := Text.ofBase 10 rest
      some (if sign = '-' then -n else n)
    else none
  | _ => none

/-- The value of digits before and behind a point, times a power of ten. -/
def pointed (negative : Bool) (whole fraction : List Char) (power : Int) : Binary64 :=
  let fraction := withoutMarks fraction
  .ofDecimal negative (Text.ofBase 10 (withoutMarks whole ++ fraction)) (power - fraction.length)

/-- The sum of parts to the base of sixty, the last part first: each is brought to its place and added, and every step
    rounds. -/
def sumPlaces (place : Nat) (sum : Binary64) : List Binary64 → Except Fault Binary64
  | [] => .ok sum
  | part :: rest =>
    match Binary64.ofInt place with
    | .infinite _ => .error .tooLarge
    | scale => sumPlaces (place * 60) (sum.add (part.mul scale)) rest

/-- The value of parts to the base of sixty, the last one with a fraction. -/
def pointedSixtieths (negative : Bool) (parts : List (List Char)) (fraction : List Char) : Except Fault Binary64 := do
  let values := match parts.reverse with
    | [] => []
    | last :: rest => pointed false last fraction 0 :: rest.map fun part => pointed false part [] 0
  let sum ← sumPlaces 1 (.zero false) values
  return if negative then sum.negate else sum

/-- The number of a text with the form of one with a point. -/
def pointedNumber? (signed negative : Bool) (cs : List Char) : Option (Except Fault Binary64) :=
  let whole := cs.takeWhile (· ≠ '.')
  match cs.dropWhile (· ≠ '.') with
  | '.' :: rest =>
    let fraction := rest.takeWhile isDigitOrMark
    let tail := rest.dropWhile isDigitOrMark
    match splitColons whole with
    | [[]] =>
      if rest ∈ ["inf".toList, "Inf".toList, "INF".toList] then some (.ok (.infinite negative))
      else if signed then none
      else if rest ∈ ["nan".toList, "NaN".toList, "NAN".toList] then some (.ok .nan)
      else if fraction.head?.any Char.isDigit then (power? tail).map fun power => .ok (pointed negative [] fraction power)
      else none
    | [count] =>
      if count.head?.any Char.isDigit && count.all isDigitOrMark then
        (power? tail).map fun power => .ok (pointed negative count fraction power)
      else none
    | count :: sixtieths =>
      if count.head?.any Char.isDigit && count.all isDigitOrMark && sixtieths.all isSixtieth && tail.isEmpty then
        some (pointedSixtieths negative (count :: sixtieths) fraction)
      else none
    | [] => none
  | _ => none

/-! ### Plain texts -/

/-- The number of a text with the form of one. -/
def number? (cs : List Char) : Option (Except Fault Scalar) :=
  let (negative, body) := splitSign cs
  match wholeNumber? body with
  | some found => some (found.map fun n => .integer (if negative then -(n : Int) else n))
  | none => (pointedNumber? (body.length < cs.length) negative body).map fun found => found.map .float

/-- The scalar that a plain text stands for. Two texts have a meaning as keys and stand for no value. -/
def plainScalar (text : String) : Except Fault Scalar :=
  if text ∈ nulls then .ok .null
  else if text ∈ trues then .ok (.bool true)
  else if text ∈ falses then .ok (.bool false)
  else if text = "=" ∨ text = "<<" then .error .malformed
  else
    match number? text.toList, calendar? text.toList with
    | some found, _ => found
    | none, some found => found.mapError .calendar
    | none, none => .ok (.text text)

end Solvency.Yaml
