import Solvency.Text.Basic
import Solvency.Text.Blank
import Solvency.Text.Digit

/-!
Integers as text. Reading takes padding around the number, a sign, decimal digits of any script and single
underscores between digits; writing gives ASCII digits without leading zeros, after a minus sign if negative.
-/

namespace Solvency.Text

/-- The most digits that an integer may be written with. -/
def digitLimit : Nat := 4300

/-- Digits with single underscores between them: the value, given the value so far, the digits seen so far and
    whether the last character was a digit. -/
def readDigits (value count : Nat) (afterDigit : Bool) : List Char → Option Nat
  | [] => if afterDigit && count ≤ digitLimit then some value else none
  | '_' :: rest => if afterDigit then readDigits value count false rest else none
  | c :: rest =>
    match digitValue? c with
    | some d => readDigits (value * 10 + d) (count + 1) true rest
    | none => none

/-- The integer that a sign and digits stand for. -/
def readSigned : List Char → Option Int
  | '-' :: rest => (readDigits 0 0 false rest).map fun n => -(n : Int)
  | '+' :: rest => (readDigits 0 0 false rest).map Int.ofNat
  | rest => (readDigits 0 0 false rest).map Int.ofNat

/-- The integer that a text stands for, padding aside. -/
def readInteger (text : Text) : Option Int := text.chars?.bind fun cs => readSigned (trim isPadding cs)

/-- The ASCII digits of a number. -/
def digits (n : Nat) : List Char := Nat.toDigits 10 n

def integerChars : Int → List Char
  | .ofNat n => digits n
  | .negSucc n => '-' :: digits (n + 1)

/-- Whether an integer has few enough digits to be written. -/
def isWritable (n : Int) : Bool := n.natAbs < Nat.pow 10 digitLimit

def decimal (n : Int) : Text := ofChars (integerChars n)

/-- What the runtime has to say about an integer with too many digits to be written stands as an asterisk. -/
def digitLimitMessage : Text := "*"

/-- The text of an integer, if it has few enough digits for one. -/
def decimal? (n : Int) : Option Text := if isWritable n then some (decimal n) else none

end Solvency.Text
