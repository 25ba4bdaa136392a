import Solvency.Binary64.Decimal
import Solvency.Document.Basic
import Solvency.Text.Hex

/-!
Reading of JSON text. The grammar is the standard one with three more numbers, `NaN`, `Infinity` and `-Infinity`; a
number with a fraction or an exponent is a binary64 value, any other an integer. Of two members of one name the
later gives the value and the earlier the place. Lists and maps are read only to a depth, beyond which the reader gives
up where the next one opens, whatever stands behind.
-/

namespace Solvency.Json

/-- A blank between tokens. -/
def isBlank (c : Char) : Bool := c = ' ' || c = '\t' || c = '\n' || c = '\r'

/-- The input from its first token on. -/
def skip (input : List Char) : List Char := input.dropWhile isBlank

/-! ### Texts -/

/-- The number that four hexadecimal digits stand for. -/
def hex4? (a b c d : Char) : Option Nat := do
  let a ← Text.hexValue? a
  let b ← Text.hexValue? b
  let c ← Text.hexValue? c
  let d ← Text.hexValue? d
  some (((a * 16 + b) * 16 + c) * 16 + d)

/-- The character of the two halves of a pair. -/
def pair? (high low : Nat) : Option Char :=
  if 0xD800 ≤ high ∧ high < 0xDC00 ∧ 0xDC00 ≤ low ∧ low < 0xE000 then
    some (Char.ofNat (0x10000 + (high - 0xD800) * 0x400 + (low - 0xDC00)))
  else none

/-- The character that a backslash and a letter stand for. -/
def escape? : Char → Option Char
  | '"' => some '"'
  | '\\' => some '\\'
  | '/' => some '/'
  | 'b' => some '\x08'
  | 'f' => some '\x0c'
  | 'n' => some '\n'
  | 'r' => some '\r'
  | 't' => some '\t'
  | _ => none

/-- The text up to its closing quote, collected behind `done` in reverse, and the input behind the quote. -/
def readText (done : Text) : List Char → Option (Text × List Char)
  | [] => none
  | '"' :: rest => some (done.reverse, rest)
  | '\\' :: 'u' :: a :: b :: c :: d :: '\\' :: 'u' :: e :: f :: g :: h :: rest =>
    match hex4? a b c d with
    | none => none
    | some high =>
      match (hex4? e f g h).bind (pair? high) with
      | some char => readText (.char char :: done) rest
      | none =>
        match CodePoint.ofNat? high with
        | some point => readText (point :: done) ('\\' :: 'u' :: e :: f :: g :: h :: rest)
        | none => none
  | '\\' :: 'u' :: a :: b :: c :: d :: rest =>
    match (hex4? a b c d).bind CodePoint.ofNat? with
    | some point => readText (point :: done) rest
    | none => none
  | '\\' :: letter :: rest =>
    match escape? letter with
    | some char => readText (.char char :: done) rest
    | none => none
  | c :: rest => if c = '\\' ∨ c.toNat < 0x20 then none else readText (.char c :: done) rest

/-! ### Numbers -/

/-- The leading ASCII digits and the input behind them. -/
def spanDigits (input : List Char) : List Char × List Char := (input.takeWhile Char.isDigit, input.dropWhile Char.isDigit)

/-- The number that ASCII digits stand for. -/
def digitsValue (ds : List Char) : Nat := ds.foldl (fun n c => n * 10 + (c.toNat - '0'.toNat)) 0

/-- The digits before the point: one zero, or digits that do not start with one. -/
def readWhole : List Char → Option (List Char × List Char)
  | '0' :: rest => some (['0'], rest)
  | input =>
    match spanDigits input with
    | ([], _) => none
    | found => some found

/-- A point and the digits behind it, if there are any. -/
def readFraction : List Char → Option (List Char × List Char)
  | '.' :: rest =>
    match spanDigits rest with
    | ([], _) => none
    | found => some found
  | _ => none

/-- The sign of an exponent and the input behind it. -/
def exponentSign : List Char → Bool × List Char
  | '-' :: rest => (true, rest)
  | '+' :: rest => (false, rest)
  | rest => (false, rest)

/-- A power of ten, if there is one. -/
def readPower : List Char → Option (Int × List Char)
  | c :: rest =>
    if c = 'e' ∨ c = 'E' then
      let (negative, rest) := exponentSign rest
      match spanDigits rest with
      | ([], _) => none
      | (ds, rest) => some (if negative then -(digitsValue ds : Int) else digitsValue ds, rest)
    else none
  | [] => none

/-- A number behind its sign. -/
def readUnsigned (negative : Bool) (input : List Char) : Option (Scalar × List Char) := do
  let (whole, rest) ← readWhole input
  match readFraction rest with
  | some (fraction, rest) =>
    let (power, rest) := (readPower rest).getD (0, rest)
    let value := Binary64.ofDecimal negative (digitsValue (whole ++ fraction)) (power - fraction.length)
    some (.float value, rest)
  | none =>
    match readPower rest with
    | some (power, rest) => some (.float (.ofDecimal negative (digitsValue whole) power), rest)
    | none =>
      if Text.digitLimit < whole.length then none
      else
        let n : Int := digitsValue whole
        some (.integer (if negative then -n else n), rest)

/-- A scalar that is no text. -/
def readPlain : List Char → Option (Scalar × List Char)
  | 'n' :: 'u' :: 'l' :: 'l' :: rest => some (.null, rest)
  | 't' :: 'r' :: 'u' :: 'e' :: rest => some (.bool true, rest)
  | 'f' :: 'a' :: 'l' :: 's' :: 'e' :: rest => some (.bool false, rest)
  | 'N' :: 'a' :: 'N' :: rest => some (.float .nan, rest)
  | 'I' :: 'n' :: 'f' :: 'i' :: 'n' :: 'i' :: 't' :: 'y' :: rest => some (.float (.infinite false), rest)
  | '-' :: 'I' :: 'n' :: 'f' :: 'i' :: 'n' :: 'i' :: 't' :: 'y' :: rest => some (.float (.infinite true), rest)
  | '-' :: rest => readUnsigned true rest
  | rest => readUnsigned false rest

/-! ### Values -/

/-- Why a text is not read. -/
inductive Fault where
  /-- It stands for no document. -/
  | malformed
  /-- More lists and maps open inside each other than can be followed. -/
  | tooDeep
  deriving DecidableEq, Repr

/-- A value that has been read, and the input behind it. -/
abbrev Reading := Except Fault (Document × List Char)

mutual
/-- A value, with a number of levels left for lists and maps inside each other, and the input behind it. -/
def readValue : Nat → Nat → List Char → Reading
  | 0, _, _ => .error .malformed
  | fuel + 1, depth, input =>
    match skip input with
    | '"' :: rest =>
      match readText [] rest with
      | some (value, rest) => .ok (.ofText value, rest)
      | none => .error .malformed
    | '[' :: rest =>
      match depth with
      | 0 => .error .tooDeep
      | depth + 1 =>
        match skip rest with
        | ']' :: rest => .ok (.list [], rest)
        | rest => readItems fuel depth [] rest
    | '\x7b' :: rest =>
      match depth with
      | 0 => .error .tooDeep
      | depth + 1 =>
        match skip rest with
        | '\x7d' :: rest => .ok (.map [], rest)
        | rest => readMembers fuel depth [] rest
    | rest =>
      match readPlain rest with
      | some (value, rest) => .ok (.scalar value, rest)
      | none => .error .malformed
/-- The items of a list up to its end, collected behind `done` in reverse. -/
def readItems : Nat → Nat → List Document → List Char → Reading
  | 0, _, _, _ => .error .malformed
  | fuel + 1, depth, done, input =>
    match readValue fuel depth input with
    | .error fault => .error fault
    | .ok (value, rest) =>
      match skip rest with
      | ',' :: rest => readItems fuel depth (value :: done) rest
      | ']' :: rest => .ok (.list (value :: done).reverse, rest)
      | _ => .error .malformed
/-- The members of a map up to its end, collected behind `done` in reverse. -/
def readMembers : Nat → Nat → List (Scalar × Document) → List Char → Reading
  | 0, _, _, _ => .error .malformed
  | fuel + 1, depth, done, input =>
    match skip input with
    | '"' :: rest =>
      match readText [] rest with
      | none => .error .malformed
      | some (name, rest) =>
        match skip rest with
        | ':' :: rest =>
          match readValue fuel depth rest with
          | .error fault => .error fault
          | .ok (value, rest) =>
            let done := (.text name, value) :: done
            match skip rest with
            | ',' :: rest => readMembers fuel depth done rest
            | '\x7d' :: rest => .ok (.ofEntries done.reverse, rest)
            | _ => .error .malformed
        | _ => .error .malformed
    | _ => .error .malformed
end

/-- The document that a text stands for, if no more than `depth` lists and maps stand inside each other. Every value
    takes at least one character, which bounds the steps of the reading. -/
def read (depth : Nat) (input : List Char) : Except Fault Document :=
  match readValue (2 * input.length + 2) depth input with
  | .ok (value, rest) => if (skip rest).isEmpty then .ok value else .error .malformed
  | .error fault => .error fault

end Solvency.Json
