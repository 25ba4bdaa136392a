import Solvency.Text.Basic
import Solvency.Text.Printable

/-!
Quoted text. Single quotes stand around a text, or double ones if it holds a single quote and no double one;
what is not printable is written as an escape.
-/

namespace Solvency.Text

/-- The lower-case hexadecimal digits of a number, filled up with zeros to a width. -/
def hexOfWidth (width n : Nat) : List Char :=
  let ds := Nat.toDigits 16 n
  List.replicate (width - ds.length) '0' ++ ds

/-- The escape of a code point by its number. -/
def numericEscape (point : Nat) : List Char :=
  if point < 0x100 then '\\' :: 'x' :: hexOfWidth 2 point
  else if point < 0x10000 then '\\' :: 'u' :: hexOfWidth 4 point
  else '\\' :: 'U' :: hexOfWidth 8 point

/-- A character as it stands inside quotes of a kind. -/
def quotedChar (quote c : Char) : List Char :=
  if c = quote ∨ c = '\\' then ['\\', c]
  else if c = '\n' then ['\\', 'n']
  else if c = '\r' then ['\\', 'r']
  else if c = '\t' then ['\\', 't']
  else if isPrintable c then [c]
  else numericEscape c.toNat

/-- A code point as it stands inside quotes of a kind. -/
def quotedPoint (quote : Char) : CodePoint → List Char
  | .char c => quotedChar quote c
  | .surrogate offset => numericEscape (CodePoint.surrogate offset).value

def quoteFor (text : Text) : Char :=
  if text.contains (.char '\'') && !text.contains (.char '"') then '"' else '\''

def quoted (text : Text) : Text :=
  let quote := quoteFor text
  ofChars (quote :: text.flatMap (quotedPoint quote) ++ [quote])

end Solvency.Text
