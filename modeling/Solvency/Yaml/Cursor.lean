/-!
A place in a YAML text: the characters that follow, and the line, column and number of characters before.
-/

namespace Solvency.Yaml

/-- A character that ends a line. -/
def isBreak (c : Char) : Bool := c = '\n' || c = '\r' || c = '\u0085' || c = '\u2028' || c = '\u2029'

/-- Whether a word ends where this comes next: a blank, a line end or nothing. -/
def endsWord : Option Char → Bool
  | none => true
  | some c => c = ' ' || c = '\t' || isBreak c

def isAdmitted (c : Char) : Bool :=
  let n := c.toNat
  n = 0x9 || n = 0xA || n = 0xD || (0x20 ≤ n && n ≤ 0x7E) || n = 0x85 || (0xA0 ≤ n && n ≤ 0xD7FF)
    || (0xE000 ≤ n && n ≤ 0xFFFD) || 0x10000 ≤ n

/-- A place in a text. -/
structure Cursor where
  rest : List Char
  line : Nat
  column : Nat
  index : Nat

namespace Cursor

/-- The place before a text. -/
def start (text : List Char) : Cursor := ⟨text, 0, 0, 0⟩

def peek (c : Cursor) : Option Char := c.rest.head?

def peekAt (c : Cursor) (n : Nat) : Option Char := c.rest[n]?

/-- The place behind the next character. -/
def advance (c : Cursor) : Cursor :=
  match c.rest with
  | [] => c
  | char :: rest =>
    if char ≠ '\r' ∧ isBreak char ∨ char = '\r' ∧ rest.head? ≠ some '\n' then ⟨rest, c.line + 1, 0, c.index + 1⟩
    else if char = '\uFEFF' then ⟨rest, c.line, c.column, c.index + 1⟩
    else ⟨rest, c.line, c.column + 1, c.index + 1⟩

/-- The place behind the next `n` characters. -/
def advanceBy (c : Cursor) : Nat → Cursor
  | 0 => c
  | n + 1 => c.advance.advanceBy n

/-- The place behind all next characters of a class. -/
def skipWhile (c : Cursor) (skip : Char → Bool) : Cursor := c.advanceBy (c.rest.takeWhile skip).length

/-- A line end as it counts in a text, and the place behind it. -/
def lineBreak? (c : Cursor) : Option (Char × Cursor) :=
  match c.rest with
  | '\r' :: '\n' :: _ => some ('\n', c.advanceBy 2)
  | char :: _ =>
    if char = '\u2028' ∨ char = '\u2029' then some (char, c.advance)
    else if isBreak char then some ('\n', c.advance)
    else none
  | [] => none

/-- Whether three equal characters that separate documents come next, at the start of a line. -/
def atMarker (c : Cursor) (mark : Char) : Bool :=
  c.column = 0 && c.rest.take 3 = [mark, mark, mark] && endsWord (c.peekAt 3)

/-- Whether a document starts or ends here. -/
def atDocumentEdge (c : Cursor) : Bool := c.atMarker '-' || c.atMarker '.'

end Cursor

end Solvency.Yaml
