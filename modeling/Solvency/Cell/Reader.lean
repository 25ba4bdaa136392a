import Solvency.Cell.Dictionary

/-!
Reading of cells. A slice is what is left of a cell: tokens and references are taken from its two queues in order, and
what is left over in the end is no error. A token of another kind or width than asked for is used up.
-/

namespace Solvency

/-- The part of a cell that has not been read. -/
structure Slice where
  tokens : List Token
  refs : List Cell

def Cell.slice (cell : Cell) : Slice := ⟨cell.tokens, cell.refs⟩

/-- A computation that reads from a slice. -/
abbrev CellReader (α : Type) := StateT Slice (Except CellError) α

/-- What a reader finds in a whole cell. -/
def Cell.parse {α : Type} (cell : Cell) (reader : CellReader α) : Except CellError α :=
  (reader.run cell.slice).map Prod.fst

namespace CellReader

/-- The next token, as `select` takes it apart; a refused one is reported against what was wanted. -/
def next {α : Type} (wanted : TokenKind) (width : Option Nat) (select : Token → Option α) : CellReader α :=
  fun slice =>
    match slice.tokens with
    | [] => .error (.underflow wanted)
    | token :: rest =>
      match select token with
      | some value => .ok (value, { slice with tokens := rest })
      | none => .error (.mismatch wanted width token.kind token.width)

/-- An unsigned integer of a width. -/
def uint (bits : Nat) : CellReader Int :=
  next .uint (some bits) fun
    | .uint w value => if w = bits then some value else none
    | _ => none

/-- A signed integer of a width. -/
def int (bits : Nat) : CellReader Int :=
  next .int (some bits) fun
    | .int w value => if w = bits then some value else none
    | _ => none

/-- An unsigned integer with its length in front. -/
def varUint (maxLength : Nat) : CellReader Int :=
  next .varUint (some maxLength) fun
    | .varUint w value => if w = maxLength then some value else none
    | _ => none

/-- An amount of coins of any width. -/
def coins : CellReader Int :=
  next .coins none fun
    | .coins _ value => some value
    | _ => none

def address : CellReader Text :=
  next .address none fun
    | .address _ value => some value
    | _ => none

def bytes : CellReader (List UInt8) :=
  next .bytes none fun
    | .bytes _ value => some value
    | _ => none

/-- The flag in front of an optional reference. -/
def flag : CellReader Bool :=
  next .maybe (some 1) fun
    | .maybe w present => if w = 1 then some present else none
    | _ => none

/-- The next reference. -/
def ref : CellReader Cell := fun slice =>
  match slice.refs with
  | [] => .error .noReference
  | cell :: rest => .ok (cell, { slice with refs := rest })

/-- The next reference, if the flag in front of it is set. -/
def maybeRef : CellReader (Option Cell) := do
  if ← flag then return some (← ref) else return none

/-- An optional dictionary; one that is absent is empty. -/
def dictionary (bits : Nat) : CellReader Dictionary := do
  match ← maybeRef with
  | none => return .empty
  | some root => root.dictionary bits

end CellReader

end Solvency
