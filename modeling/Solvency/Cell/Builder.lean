import Solvency.Cell.Dictionary

/-!
Writing of cells. A builder collects tokens and references in the order in which a reader takes them; numbers that
do not fit are refused.
-/

namespace Solvency

/-- What has been written of a cell. -/
structure CellBuilder where
  tokens : List Token
  refs : List Cell

namespace CellBuilder

/-- Nothing written. -/
def empty : CellBuilder := ⟨[], []⟩

def token (b : CellBuilder) (t : Token) : CellBuilder := { b with tokens := b.tokens ++ [t] }

/-- An unsigned integer of a width. -/
def uint (b : CellBuilder) (value : Int) (bits : Nat) : Except CellError CellBuilder :=
  if 0 ≤ value ∧ value < Nat.pow 2 bits then .ok (b.token (.uint bits value)) else .error (.outOfRange value bits)

def coins (b : CellBuilder) (value : Int) : Except CellError CellBuilder :=
  if value < 0 then .error .negativeCoins else .ok (b.token (.coins 0 value))

def bytes (b : CellBuilder) (value : List UInt8) : CellBuilder := b.token (.bytes (value.length * 8) value)

/-- A reference. -/
def ref (b : CellBuilder) (cell : Cell) : CellBuilder := { b with refs := b.refs ++ [cell] }

/-- An optional reference with its flag. -/
def maybeRef (b : CellBuilder) : Option Cell → CellBuilder
  | some cell => (b.token (.maybe 1 true)).ref cell
  | none => b.token (.maybe 1 false)

def cell (b : CellBuilder) : Cell := .ofParts b.tokens b.refs

end CellBuilder

end Solvency
