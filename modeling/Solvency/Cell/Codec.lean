import Solvency.Cell.Builder
import Solvency.Table

/-!
Codecs: how bytes become a cell and how a cell is proved, and how deeply the texts around the bytes may be nested. A
codec of known bags looks the bytes up, and its proof of a cell is a cell that refers to it.
-/

namespace Solvency

/-- What a chain's serialization offers, and the runtime that decodes what is published of it. -/
structure Codec where
  ofBytes : List UInt8 → Except CellError Cell
  prove : Cell → Except CellError Cell
  /-- The most lists and maps that may stand inside each other in a JSON text that is decoded. -/
  jsonDepth : Nat

namespace Codec

/-- The proof that covers the whole of a cell. -/
def proofOf (cell : Cell) : Cell := .ofParts [.proof 0] [cell]

/-- The codec that knows some bags of cells and either proves every cell or none, in a runtime of some depth. -/
def ofBags (bags : Table (List UInt8) Cell) (refusesProofs : Bool) (jsonDepth : Nat) : Codec where
  ofBytes bytes :=
    match bags.get? bytes with
    | some cell => .ok cell
    | none => .error .unknownBag
  prove cell := if refusesProofs then .error .proofRefused else .ok (proofOf cell)
  jsonDepth

end Codec

end Solvency
