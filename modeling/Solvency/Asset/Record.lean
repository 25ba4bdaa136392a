import Solvency.Asset.Basic
import Solvency.Cell.Builder
import Solvency.Cell.Reader

/-!
Asset records in cells. The terms take a head, with the oracle and the decimals, and a tail in its first reference; the
state takes one cell. Every field is an unsigned integer of a fixed width, in the order of the record.
-/

namespace Solvency

/-- The widths of the fields in the head of the terms. -/
def termsHeadWidths : List Nat := [256, 8]

/-- The widths of the fields in the tail of the terms. -/
def termsTailWidths : List Nat := [16, 16, 16, 64, 64, 64, 64, 64, 64, 64, 64, 64, 16, 16, 64, 64, 64]

/-- The widths of the fields of a state. -/
def stateWidths : List Nat := [64, 64, 64, 64, 32, 64, 64, 64, 64]

open CellReader in
/-- The head of the terms, and the tail behind the first reference. -/
def AssetTerms.reader : CellReader AssetTerms := do
  let oracle ← uint 256
  let decimals ← uint 8
  let tail ← ref
  let tailReader : CellReader AssetTerms := do
    let collateralFactor ← uint 16
    let liquidationThreshold ← uint 16
    let liquidationBonus ← uint 16
    let baseBorrowRate ← uint 64
    let borrowSlopeLow ← uint 64
    let borrowSlopeHigh ← uint 64
    let supplySlopeLow ← uint 64
    let supplySlopeHigh ← uint 64
    let targetUtilization ← uint 64
    let originationFee ← uint 64
    let dust ← uint 64
    let maxTotalSupply ← uint 64
    let reserveFactor ← uint 16
    let liquidationReserveFactor ← uint 16
    let minPrincipalForRewards ← uint 64
    let trackingSupplySpeed ← uint 64
    let trackingBorrowSpeed ← uint 64
    return { oracle, decimals, collateralFactor, liquidationThreshold, liquidationBonus, baseBorrowRate,
             borrowSlopeLow, borrowSlopeHigh, supplySlopeLow, supplySlopeHigh, targetUtilization, originationFee, dust,
             maxTotalSupply, reserveFactor, liquidationReserveFactor, minPrincipalForRewards, trackingSupplySpeed,
             trackingBorrowSpeed }
  tail.parse tailReader

open CellReader in
def AssetState.reader : CellReader AssetState := do
  let supplyIndex ← uint 64
  let borrowIndex ← uint 64
  let totalSupply ← uint 64
  let totalBorrow ← uint 64
  let lastAccrual ← uint 32
  let balance ← uint 64
  let trackingSupplyIndex ← uint 64
  let trackingBorrowIndex ← uint 64
  let awaitedSupply ← uint 64
  return { supplyIndex, borrowIndex, totalSupply, totalBorrow, lastAccrual, balance, trackingSupplyIndex,
           trackingBorrowIndex, awaitedSupply }

/-- Fields written one after another in their widths. -/
def writeFields (b : CellBuilder) : List (Int × Nat) → Except CellError CellBuilder
  | [] => .ok b
  | (value, bits) :: rest => do writeFields (← b.uint value bits) rest

def AssetTerms.toCell (terms : AssetTerms) : Except CellError Cell := do
  let tail ← writeFields .empty ((terms.fields.drop 2).zip termsTailWidths)
  let head ← writeFields .empty ((terms.fields.take 2).zip termsHeadWidths)
  return (head.ref tail.cell).cell

def AssetState.toCell (state : AssetState) : Except CellError Cell := do
  return (← writeFields .empty (state.fields.zip stateWidths)).cell

end Solvency
