import Solvency.Asset.Basic

/-!
Accrual of interest. The borrow rate follows the utilization along a line that turns steeper above a target; suppliers
get the borrow rate on the part that is lent, less the reserve. Only the two indices and the time of the last accrual
move; totals stay.
-/

namespace Solvency

/-- The part of the supply that is borrowed, both at their present index; zero without supply. -/
def AssetState.utilization (state : AssetState) : Int :=
  let supply := scaled state.supplyIndex state.totalSupply indexScale
  let borrow := scaled state.borrowIndex state.totalBorrow indexScale
  if supply = 0 then 0 else scaled borrow indexScale supply

/-- The rate that borrowers pay per second. -/
def AssetTerms.borrowRate (terms : AssetTerms) (utilization : Int) : Int :=
  if utilization ≤ terms.targetUtilization then
    terms.baseBorrowRate + scaled terms.borrowSlopeLow utilization indexScale
  else
    terms.baseBorrowRate + scaled terms.borrowSlopeLow terms.targetUtilization indexScale
      + scaled terms.borrowSlopeHigh (utilization - terms.targetUtilization) indexScale

/-- The rate that suppliers get per second out of a borrow rate. -/
def AssetTerms.supplyRate (terms : AssetTerms) (borrowRate utilization : Int) : Int :=
  scaled (scaled borrowRate utilization indexScale) (reserveScale - terms.reserveFactor) reserveScale

/-- A later state of an asset and the rates that led to it. -/
structure Projection where
  state : AssetState
  supplyInterest : Int
  borrowInterest : Int
  deriving DecidableEq, Repr

/-- An index after `elapsed` seconds at a rate. -/
def grownIndex (index rate elapsed : Int) : Int := index + scaled index (rate * elapsed) indexScale

/-- The state accrued up to `target`; a target that is not later than the last accrual changes nothing. -/
def AssetTerms.project (terms : AssetTerms) (state : AssetState) (target : Int) : Projection :=
  let elapsed := target - state.lastAccrual
  if elapsed ≤ 0 then { state, supplyInterest := 0, borrowInterest := 0 }
  else
    let utilization := state.utilization
    let borrowInterest := terms.borrowRate utilization
    let supplyInterest := terms.supplyRate borrowInterest utilization
    { state := { state with
        supplyIndex := grownIndex state.supplyIndex supplyInterest elapsed
        borrowIndex := grownIndex state.borrowIndex borrowInterest elapsed
        lastAccrual := target }
      supplyInterest, borrowInterest }

end Solvency
