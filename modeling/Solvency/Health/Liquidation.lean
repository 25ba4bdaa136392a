import Solvency.Health.Assessment
import Solvency.Text.Integer

/-!
Liquidation: the largest debt is repaid against the largest collateral, which the liquidator gets with a bonus. Outside
bad debt at most half of the collateral is seized at once, but no less than the collateral worth threshold.
-/

namespace Solvency

/-- The outcome of a liquidation check, with the amounts if the position can be liquidated. -/
structure LiquidationData where
  health : HealthSnapshot
  liquidatable : Bool := false
  loanAsset : Option Int := none
  collateralAsset : Option Int := none
  liquidationAmount : Option Int := none
  collateralAmount : Option Int := none
  deriving DecidableEq, Repr

namespace Assessment

/-- The worth of collateral that may be seized at once. -/
def seizable (a : Assessment) (health : HealthSnapshot) (bonus : Int) : Int :=
  let worth := health.greatestCollateralValue
  if health.isBadDebt bonus a.params.liquidationBonusScale then worth
  else min worth (max (worth.tdiv 2) a.params.collateralWorthThreshold)

/-- The amounts that a liquidator repays and seizes of two assets. -/
def liquidationAmounts (a : Assessment) (health : HealthSnapshot) (loan collateral : Int) :
    Except HealthError LiquidationData := do
  let loanKey := Text.decimal loan
  let collateralKey := Text.decimal collateral
  let loanTerms ← a.converter.terms loanKey
  let collateralTerms ← a.converter.terms collateralKey
  let bonus := collateralTerms.liquidationBonus
  let bonusScale := a.params.liquidationBonusScale
  let payable ← proportion (a.seizable health bonus) bonusScale bonus
  let repaid := min health.greatestLoanValue payable
  let seized ← proportion repaid bonus bonusScale
  let collateralAmount ← a.converter.balanceOfValue collateralKey seized
  let reserveScale := a.params.liquidationReserveFactorScale
  let charged ← proportion repaid reserveScale (reserveScale - loanTerms.liquidationReserveFactor)
  let liquidationAmount ← a.converter.balanceOfValue loanKey charged
  return { health, liquidatable := true, loanAsset := some loan, collateralAsset := some collateral,
           liquidationAmount := some liquidationAmount, collateralAmount := some collateralAmount }

/-- The outcome of a liquidation check. -/
def liquidation (a : Assessment) : Except HealthError LiquidationData := do
  let health ← a.health
  if health.isLiquidatable then
    match health.greatestCollateralAsset, health.greatestLoanAsset with
    | some collateral, some loan => a.liquidationAmounts health loan collateral
    | _, _ => throw .noCollateral
  else return { health }

end Assessment

end Solvency
