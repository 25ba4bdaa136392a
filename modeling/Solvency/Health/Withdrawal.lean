import Solvency.Health.Assessment

/-!
Withdrawal: the largest amount of an asset that may leave a position. What is held of it bounds a withdrawal from a
supply; otherwise the amount is what may still be borrowed.
-/

namespace Solvency.Assessment

/-- Half the dust of an asset as a balance, which a withdrawal leaves as a margin. -/
def dustMargin (a : Assessment) (terms : AssetTerms) (state : AssetState) : Except HealthError Int := do
  return (← proportion state.supplyIndex terms.dust a.params.factorScale).tdiv 2

/-- The largest amount of an asset that may leave the position. -/
def maxWithdrawal (a : Assessment) (asset : Text) : Except HealthError Int := do
  let (terms, state) ← a.decoded asset
  let balance := a.position.balanceWithoutDust asset state terms
  if balance ≤ 0 then
    let available ← a.borrowable
    let price ← a.converter.price asset
    proportion available terms.unitScale price
  else if a.position.hasNoDebt ∨ terms.collateralFactor = 0 then return balance
  else
    let available ← a.borrowable
    let worth ← proportion available a.params.coefficientScale terms.collateralFactor
    let releasable ← a.converter.balanceOfValue asset worth
    let margin ← a.dustMargin terms state
    return min balance (max 0 (releasable - margin))

end Solvency.Assessment
