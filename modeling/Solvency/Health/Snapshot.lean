import Solvency.Binary64.Basic

/-!
Health snapshots: what a position is worth in total, what it owes and how much debt its supplies allow, with the
greatest supply and the greatest debt.
-/

namespace Solvency

/-- The totals of a position, in price units. -/
structure HealthSnapshot where
  totalSupply : Int := 0
  totalDebt : Int := 0
  totalLimit : Int := 0
  greatestCollateralAsset : Option Int := none
  greatestCollateralValue : Int := 0
  greatestLoanAsset : Option Int := none
  greatestLoanValue : Int := 0
  deriving DecidableEq, Repr

namespace HealthSnapshot

def isLiquidatable (h : HealthSnapshot) : Bool := h.totalLimit < h.totalDebt

/-- Whether all supplies together do not cover the debt with the bonus of a liquidator. -/
def isBadDebt (h : HealthSnapshot) (bonus bonusScale : Int) : Bool :=
  h.totalSupply * bonusScale < h.totalDebt * bonus

/-- A value held between zero and one. -/
def clamp (x : Binary64) : Binary64 :=
  let floor := if x.exceeds 0 then x else .ofInt 0
  if floor.exceeds 1 then .ofInt 1 else floor

/-- How far the debt is from the limit: one without debt or limit, zero at the limit. The exact ratio of debt and
    limit is rounded once, and so is its distance from one. -/
def healthFactor (h : HealthSnapshot) : Except ArithmeticError Binary64 := do
  if h.totalLimit ≤ 0 then return .ofInt 1
  let ratio ← Binary64.ofQuotient h.totalDebt h.totalLimit
  return clamp ((Binary64.ofInt 1).sub ratio)

end HealthSnapshot

end Solvency
