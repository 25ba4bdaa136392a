import Solvency.Text.Basic

/-!
Parameters of the lending master: the scales that its fixed-point numbers have, and the collateral worth from which a
liquidation is limited to a half.
-/

namespace Solvency

/-- The parameters of a master. -/
structure MasterParams where
  factorScale : Int := 1000000000000
  coefficientScale : Int := 10000
  priceScale : Int := 1000000000
  reserveFactorScale : Int := 10000
  liquidationReserveFactorScale : Int := 10000
  originationFeeScale : Int := 1000000000
  liquidationThresholdScale : Int := 10000
  liquidationBonusScale : Int := 10000
  supplyIndexScale : Int := 1000000000000
  borrowIndexScale : Int := 1000000000000
  collateralWorthThreshold : Int := 100000000000
  deriving DecidableEq, Repr

/-- The fields with their names, in the order of their record. -/
def MasterParams.fields (p : MasterParams) : List (Text × Int) :=
  [("factor_scale", p.factorScale), ("asset_coefficient_scale", p.coefficientScale),
   ("asset_price_scale", p.priceScale), ("asset_reserve_factor_scale", p.reserveFactorScale),
   ("asset_liquidation_reserve_factor_scale", p.liquidationReserveFactorScale),
   ("asset_origination_fee_scale", p.originationFeeScale),
   ("asset_liquidation_threshold_scale", p.liquidationThresholdScale),
   ("asset_liquidation_bonus_scale", p.liquidationBonusScale), ("asset_s_rate_scale", p.supplyIndexScale),
   ("asset_b_rate_scale", p.borrowIndexScale), ("collateral_worth_threshold", p.collateralWorthThreshold)]

/-- The parameters with the fields that `read` gives for each name, starting from its default. -/
def MasterParams.readFields {m : Type → Type} [Monad m] (read : Text → Int → m Int) : m MasterParams := do
  let base : MasterParams := {}
  return {
    factorScale := ← read "factor_scale" base.factorScale
    coefficientScale := ← read "asset_coefficient_scale" base.coefficientScale
    priceScale := ← read "asset_price_scale" base.priceScale
    reserveFactorScale := ← read "asset_reserve_factor_scale" base.reserveFactorScale
    liquidationReserveFactorScale :=
      ← read "asset_liquidation_reserve_factor_scale" base.liquidationReserveFactorScale
    originationFeeScale := ← read "asset_origination_fee_scale" base.originationFeeScale
    liquidationThresholdScale := ← read "asset_liquidation_threshold_scale" base.liquidationThresholdScale
    liquidationBonusScale := ← read "asset_liquidation_bonus_scale" base.liquidationBonusScale
    supplyIndexScale := ← read "asset_s_rate_scale" base.supplyIndexScale
    borrowIndexScale := ← read "asset_b_rate_scale" base.borrowIndexScale
    collateralWorthThreshold := ← read "collateral_worth_threshold" base.collateralWorthThreshold }

end Solvency
