import Solvency.Ratio

/-!
Assets. The terms of an asset change rarely; its state accrues interest. Supplies and debts are recorded as
principals, and an index, scaled by `indexScale`, turns a principal into the balance it stands for.
-/

namespace Solvency

/-- The scale of indices, rates and utilizations. -/
def indexScale : Int := 1000000000000

/-- The scale of the part of interest that is kept as reserve. -/
def reserveScale : Int := 10000

/-- The terms on which an asset is lent. Factors and thresholds are in basis points, rates are per second. -/
structure AssetTerms where
  oracle : Int
  decimals : Int
  collateralFactor : Int
  liquidationThreshold : Int
  liquidationBonus : Int
  baseBorrowRate : Int
  borrowSlopeLow : Int
  borrowSlopeHigh : Int
  supplySlopeLow : Int
  supplySlopeHigh : Int
  targetUtilization : Int
  originationFee : Int
  dust : Int
  maxTotalSupply : Int
  reserveFactor : Int
  liquidationReserveFactor : Int
  minPrincipalForRewards : Int
  trackingSupplySpeed : Int
  trackingBorrowSpeed : Int
  deriving DecidableEq, Repr

namespace AssetTerms

/-- The smallest units in one whole token. -/
def unitScale (terms : AssetTerms) : Int := Nat.pow 10 terms.decimals.toNat

/-- The fields in the order of their record. -/
def fields (t : AssetTerms) : List Int :=
  [t.oracle, t.decimals, t.collateralFactor, t.liquidationThreshold, t.liquidationBonus, t.baseBorrowRate,
   t.borrowSlopeLow, t.borrowSlopeHigh, t.supplySlopeLow, t.supplySlopeHigh, t.targetUtilization, t.originationFee,
   t.dust, t.maxTotalSupply, t.reserveFactor, t.liquidationReserveFactor, t.minPrincipalForRewards,
   t.trackingSupplySpeed, t.trackingBorrowSpeed]

def ofFields? : List Int → Option AssetTerms
  | [oracle, decimals, collateralFactor, liquidationThreshold, liquidationBonus, baseBorrowRate, borrowSlopeLow,
     borrowSlopeHigh, supplySlopeLow, supplySlopeHigh, targetUtilization, originationFee, dust, maxTotalSupply,
     reserveFactor, liquidationReserveFactor, minPrincipalForRewards, trackingSupplySpeed, trackingBorrowSpeed] =>
    some { oracle, decimals, collateralFactor, liquidationThreshold, liquidationBonus, baseBorrowRate, borrowSlopeLow,
           borrowSlopeHigh, supplySlopeLow, supplySlopeHigh, targetUtilization, originationFee, dust, maxTotalSupply,
           reserveFactor, liquidationReserveFactor, minPrincipalForRewards, trackingSupplySpeed, trackingBorrowSpeed }
  | _ => none

@[simp] theorem ofFields?_fields (t : AssetTerms) : ofFields? t.fields = some t := rfl

/-- No field is negative. -/
def Nonneg (t : AssetTerms) : Prop := ∀ x ∈ t.fields, 0 ≤ x

instance (t : AssetTerms) : Decidable t.Nonneg := List.decidableBAll (fun x => 0 ≤ x) t.fields

end AssetTerms

/-- What an asset has accrued at its last accrual. -/
structure AssetState where
  supplyIndex : Int
  borrowIndex : Int
  totalSupply : Int
  totalBorrow : Int
  lastAccrual : Int
  balance : Int := 0
  trackingSupplyIndex : Int := 0
  trackingBorrowIndex : Int := 0
  awaitedSupply : Int := 0
  deriving DecidableEq, Repr

namespace AssetState

/-- The fields in the order of their record. -/
def fields (s : AssetState) : List Int :=
  [s.supplyIndex, s.borrowIndex, s.totalSupply, s.totalBorrow, s.lastAccrual, s.balance, s.trackingSupplyIndex,
   s.trackingBorrowIndex, s.awaitedSupply]

/-- The state with given fields; the last four may be missing from the end and are zero then. -/
def ofFields? : List Int → Option AssetState
  | supplyIndex :: borrowIndex :: totalSupply :: totalBorrow :: lastAccrual :: rest =>
    if 4 < rest.length then none
    else
      some { supplyIndex, borrowIndex, totalSupply, totalBorrow, lastAccrual, balance := rest.getD 0 0,
             trackingSupplyIndex := rest.getD 1 0, trackingBorrowIndex := rest.getD 2 0,
             awaitedSupply := rest.getD 3 0 }
  | _ => none

@[simp] theorem ofFields?_fields (s : AssetState) : ofFields? s.fields = some s := rfl

/-- No field is negative. -/
def Nonneg (s : AssetState) : Prop := ∀ x ∈ s.fields, 0 ≤ x

instance (s : AssetState) : Decidable s.Nonneg := List.decidableBAll (fun x => 0 ≤ x) s.fields

end AssetState

end Solvency
