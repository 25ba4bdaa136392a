import Mathlib.Tactic.Positivity
import Mathlib.Tactic.Ring
import Solvency.Asset.Accrual
import Solvency.Proofs.Ratios

/-! Interest: what borrowers are charged covers what suppliers are credited. The utilization takes the supply at its
    normalised amount, the rates and indices each lose less than one unit, and these losses all fall on the suppliers,
    so that only the last unit of the borrow index and of the normalised supply are left open. -/

namespace Solvency

theorem indexScale_pos : 0 < indexScale := by decide

namespace AssetState
variable {state : AssetState}

theorem Nonneg.amounts (nonneg : state.Nonneg) :
    0 ≤ state.supplyIndex ∧ 0 ≤ state.borrowIndex ∧ 0 ≤ state.totalSupply ∧ 0 ≤ state.totalBorrow :=
  ⟨nonneg _ (by simp [fields]), nonneg _ (by simp [fields]), nonneg _ (by simp [fields]), nonneg _ (by simp [fields])⟩

theorem utilization_nonneg (nonneg : state.Nonneg) : 0 ≤ state.utilization := by
  obtain ⟨hsupplyIndex, hborrowIndex, htotalSupply, htotalBorrow⟩ := nonneg.amounts
  have hscale : 0 ≤ indexScale := Int.le_of_lt indexScale_pos
  simp only [utilization]
  split
  · exact Int.le_refl 0
  · exact scaled_nonneg (scaled_nonneg hborrowIndex htotalBorrow hscale) hscale
      (scaled_nonneg hsupplyIndex htotalSupply hscale)

/-- The part of the normalised supply that is lent is no more than the debt. -/
theorem utilization_mul_le (nonneg : state.Nonneg) :
    state.utilization * scaled state.supplyIndex state.totalSupply indexScale ≤
      state.borrowIndex * state.totalBorrow := by
  obtain ⟨-, hborrowIndex, -, htotalBorrow⟩ := nonneg.amounts
  have hdebt : 0 ≤ state.borrowIndex * state.totalBorrow := Int.mul_nonneg hborrowIndex htotalBorrow
  have hscale : 0 ≤ indexScale := Int.le_of_lt indexScale_pos
  simp only [utilization]
  split
  · rwa [Int.zero_mul]
  · exact Int.le_trans (scaled_mul_le (Int.mul_nonneg (scaled_nonneg hborrowIndex htotalBorrow hscale) hscale))
      (scaled_mul_le hdebt)

end AssetState

namespace AssetTerms
variable {terms : AssetTerms} {rate utilization : Int}

theorem borrowRate_nonneg (nonneg : terms.Nonneg) (h : 0 ≤ utilization) : 0 ≤ terms.borrowRate utilization := by
  have hbase : 0 ≤ terms.baseBorrowRate := nonneg _ (by simp [fields])
  have hlow : 0 ≤ terms.borrowSlopeLow := nonneg _ (by simp [fields])
  have hhigh : 0 ≤ terms.borrowSlopeHigh := nonneg _ (by simp [fields])
  have htarget : 0 ≤ terms.targetUtilization := nonneg _ (by simp [fields])
  have hscale : 0 ≤ indexScale := Int.le_of_lt indexScale_pos
  unfold borrowRate
  split
  · exact Int.add_nonneg hbase (scaled_nonneg hlow h hscale)
  · have hbelow := scaled_nonneg hlow htarget hscale
    have habove := scaled_nonneg hhigh (y := utilization - terms.targetUtilization) (by omega) hscale
    omega

/-- The reserve only takes away from what suppliers get: at most the borrow rate on the part that is lent. -/
theorem supplyRate_mul_le (nonneg : terms.Nonneg) (hrate : 0 ≤ rate) (h : 0 ≤ utilization) :
    terms.supplyRate rate utilization * indexScale ≤ rate * utilization := by
  have hreserve : 0 ≤ terms.reserveFactor := nonneg _ (by simp [fields])
  have hlent : 0 ≤ scaled rate utilization indexScale := scaled_nonneg hrate h (Int.le_of_lt indexScale_pos)
  have hcut : terms.supplyRate rate utilization ≤ scaled rate utilization indexScale := by
    apply scaled_le (by decide)
    exact Int.mul_le_mul_of_nonneg_left (by omega) hlent
  calc terms.supplyRate rate utilization * indexScale
      ≤ scaled rate utilization indexScale * indexScale :=
        Int.mul_le_mul_of_nonneg_right hcut (Int.le_of_lt indexScale_pos)
    _ ≤ rate * utilization := scaled_mul_le (Int.mul_nonneg hrate h)

end AssetTerms

theorem grownIndex_sub (index rate elapsed : Int) :
    grownIndex index rate elapsed - index = scaled index (rate * elapsed) indexScale := by
  unfold grownIndex
  omega

section Accrual
variable {terms : AssetTerms} {state : AssetState} {rate elapsed : Int}

/-- What suppliers are credited in a time, at their part of a rate, is charged to the borrowers at that rate. -/
theorem credited_le_charged (hterms : terms.Nonneg) (hstate : state.Nonneg) (hrate : 0 ≤ rate)
    (helapsed : 0 ≤ elapsed) :
    scaled state.supplyIndex (terms.supplyRate rate state.utilization * elapsed) indexScale * state.totalSupply *
        scaled state.supplyIndex state.totalSupply indexScale ≤
      (scaled state.borrowIndex (rate * elapsed) indexScale + 1) * state.totalBorrow *
        (scaled state.supplyIndex state.totalSupply indexScale + 1) := by
  obtain ⟨hsupplyIndex, hborrowIndex, htotalSupply, htotalBorrow⟩ := hstate.amounts
  have hscale := Int.le_of_lt indexScale_pos
  have hutilization := AssetState.utilization_nonneg hstate
  have hlent := AssetState.utilization_mul_le hstate
  have hpart := AssetTerms.supplyRate_mul_le hterms hrate hutilization
  have hsupply : 0 ≤ scaled state.supplyIndex state.totalSupply indexScale :=
    scaled_nonneg hsupplyIndex htotalSupply hscale
  have hcharge : 0 ≤ scaled state.borrowIndex (rate * elapsed) indexScale :=
    scaled_nonneg hborrowIndex (Int.mul_nonneg hrate helapsed) hscale
  have hcharged := Int.le_of_lt (lt_scaled_add_one_mul (x := state.borrowIndex) (y := rate * elapsed) indexScale_pos)
  have hnormalised := Int.le_of_lt
    (lt_scaled_add_one_mul (x := state.supplyIndex) (y := state.totalSupply) indexScale_pos)
  generalize terms.supplyRate rate state.utilization = credit at hpart ⊢
  generalize hsupplyEq : scaled state.supplyIndex state.totalSupply indexScale = supply at *
  generalize scaled state.borrowIndex (rate * elapsed) indexScale = charge at *
  rcases Int.le_total 0 credit with hcredit | hcredit
  · have hcredited := scaled_mul_le (z := indexScale)
      (Int.mul_nonneg hsupplyIndex (Int.mul_nonneg hcredit helapsed))
    generalize scaled state.supplyIndex (credit * elapsed) indexScale = gain at hcredited ⊢
    -- Both scales are brought to the other side, and each truncation is undone in the direction that it allows.
    refine Int.le_of_mul_le_mul_right ?_ (Int.mul_pos indexScale_pos indexScale_pos)
    calc gain * state.totalSupply * supply * (indexScale * indexScale)
        = gain * indexScale * (state.totalSupply * supply * indexScale) := by ring
      _ ≤ state.supplyIndex * (credit * elapsed) * (state.totalSupply * supply * indexScale) :=
          Int.mul_le_mul_of_nonneg_right hcredited (by positivity)
      _ = credit * indexScale * (state.supplyIndex * state.totalSupply * elapsed * supply) := by ring
      _ ≤ rate * state.utilization * (state.supplyIndex * state.totalSupply * elapsed * supply) :=
          Int.mul_le_mul_of_nonneg_right hpart (by positivity)
      _ = state.utilization * supply * (state.supplyIndex * state.totalSupply * (rate * elapsed)) := by ring
      _ ≤ state.borrowIndex * state.totalBorrow * (state.supplyIndex * state.totalSupply * (rate * elapsed)) :=
          Int.mul_le_mul_of_nonneg_right hlent (by positivity)
      _ = state.supplyIndex * state.totalSupply * (state.borrowIndex * (rate * elapsed) * state.totalBorrow) := by ring
      _ ≤ (supply + 1) * indexScale * (state.borrowIndex * (rate * elapsed) * state.totalBorrow) :=
          Int.mul_le_mul_of_nonneg_right hnormalised (by positivity)
      _ = state.borrowIndex * (rate * elapsed) * ((supply + 1) * indexScale * state.totalBorrow) := by ring
      _ ≤ (charge + 1) * indexScale * ((supply + 1) * indexScale * state.totalBorrow) :=
          Int.mul_le_mul_of_nonneg_right hcharged (by positivity)
      _ = (charge + 1) * state.totalBorrow * (supply + 1) * (indexScale * indexScale) := by ring
  · -- A reserve beyond the whole takes from the suppliers, who are credited nothing.
    have hloss : scaled state.supplyIndex (credit * elapsed) indexScale ≤ 0 := by
      apply scaled_le indexScale_pos
      rw [Int.zero_mul]
      exact Int.mul_nonpos_of_nonneg_of_nonpos hsupplyIndex (Int.mul_nonpos_of_nonpos_of_nonneg hcredit helapsed)
    have hleft := Int.mul_nonpos_of_nonpos_of_nonneg hloss (Int.mul_nonneg htotalSupply hsupply)
    rw [← Int.mul_assoc] at hleft
    exact Int.le_trans hleft (by positivity)

end Accrual

/-- Accrual creates no money beyond rounding: whatever the utilization, the rate curve and the reserve, what an accrual
    credits to suppliers is at most what it charges to borrowers, up to one unit of the borrow index and the rounding
    of the normalised supply. -/
theorem supplier_credit_le_borrower_charge (terms : AssetTerms) (state : AssetState) (target : Int)
    (hterms : terms.Nonneg) (hstate : state.Nonneg) :
    let accrued := (terms.project state target).state
    let supply := scaled state.supplyIndex state.totalSupply indexScale
    (accrued.supplyIndex - state.supplyIndex) * state.totalSupply * supply ≤
      (accrued.borrowIndex - state.borrowIndex + 1) * state.totalBorrow * (supply + 1) := by
  simp only [AssetTerms.project]
  split
  · obtain ⟨hsupplyIndex, -, htotalSupply, htotalBorrow⟩ := hstate.amounts
    have hsupply := scaled_nonneg hsupplyIndex htotalSupply (Int.le_of_lt indexScale_pos)
    simp only [Int.sub_self, Int.zero_mul]
    positivity
  · rename_i hlater
    rw [grownIndex_sub, grownIndex_sub]
    exact credited_le_charged hterms hstate
      (AssetTerms.borrowRate_nonneg hterms (AssetState.utilization_nonneg hstate)) (by omega)

/-- Terms of an asset with a kink at 80 % and a reserve of 20 %. -/
def kinkedTerms : AssetTerms where
  oracle := 0
  decimals := 9
  collateralFactor := 8000
  liquidationThreshold := 8500
  liquidationBonus := 10500
  baseBorrowRate := 50
  borrowSlopeLow := 475
  borrowSlopeHigh := 23000
  supplySlopeLow := 0
  supplySlopeHigh := 0
  targetUtilization := 800000000000
  originationFee := 0
  dust := 1000
  maxTotalSupply := 0
  reserveFactor := 2000
  liquidationReserveFactor := 500
  minPrincipalForRewards := 0
  trackingSupplySpeed := 0
  trackingBorrowSpeed := 0

/-- An asset of which more is lent than supplied, at indices that have grown apart. -/
def overlentState : AssetState where
  supplyIndex := 1030000000007
  borrowIndex := 1100000000003
  totalSupply := 5000000000001
  totalBorrow := 5100000000007
  lastAccrual := 1700000000

theorem supplier_credit_le_borrower_charge_overlent :
    kinkedTerms.Nonneg ∧ overlentState.Nonneg ∧ indexScale < overlentState.utilization ∧
      let accrued := (kinkedTerms.project overlentState 1800000000).state
      let supply := scaled overlentState.supplyIndex overlentState.totalSupply indexScale
      (accrued.supplyIndex - overlentState.supplyIndex) * overlentState.totalSupply * supply ≤
        (accrued.borrowIndex - overlentState.borrowIndex + 1) * overlentState.totalBorrow * (supply + 1) :=
  ⟨by decide, by decide, by decide,
    supplier_credit_le_borrower_charge kinkedTerms overlentState 1800000000 (by decide) (by decide)⟩

end Solvency
