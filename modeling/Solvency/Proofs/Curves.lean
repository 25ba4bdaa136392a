import Mathlib.Algebra.Order.Field.Rat
import Mathlib.Tactic.Linarith
import Solvency.Proofs.Projections

/-! Rate curves: the rates of an asset follow its utilization. The borrow rate never falls as the utilization rises, on
    either side of the target and across it, and is less than two units below the curve that it is rounded from. What
    is borrowed on top raises the utilization and what is supplied on top lowers it, and with it all rates and indices. -/

namespace Solvency

/-! ### The curve -/

section Exact
variable {x y z : Int}

theorem cast_scaled_le (hz : 0 < z) (h : 0 ≤ x * y) : (scaled x y z : ℚ) ≤ x * y / z := by
  have hpos : (0 : ℚ) < z := by exact_mod_cast hz
  rw [le_div_iff₀ hpos]
  exact_mod_cast scaled_mul_le h

theorem lt_cast_scaled_add_one (hz : 0 < z) : (x * y / z : ℚ) < scaled x y z + 1 := by
  have hpos : (0 : ℚ) < z := by exact_mod_cast hz
  rw [div_lt_iff₀ hpos]
  exact_mod_cast lt_scaled_add_one_mul hz

end Exact

namespace AssetTerms

/-- The borrow rate without rounding: a line up to the target, and from there on a line of another slope. -/
def exactBorrowRate (terms : AssetTerms) (utilization : ℚ) : ℚ :=
  terms.baseBorrowRate + terms.borrowSlopeLow * min utilization terms.targetUtilization / indexScale
    + terms.borrowSlopeHigh * max (utilization - terms.targetUtilization) 0 / indexScale

section Curve
variable {terms : AssetTerms} {utilization utilization' : Int}

theorem Nonneg.curve (nonneg : terms.Nonneg) :
    0 ≤ terms.borrowSlopeLow ∧ 0 ≤ terms.borrowSlopeHigh ∧ 0 ≤ terms.targetUtilization :=
  ⟨nonneg _ (by simp [fields]), nonneg _ (by simp [fields]), nonneg _ (by simp [fields])⟩

theorem borrowRate_mono (hterms : terms.Nonneg) (h : utilization ≤ utilization') :
    terms.borrowRate utilization ≤ terms.borrowRate utilization' := by
  obtain ⟨hlow, hhigh, -⟩ := hterms.curve
  have below : ∀ {u u' : Int}, u ≤ u' →
      scaled terms.borrowSlopeLow u indexScale ≤ scaled terms.borrowSlopeLow u' indexScale := fun hle =>
    scaled_le_scaled indexScale_pos (Int.mul_le_mul_of_nonneg_left hle hlow)
  unfold borrowRate
  by_cases hbelow' : utilization' ≤ terms.targetUtilization
  · rw [if_pos hbelow', if_pos (by omega)]
    have hline := below h
    omega
  · rw [if_neg hbelow']
    by_cases hbelow : utilization ≤ terms.targetUtilization
    · -- across the kink, the rate at the target lies in between
      rw [if_pos hbelow]
      have hline := below hbelow
      have habove := scaled_nonneg hhigh (y := utilization' - terms.targetUtilization) (by omega)
        (Int.le_of_lt indexScale_pos)
      omega
    · rw [if_neg hbelow]
      have hline : scaled terms.borrowSlopeHigh (utilization - terms.targetUtilization) indexScale ≤
          scaled terms.borrowSlopeHigh (utilization' - terms.targetUtilization) indexScale :=
        scaled_le_scaled indexScale_pos (Int.mul_le_mul_of_nonneg_left (by omega) hhigh)
      omega

/-- Each of the two lines loses less than one unit. -/
theorem borrowRate_bounds (hterms : terms.Nonneg) (h : 0 ≤ utilization) :
    terms.exactBorrowRate utilization - 2 < terms.borrowRate utilization ∧
      terms.borrowRate utilization ≤ terms.exactBorrowRate utilization := by
  obtain ⟨hlow, hhigh, htarget⟩ := hterms.curve
  unfold borrowRate exactBorrowRate
  by_cases hbelow : utilization ≤ terms.targetUtilization
  · have hbelowCast : (utilization : ℚ) ≤ terms.targetUtilization := by exact_mod_cast hbelow
    have hle := cast_scaled_le indexScale_pos (Int.mul_nonneg hlow h)
    have hlt := lt_cast_scaled_add_one (x := terms.borrowSlopeLow) (y := utilization) indexScale_pos
    rw [if_pos hbelow, min_eq_left hbelowCast, max_eq_right (by linarith), mul_zero, zero_div, add_zero]
    push_cast
    constructor <;> linarith
  · have habove : 0 ≤ utilization - terms.targetUtilization := by omega
    have haboveCast : (terms.targetUtilization : ℚ) ≤ utilization := by exact_mod_cast Int.sub_nonneg.mp habove
    have hle := cast_scaled_le indexScale_pos (Int.mul_nonneg hlow htarget)
    have hlt := lt_cast_scaled_add_one (x := terms.borrowSlopeLow) (y := terms.targetUtilization) indexScale_pos
    have hle' := cast_scaled_le indexScale_pos (Int.mul_nonneg hhigh habove)
    have hlt' := lt_cast_scaled_add_one (x := terms.borrowSlopeHigh) (y := utilization - terms.targetUtilization)
      indexScale_pos
    rw [if_neg hbelow, min_eq_right haboveCast, max_eq_left (by linarith)]
    push_cast at hle' hlt' ⊢
    constructor <;> linarith

theorem supplyRate_mono {rate rate' : Int} (hrate : 0 ≤ rate) (hutilization : 0 ≤ utilization) (h : rate ≤ rate')
    (h' : utilization ≤ utilization') (hreserve : terms.reserveFactor ≤ reserveScale) :
    terms.supplyRate rate utilization ≤ terms.supplyRate rate' utilization' := by
  have hlent : scaled rate utilization indexScale ≤ scaled rate' utilization' indexScale :=
    scaled_le_scaled indexScale_pos (Int.mul_le_mul h h' hutilization (Int.le_trans hrate h))
  exact scaled_le_scaled (by decide) (Int.mul_le_mul_of_nonneg_right hlent (by omega))

end Curve

end AssetTerms

/-! ### Two states of one asset -/

theorem grownIndex_le_of_rate_le {index rate rate' elapsed : Int} (hindex : 0 ≤ index) (helapsed : 0 ≤ elapsed)
    (h : rate ≤ rate') : grownIndex index rate elapsed ≤ grownIndex index rate' elapsed := by
  have hinterest := Int.mul_le_mul_of_nonneg_right h helapsed
  exact Int.add_le_add_left (scaled_le_scaled indexScale_pos (Int.mul_le_mul_of_nonneg_left hinterest hindex)) index

namespace AssetState
variable {state : AssetState} {total : Int}

theorem Nonneg.with_totals (nonneg : state.Nonneg) {supply borrow : Int} (hsupply : 0 ≤ supply) (hborrow : 0 ≤ borrow) :
    { state with totalSupply := supply, totalBorrow := borrow }.Nonneg := by
  simp only [Nonneg, fields, List.forall_mem_cons] at nonneg ⊢
  obtain ⟨hsupplyIndex, hborrowIndex, -, -, hrest⟩ := nonneg
  exact ⟨hsupplyIndex, hborrowIndex, hsupply, hborrow, hrest⟩

theorem utilization_le_of_borrowed (nonneg : state.Nonneg) (h : state.totalBorrow ≤ total) :
    state.utilization ≤ { state with totalBorrow := total }.utilization := by
  obtain ⟨hsupplyIndex, hborrowIndex, htotalSupply, -⟩ := nonneg.amounts
  have hsupply := scaled_nonneg hsupplyIndex htotalSupply (Int.le_of_lt indexScale_pos)
  simp only [utilization]
  split
  · exact Int.le_refl 0
  · have hborrow : scaled state.borrowIndex state.totalBorrow indexScale ≤ scaled state.borrowIndex total indexScale :=
      scaled_le_scaled indexScale_pos (Int.mul_le_mul_of_nonneg_left h hborrowIndex)
    exact scaled_le_scaled (by omega) (Int.mul_le_mul_of_nonneg_right hborrow (Int.le_of_lt indexScale_pos))

theorem utilization_le_of_supplied (nonneg : state.Nonneg)
    (supplied : scaled state.supplyIndex state.totalSupply indexScale ≠ 0) (h : state.totalSupply ≤ total) :
    { state with totalSupply := total }.utilization ≤ state.utilization := by
  obtain ⟨hsupplyIndex, hborrowIndex, htotalSupply, htotalBorrow⟩ := nonneg.amounts
  have hsupply := scaled_nonneg hsupplyIndex htotalSupply (Int.le_of_lt indexScale_pos)
  have hmore : scaled state.supplyIndex state.totalSupply indexScale ≤ scaled state.supplyIndex total indexScale :=
    scaled_le_scaled indexScale_pos (Int.mul_le_mul_of_nonneg_left h hsupplyIndex)
  have hborrow := scaled_nonneg hborrowIndex htotalBorrow (Int.le_of_lt indexScale_pos)
  simp only [utilization]
  rw [if_neg supplied, if_neg (by omega)]
  exact scaled_anti (Int.mul_nonneg hborrow (Int.le_of_lt indexScale_pos)) (by omega) hmore

end AssetState

namespace AssetTerms

/-- The rates of an asset and its indices at any target are no lower in a busy state than in a calm one; for suppliers
    this holds unless the reserve takes more than the whole. -/
structure Follows (terms : AssetTerms) (calm busy : AssetState) : Prop where
  utilization : calm.utilization ≤ busy.utilization
  borrowRate : terms.borrowRate calm.utilization ≤ terms.borrowRate busy.utilization
  borrowIndex : ∀ target, (terms.project calm target).state.borrowIndex ≤ (terms.project busy target).state.borrowIndex
  supplyRate : terms.reserveFactor ≤ reserveScale →
    terms.supplyRate (terms.borrowRate calm.utilization) calm.utilization ≤
      terms.supplyRate (terms.borrowRate busy.utilization) busy.utilization
  supplyIndex : terms.reserveFactor ≤ reserveScale → ∀ target,
    (terms.project calm target).state.supplyIndex ≤ (terms.project busy target).state.supplyIndex

/-- All rates follow the utilization where the states differ in nothing but their totals. -/
theorem follows_of_utilization_le {terms : AssetTerms} {calm busy : AssetState} (hterms : terms.Nonneg)
    (hcalm : calm.Nonneg) (hsupplyIndex : busy.supplyIndex = calm.supplyIndex)
    (hborrowIndex : busy.borrowIndex = calm.borrowIndex) (hlast : busy.lastAccrual = calm.lastAccrual)
    (h : calm.utilization ≤ busy.utilization) : terms.Follows calm busy := by
  have hutilization := AssetState.utilization_nonneg hcalm
  have hborrowRate := borrowRate_mono hterms h
  have hsupplyRate : terms.reserveFactor ≤ reserveScale →
      terms.supplyRate (terms.borrowRate calm.utilization) calm.utilization ≤
        terms.supplyRate (terms.borrowRate busy.utilization) busy.utilization :=
    supplyRate_mono (borrowRate_nonneg hterms hutilization) hutilization hborrowRate h
  refine ⟨h, hborrowRate, fun target => ?_, hsupplyRate, fun hreserve target => ?_⟩
  · rw [project_state, project_state, hborrowIndex, hlast]
    exact grownIndex_le_of_rate_le hcalm.amounts.2.1 (Int.le_max_right _ 0) hborrowRate
  · rw [project_state, project_state, hsupplyIndex, hlast]
    exact grownIndex_le_of_rate_le hcalm.amounts.1 (Int.le_max_right _ 0) (hsupplyRate hreserve)

end AssetTerms

/-- The borrow rate never falls as the utilization rises, and is rounded down from its curve by less than two units. More
    borrowing raises the utilization, and with it rates and indices; more supply lowers them. -/
theorem rates_follow_utilization (terms : AssetTerms) (hterms : terms.Nonneg) :
    (∀ utilization utilization', 0 ≤ utilization → utilization ≤ utilization' →
      terms.borrowRate utilization ≤ terms.borrowRate utilization') ∧
    (∀ utilization : Int, 0 ≤ utilization →
      terms.exactBorrowRate utilization - 2 < terms.borrowRate utilization ∧
        terms.borrowRate utilization ≤ terms.exactBorrowRate utilization) ∧
    ∀ state : AssetState, state.Nonneg →
      (∀ total, state.totalBorrow ≤ total → terms.Follows state { state with totalBorrow := total }) ∧
      (scaled state.supplyIndex state.totalSupply indexScale ≠ 0 →
        ∀ total, state.totalSupply ≤ total → terms.Follows { state with totalSupply := total } state) := by
  refine ⟨fun _ _ _ => AssetTerms.borrowRate_mono hterms, fun _ => AssetTerms.borrowRate_bounds hterms, ?_⟩
  intro state hstate
  obtain ⟨-, -, htotalSupply, htotalBorrow⟩ := hstate.amounts
  constructor
  · intro total hmore
    exact AssetTerms.follows_of_utilization_le hterms hstate rfl rfl rfl
      (AssetState.utilization_le_of_borrowed hstate hmore)
  · intro supplied total hmore
    exact AssetTerms.follows_of_utilization_le hterms
      (hstate.with_totals (Int.le_trans htotalSupply hmore) htotalBorrow) rfl rfl rfl
      (AssetState.utilization_le_of_supplied hstate supplied hmore)

/-- The state in which more is lent than supplied, with a supply on top that brings it below the target. -/
theorem rates_follow_utilization_overlent :
    let calm := { overlentState with totalSupply := 9000000000001 }
    kinkedTerms.Nonneg ∧ overlentState.Nonneg ∧
      scaled overlentState.supplyIndex overlentState.totalSupply indexScale ≠ 0 ∧
      calm.utilization ≤ kinkedTerms.targetUtilization ∧ kinkedTerms.targetUtilization < overlentState.utilization ∧
      kinkedTerms.borrowRate calm.utilization ≤ kinkedTerms.borrowRate overlentState.utilization ∧
      kinkedTerms.exactBorrowRate overlentState.utilization - 2 < kinkedTerms.borrowRate overlentState.utilization ∧
      kinkedTerms.Follows calm overlentState ∧
      kinkedTerms.Follows overlentState { overlentState with totalBorrow := 6000000000000 } := by
  intro calm
  have hterms : kinkedTerms.Nonneg := by decide
  have hstate : overlentState.Nonneg := by decide
  have supplied : scaled overlentState.supplyIndex overlentState.totalSupply indexScale ≠ 0 := by decide
  obtain ⟨hmono, hbounds, hstates⟩ := rates_follow_utilization kinkedTerms hterms
  obtain ⟨hborrowed, hsupplied⟩ := hstates overlentState hstate
  exact ⟨hterms, hstate, supplied, by decide, by decide, hmono _ _ (by decide) (by decide), (hbounds _ (by decide)).1,
    hsupplied supplied _ (by decide), hborrowed _ (by decide)⟩

end Solvency
