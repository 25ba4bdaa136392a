import Solvency.Proofs.Limits

/-! Deposits: more principal in an asset, as a supply or as the repayment of a debt, never makes a position worse. A
    balance grows with its principal across zero too, where the index changes, and everything else grows with the
    balance. -/

namespace Solvency

namespace Position
variable {position : Position} {state : AssetState} {asset key : Text} {principal principal' delta : Int}

theorem balanceOf_mono (hsupply : 0 ≤ state.supplyIndex) (hborrow : 0 ≤ state.borrowIndex) (h : principal ≤ principal') :
    balanceOf principal state ≤ balanceOf principal' state := by
  rcases Int.le_total 0 principal with hheld | howed
  · rw [balanceOf_of_nonneg hheld, balanceOf_of_nonneg (Int.le_trans hheld h)]
    exact scaled_le_scaled indexScale_pos (Int.mul_le_mul_of_nonneg_right h hsupply)
  · rcases Int.le_total principal' 0 with howed' | hheld'
    · rw [balanceOf_of_nonpos howed, balanceOf_of_nonpos howed']
      exact scaled_le_scaled indexScale_pos (Int.mul_le_mul_of_nonneg_right h hborrow)
    · -- the two principals are on different sides, each with its own index
      rw [balanceOf_of_nonpos howed, balanceOf_of_nonneg hheld']
      exact Int.le_trans (scaled_nonpos howed hborrow indexScale_pos)
        (scaled_nonneg hheld' hsupply (Int.le_of_lt indexScale_pos))

theorem principal_le_change (hdelta : 0 ≤ delta) (key : Text) :
    position.principal key ≤ (position.change asset delta).principal key := by
  rw [principal_change]
  split
  · rename_i hkey
    rw [hkey]
    omega
  · exact Int.le_refl _

end Position

namespace Assessment
variable {a : Assessment} {weight : AssetTerms → Int} {scale delta : Int} {asset : Text}

theorem balanceAt_le_change (nonnegative : a.Nonnegative) (hdelta : 0 ≤ delta) (key : Text) :
    a.balanceAt key ≤ (a.change asset delta).balanceAt key := by
  cases hstate : a.source.state key with
  | none => simp [balanceAt, change, hstate]
  | some state =>
    have hchanged : (a.change asset delta).balanceAt key = (a.position.change asset delta).balance key state :=
      balanceAt_of_state (a := a.change asset delta) hstate
    obtain ⟨hsupply, hborrow⟩ := nonnegative.indices key state hstate
    rw [balanceAt_of_state hstate, hchanged]
    exact Position.balanceOf_mono hsupply hborrow (Position.principal_le_change hdelta key)

theorem suppliedWorth_le_change (nonnegative : a.Nonnegative) (hdelta : 0 ≤ delta) (key : Text) :
    a.suppliedWorth key ≤ (a.change asset delta).suppliedWorth key := by
  have hbalance : a.balanceAt key ≤ (a.change asset delta).balanceAt key := balanceAt_le_change nonnegative hdelta key
  exact worthOf_mono (nonnegative.prices key) (by omega)

theorem owedWorth_change_le (nonnegative : a.Nonnegative) (hdelta : 0 ≤ delta) (key : Text) :
    (a.change asset delta).owedWorth key ≤ a.owedWorth key := by
  have hbalance : a.balanceAt key ≤ (a.change asset delta).balanceAt key := balanceAt_le_change nonnegative hdelta key
  exact worthOf_mono (nonnegative.prices key) (by omega)

theorem allowance_le_change (nonnegative : a.Nonnegative) (hdelta : 0 ≤ delta) (hscale : 0 < scale)
    (hweight : ∀ key terms, a.source.terms key = some terms → 0 ≤ weight terms) (key : Text) :
    a.allowance weight scale key ≤ (a.change asset delta).allowance weight scale key := by
  have hworth : a.suppliedWorth key ≤ (a.change asset delta).suppliedWorth key :=
    suppliedWorth_le_change nonnegative hdelta key
  cases hterms : a.source.terms key with
  | none => simp [allowance, change, hterms]
  | some terms =>
    have hchanged : (a.change asset delta).source.terms key = some terms := hterms
    simp only [allowance, hterms, hchanged, Option.map_some, Option.getD_some]
    exact scaled_le_scaled hscale (Int.mul_le_mul_of_nonneg_right hworth (hweight key terms hterms))

end Assessment

/-- A position that is given more principal in an asset is worth no less, may owe no less and owes no more; it has no less
    room for debt, and if it could not be liquidated, it still cannot. -/
theorem deposit_never_hurts (a : Assessment) (asset : Text) (delta : Int) (before after : HealthSnapshot)
    (coefficient : 0 < a.params.coefficientScale) (threshold : 0 < a.params.liquidationThresholdScale)
    (nonnegative : a.Nonnegative) (terms : ∀ key terms, a.source.terms key = some terms → terms.Nonneg)
    (hdelta : 0 ≤ delta) (hbefore : a.health = .ok before) (hafter : (a.change asset delta).health = .ok after) :
    before.totalSupply ≤ after.totalSupply ∧ before.totalLimit ≤ after.totalLimit ∧
      after.totalDebt ≤ before.totalDebt ∧
      (∃ room room', a.borrowable = .ok room ∧ (a.change asset delta).borrowable = .ok room' ∧ room ≤ room') ∧
      (before.isLiquidatable = false → after.isLiquidatable = false) := by
  have hfactors : ∀ key known, a.source.terms key = some known → 0 ≤ known.collateralFactor :=
    fun key known hknown => terms key known hknown _ (by simp [AssetTerms.fields])
  have hthresholds : ∀ key known, a.source.terms key = some known → 0 ≤ known.liquidationThreshold :=
    fun key known hknown => terms key known hknown _ (by simp [AssetTerms.fields])
  have hcoefficient := Int.ne_of_gt coefficient
  have hthreshold := Int.ne_of_gt threshold
  obtain ⟨hsupply, hdebt, hlimit⟩ := Assessment.totals_of_health hthreshold hbefore
  obtain ⟨hsupply', hdebt', hlimit'⟩ := Assessment.totals_of_health (a := a.change asset delta) hthreshold hafter
  have hworth : before.totalSupply ≤ after.totalSupply := by
    rw [hsupply, hsupply']
    exact List.sum_le_sum fun key _ => Assessment.suppliedWorth_le_change nonnegative hdelta key
  have howed : after.totalDebt ≤ before.totalDebt := by
    rw [hdebt, hdebt']
    exact List.sum_le_sum fun key _ => Assessment.owedWorth_change_le nonnegative hdelta key
  have hallowed : before.totalLimit ≤ after.totalLimit := by
    rw [hlimit, hlimit']
    exact List.sum_le_sum fun key _ =>
      Assessment.allowance_le_change nonnegative hdelta threshold hthresholds key
  refine ⟨hworth, hallowed, howed, ⟨_, _, Assessment.borrowable_of_health hcoefficient hthreshold hbefore,
    Assessment.borrowable_of_health (a := a.change asset delta) hcoefficient hthreshold hafter, ?_⟩, ?_⟩
  · refine Int.sub_le_sub ?_ howed
    exact List.sum_le_sum fun key _ => Assessment.allowance_le_change nonnegative hdelta coefficient hfactors key
  · simp only [HealthSnapshot.isLiquidatable, decide_eq_false_iff_not]
    omega

/-- The repayment of a debt with a little more than is owed, which turns the debt into a supply. -/
theorem deposit_never_hurts_repaid :
    let a := leveragedStore.assess leveragedPosition leveragedPrices.get?
    a.health = .ok leveragedHealth ∧ a.position.principal "2" = -1500003 ∧
      (a.change "2" 1500010).position.principal "2" = 7 ∧
      ∃ after, (a.change "2" 1500010).health = .ok after ∧ after.totalDebt = 0 ∧
        leveragedHealth.totalSupply ≤ after.totalSupply ∧ leveragedHealth.totalLimit ≤ after.totalLimit ∧
        (∃ room room', a.borrowable = .ok room ∧ (a.change "2" 1500010).borrowable = .ok room' ∧ room ≤ room') ∧
        after.isLiquidatable = false := by
  intro a
  have sound : a.Sound := AssetStore.sound_assess (by decide +kernel) (by decide +kernel) (by decide +kernel)
  have hbefore : a.health = .ok leveragedHealth := by decide +kernel
  obtain ⟨after, hafter, hdebt⟩ : ∃ after, (a.change "2" 1500010).health = .ok after ∧ after.totalDebt = 0 := ⟨{
    totalSupply := 16531507027, totalDebt := 0, totalLimit := 14051780972, greatestCollateralAsset := some 1
    greatestCollateralValue := 16531500027, greatestLoanAsset := none, greatestLoanValue := 0 },
    by decide +kernel, rfl⟩
  obtain ⟨hsupply, hlimit, -, hroom, hsafe⟩ := deposit_never_hurts a "2" 1500010 leveragedHealth after (by decide)
    (by decide) sound.nonnegative sound.terms (by decide) hbefore hafter
  exact ⟨hbefore, by decide +kernel, by decide +kernel, after, hafter, hdebt, hsupply, hlimit, hroom, hsafe (by decide)⟩

end Solvency
