import Solvency.Proofs.Debts
import Solvency.Proofs.Withdrawals

/-! Limits: the room for debt and the health of a position are read off the same lines. Supplies are weighted by one term
    of their asset or another, but they fail alike and owe alike, so that the two differ by the weights alone. -/

namespace Solvency
namespace Assessment

/-! ### Failures -/

section Failures
variable {a : Assessment} {weight weight' : AssetTerms → Int} {scale scale' : Int} {asset : Text × Int} {e : HealthError}

theorem line_error_reweighted (hscale : scale ≠ 0) (h : a.line weight scale asset = .error e) :
    a.line weight' scale' asset = .error e := by
  unfold Assessment.line at h ⊢
  split at h
  · cases h
  · rename_i hprincipal
    rw [if_neg hprincipal]
    rcases bind_eq_error.mp h with hdecoded | ⟨⟨terms, state⟩, hdecoded, h⟩
    · exact bind_of_eq_error hdecoded _
    · rw [bind_of_eq_ok hdecoded]
      simp only at h ⊢
      split at h
      · -- the weight comes last, where nothing can fail any more
        rename_i hpos
        rw [if_pos hpos]
        rcases bind_eq_error.mp h with hworth | ⟨worth, -, h⟩
        · exact bind_of_eq_error hworth _
        · rw [proportion_of_ne_zero hscale] at h
          cases h
      · rename_i hpos
        rw [if_neg hpos]
        exact h

theorem lines_error_iff (hscale : scale ≠ 0) (hscale' : scale' ≠ 0) :
    a.lines weight scale = .error e ↔ a.lines weight' scale' = .error e := by
  unfold Assessment.lines
  split
  · exact mapM_error_congr (fun _ _ _ => ⟨line_error_reweighted hscale, line_error_reweighted hscale'⟩) e
  · exact Iff.rfl

theorem health_eq_error :
    a.health = .error e ↔ a.lines AssetTerms.liquidationThreshold a.params.liquidationThresholdScale = .error e := by
  unfold Assessment.health
  rw [bind_eq_error]
  simp [pure, Except.pure]

theorem borrowable_eq_error :
    a.borrowable = .error e ↔ a.lines AssetTerms.collateralFactor a.params.coefficientScale = .error e := by
  unfold Assessment.borrowable
  rw [bind_eq_error]
  simp [pure, Except.pure]

end Failures

/-! ### Totals -/

section Totals
variable {a : Assessment} {health : HealthSnapshot} {weight weight' : AssetTerms → Int} {scale : Int} {key : Text}

/-- Where a position has a health, its room for debt is what its supplies allow as collateral, less its debt. -/
theorem borrowable_of_health (hcoefficient : a.params.coefficientScale ≠ 0)
    (hthreshold : a.params.liquidationThresholdScale ≠ 0) (h : a.health = .ok health) :
    a.borrowable = .ok ((a.source.keys.map (a.allowance AssetTerms.collateralFactor a.params.coefficientScale)).sum -
      health.totalDebt) := by
  obtain ⟨assets, hassets, happraisable, rfl⟩ := (health_eq_ok_iff hthreshold).mp h
  have hlines : a.lines AssetTerms.collateralFactor a.params.coefficientScale = .ok _ :=
    (lines_eq_ok_iff hcoefficient).mpr ⟨assets, hassets, happraisable, rfl⟩
  rw [borrowable_eq_ok]
  refine ⟨_, hlines, ?_⟩
  rw [← (AssetSource.assets?_inv hassets).1, total_appraised (limit_appraised a _ _),
    total_appraised (debtWorth_appraised a _ _)]
  exact congrArg _ (total_appraised (debtWorth_appraised a _ _) assets)

theorem suppliedWorth_nonneg (prices : ∀ price, a.prices key = some price → 0 ≤ price) : 0 ≤ a.suppliedWorth key := by
  have hworth := worthOf_mono prices (Int.le_max_right (a.balanceAt key) 0)
  rwa [worthOf_zero] at hworth

/-- A supply of an asset allows no less debt under a greater weight. -/
theorem allowance_le_allowance (prices : ∀ price, a.prices key = some price → 0 ≤ price) (hscale : 0 < scale)
    (h : 0 < a.balanceAt key → ∀ terms, a.source.terms key = some terms → weight terms ≤ weight' terms) :
    a.allowance weight scale key ≤ a.allowance weight' scale key := by
  rcases Int.lt_or_le 0 (a.balanceAt key) with hsupplied | hnone
  · cases hterms : a.source.terms key with
    | none => simp [allowance, hterms]
    | some terms =>
      simp only [allowance, hterms, Option.map_some, Option.getD_some]
      exact scaled_le_scaled hscale
        (Int.mul_le_mul_of_nonneg_left (h hsupplied terms hterms) (suppliedWorth_nonneg prices))
  · rw [allowance_of_nonpos hnone, allowance_of_nonpos hnone]

end Totals

end Assessment

/-- The room for debt fails exactly as the health does, and is otherwise what the supplies allow by their collateral
    factors, less the debt of the health. Where no supplied asset has a collateral factor above its liquidation
    threshold, the room lies within the limit, and a position with room is not liquidated. -/
theorem room_matches_health (a : Assessment) (scale : 0 < a.params.coefficientScale)
    (same : a.params.liquidationThresholdScale = a.params.coefficientScale)
    (prices : ∀ key price, a.prices key = some price → 0 ≤ price) :
    (∀ e, a.borrowable = .error e ↔ a.health = .error e) ∧
      ∀ health, a.health = .ok health → ∃ room, a.borrowable = .ok room ∧
        room = (a.source.keys.map (a.allowance AssetTerms.collateralFactor a.params.coefficientScale)).sum -
          health.totalDebt ∧
        ((∀ key ∈ a.source.keys, 0 < a.balanceAt key → ∀ terms, a.source.terms key = some terms →
            terms.collateralFactor ≤ terms.liquidationThreshold) →
          room ≤ health.totalLimit - health.totalDebt ∧ (0 ≤ room → health.isLiquidatable = false)) := by
  have hcoefficient : a.params.coefficientScale ≠ 0 := Int.ne_of_gt scale
  have hthreshold : a.params.liquidationThresholdScale ≠ 0 := same ▸ hcoefficient
  constructor
  · intro e
    rw [Assessment.borrowable_eq_error, Assessment.health_eq_error]
    exact Assessment.lines_error_iff hcoefficient hthreshold
  · intro health hhealth
    refine ⟨_, Assessment.borrowable_of_health hcoefficient hthreshold hhealth, rfl, fun hfactors => ?_⟩
    obtain ⟨-, -, hlimit⟩ := Assessment.totals_of_health hthreshold hhealth
    have hwithin : (a.source.keys.map (a.allowance AssetTerms.collateralFactor a.params.coefficientScale)).sum ≤
        health.totalLimit := by
      rw [hlimit, same]
      exact List.sum_le_sum fun key hkey => Assessment.allowance_le_allowance (prices key) scale (hfactors key hkey)
    refine ⟨by omega, fun hroom => ?_⟩
    rw [HealthSnapshot.isLiquidatable, decide_eq_false_iff_not]
    omega

def leveragedHealth : HealthSnapshot where
  totalSupply := 16531500027
  totalDebt := 1650003011
  totalLimit := 14051775022
  greatestCollateralAsset := some 1
  greatestCollateralValue := 16531500027
  greatestLoanAsset := some 2
  greatestLoanValue := 1650003011

/-- A position with room for more debt stays within its limit. -/
theorem room_matches_health_leveraged :
    let a := leveragedStore.assess leveragedPosition leveragedPrices.get?
    0 < a.params.coefficientScale ∧ a.params.liquidationThresholdScale = a.params.coefficientScale ∧
      a.health = .ok leveragedHealth ∧ a.borrowable = .ok 11575197010 ∧
      11575197010 ≤ leveragedHealth.totalLimit - leveragedHealth.totalDebt ∧
      leveragedHealth.isLiquidatable = false := by
  intro a
  have sound : a.Sound := AssetStore.sound_assess (by decide +kernel) (by decide +kernel) (by decide +kernel)
  have hhealth : a.health = .ok leveragedHealth := by decide +kernel
  have hroom : a.borrowable = .ok 11575197010 := by decide +kernel
  have hfactors : ∀ row ∈ leveragedStore.terms.rows, row.2.collateralFactor ≤ row.2.liquidationThreshold := by
    decide +kernel
  obtain ⟨room, hroom', -, hwithin⟩ := (room_matches_health a (by decide) rfl
    fun key price hprice => Int.le_of_lt (sound.price key price hprice)).2 leveragedHealth hhealth
  obtain rfl := Except.ok.inj (hroom'.symm.trans hroom)
  obtain ⟨hle, hsafe⟩ := hwithin fun key _ _ terms hterms => hfactors (key, terms) (Table.get?_eq_some.mp hterms)
  exact ⟨by decide, rfl, hhealth, hroom, hle, hsafe (by decide)⟩

end Solvency
