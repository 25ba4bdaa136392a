import Solvency.Health.Snapshot
import Solvency.Proofs.Roundings

/-! Where the health factor draws the line: the rounded ratio of debt and limit reaches one before the debt reaches the
    limit, and a ratio beyond the largest binary64 value gives no factor. -/

namespace Solvency
open Binary64

namespace HealthSnapshot

theorem clamp_of_not_exceeds {v : Binary64} (h : ¬ v.exceeds 0 = true) : clamp v = ofInt 0 := by
  have hone : ¬ (ofInt 0).exceeds 1 = true := by
    rw [exceeds_iff number_ofInt_zero]
    norm_num
  simp only [clamp, if_neg h, if_neg hone]

theorem clamp_of_exceeds {v : Binary64} (h : v.exceeds 0 = true) :
    ∃ x, (clamp v).number? = some x ∧ 0 < x ∧ x ≤ 1 := by
  rw [clamp, if_pos h]
  by_cases hone : v.exceeds 1 = true
  · rw [if_pos hone]
    exact ⟨1, number_ofInt_one, zero_lt_one, le_rfl⟩
  · rw [if_neg hone]
    match v, h, hone with
    | .finite negative m e, hpos, hone =>
      rw [exceeds_iff rfl, Int.cast_zero] at hpos
      rw [exceeds_iff rfl, Int.cast_one, not_lt] at hone
      exact ⟨_, rfl, hpos, hone⟩
    | .infinite negative, hpos, hone => exact absurd hpos hone

/-- A value held between zero and one is a number between them, and zero where the value was not above it. -/
theorem clamp_number (v : Binary64) :
    ∃ x, (clamp v).number? = some x ∧ 0 ≤ x ∧ x ≤ 1 ∧ (x = 0 ↔ ¬ v.exceeds 0 = true) := by
  by_cases h : v.exceeds 0 = true
  · obtain ⟨x, hx, hpos, hle⟩ := clamp_of_exceeds h
    exact ⟨x, hx, hpos.le, hle, iff_of_false hpos.ne' (not_not.2 h)⟩
  · rw [clamp_of_not_exceeds h]
    exact ⟨0, number_ofInt_zero, le_rfl, zero_le_one, iff_of_true rfl h⟩

/-- The factor is a number from zero to one that draws the line where the limit is. -/
def DrawsLimit (h : HealthSnapshot) : Prop :=
  ∃ factor x, h.healthFactor = .ok factor ∧ factor.number? = some x ∧ 0 ≤ x ∧ x ≤ 1 ∧
    (x = 0 ↔ h.totalLimit ≤ h.totalDebt) ∧ (h.totalDebt = 0 → x = 1)

variable {h : HealthSnapshot}

theorem healthFactor_eq (limit : 0 < h.totalLimit) :
    h.healthFactor = (ofQuotient h.totalDebt h.totalLimit >>= fun ratio => pure (clamp ((ofInt 1).sub ratio))) := by
  rw [healthFactor, if_neg (not_le.2 limit)]

theorem healthFactor_of_overflow (limit : 0 < h.totalLimit) (beyond : overflowRatio * h.totalLimit ≤ h.totalDebt) :
    h.healthFactor = .error .tooLarge := by
  have debt : 0 ≤ h.totalDebt := le_trans (mul_nonneg (Int.natCast_nonneg _) limit.le) beyond
  obtain ⟨d, hd⟩ := Int.eq_ofNat_of_zero_le debt
  obtain ⟨l, hl⟩ := Int.eq_ofNat_of_zero_le limit.le
  rw [hl] at limit
  rw [hd, hl] at beyond
  rw [healthFactor_eq (hl ▸ limit), hd, hl, ofQuotient_tooLarge (by exact_mod_cast limit) (by exact_mod_cast beyond)]
  rfl

/-- Below the overflow there is a factor, which is zero from a quarter of the unit of one below the limit on. -/
theorem healthFactor_of_lt_overflow (limit : 0 < h.totalLimit) (debt : 0 ≤ h.totalDebt)
    (hunder : h.totalDebt < overflowRatio * h.totalLimit) :
    ∃ factor x, h.healthFactor = .ok factor ∧ factor.number? = some x ∧ 0 ≤ x ∧ x ≤ 1 ∧
      (x = 0 ↔ (Nat.pow 2 54 - 1) * h.totalLimit ≤ Nat.pow 2 54 * h.totalDebt) ∧
      (h.isLiquidatable = true → x = 0) ∧ (h.totalDebt = 0 → x = 1) := by
  obtain ⟨d, hd⟩ := Int.eq_ofNat_of_zero_le debt
  obtain ⟨l, hl⟩ := Int.eq_ofNat_of_zero_le limit.le
  have hpos : 0 < l := by omega
  rw [hd, hl] at hunder
  obtain ⟨m, e, hratio, he, hvalue⟩ := ofQuotient_finite hpos (by exact_mod_cast hunder)
  obtain ⟨x, hx, hlow, hhigh, hzero⟩ := clamp_number ((ofInt 1).sub (.finite false m e))
  rw [healthFactor_eq limit, hd, hl, hratio]
  have hline : x = 0 ↔ (Nat.pow 2 54 - 1) * (l : Int) ≤ Nat.pow 2 54 * d := by
    rw [hzero, exceeds_zero_one_sub he, hvalue, not_lt, one_le_nearest_iff hpos, ← Int.ofNat_le]
    push_cast
    rfl
  refine ⟨_, x, rfl, hx, hlow, hhigh, hline, ?_, ?_⟩
  · rw [isLiquidatable, decide_eq_true_iff, hline, show Nat.pow 2 54 = 18014398509481984 from rfl]
    omega
  · intro hnone
    rw [Int.natCast_eq_zero] at hnone
    subst hnone
    have hzero : ofQuotient (0 : Nat) l = .ok (zero false) := ofQuotient_of_finite hpos rfl
    have hvalue : zero false = .finite false m e := Except.ok.inj (hzero.symm.trans hratio)
    have hfull : clamp ((ofInt 1).sub (zero false)) = ofInt 1 := by decide +kernel
    rw [← hvalue, hfull, number_ofInt_one] at hx
    exact (Option.some.inj hx).symm

/-- The factor draws the line where the limit is, unless the debt is below the limit by so little that their ratio is
    rounded to one, or so far above it that the ratio is no value. -/
theorem healthFactor_draws_limit_iff (h : HealthSnapshot) (limit : 0 < h.totalLimit) (debt : 0 ≤ h.totalDebt) :
    (overflowRatio * h.totalLimit ≤ h.totalDebt → h.healthFactor = .error .tooLarge) ∧
    (h.totalDebt < overflowRatio * h.totalLimit → ∃ factor x, h.healthFactor = .ok factor ∧
      factor.number? = some x ∧ 0 ≤ x ∧ x ≤ 1 ∧
      (x = 0 ↔ (Nat.pow 2 54 - 1) * h.totalLimit ≤ Nat.pow 2 54 * h.totalDebt) ∧
      (h.isLiquidatable = true → x = 0) ∧ (h.totalDebt = 0 → x = 1)) ∧
    (h.DrawsLimit ↔ h.totalDebt < overflowRatio * h.totalLimit ∧
      (h.totalDebt < h.totalLimit → Nat.pow 2 54 * h.totalDebt < (Nat.pow 2 54 - 1) * h.totalLimit)) := by
  refine ⟨healthFactor_of_overflow limit, healthFactor_of_lt_overflow limit debt, ?_, ?_⟩
  · rintro ⟨factor, x, hfactor, hx, -, -, hzero, -⟩
    have hunder : h.totalDebt < overflowRatio * h.totalLimit := by
      by_contra hover
      rw [healthFactor_of_overflow limit (not_lt.1 hover)] at hfactor
      cases hfactor
    obtain ⟨factor', x', hfactor', hx', -, -, hzero', -, -⟩ := healthFactor_of_lt_overflow limit debt hunder
    cases hfactor.symm.trans hfactor'
    cases hx.symm.trans hx'
    refine ⟨hunder, fun hbelow => ?_⟩
    rwa [← not_le, ← hzero', hzero, not_le]
  · rintro ⟨hunder, hgap⟩
    obtain ⟨factor, x, hfactor, hx, hlow, hhigh, hzero, -, hone⟩ := healthFactor_of_lt_overflow limit debt hunder
    rw [show Nat.pow 2 54 = 18014398509481984 from rfl] at hgap hzero
    refine ⟨factor, x, hfactor, hx, hlow, hhigh, hzero.trans ⟨fun hreach => ?_, fun hreach => ?_⟩, hone⟩ <;> omega

/-- With a limit of two to the power 54, a debt two below it is the largest one whose ratio does not reach one. -/
def twoBelow : HealthSnapshot := { totalDebt := 18014398509481982, totalLimit := 18014398509481984 }

theorem healthFactor_draws_limit_iff_twoBelow :
    (0 < twoBelow.totalLimit ∧ 0 ≤ twoBelow.totalDebt) ∧ twoBelow.DrawsLimit := by
  have limit : 0 < twoBelow.totalLimit := by decide
  have debt : 0 ≤ twoBelow.totalDebt := by decide
  exact ⟨⟨limit, debt⟩, (healthFactor_draws_limit_iff twoBelow limit debt).2.2.2 (by decide +kernel)⟩

def oneBelow : HealthSnapshot := { totalDebt := 18014398509481983, totalLimit := 18014398509481984 }

def farAbove : HealthSnapshot := { totalDebt := Nat.pow 10 400, totalLimit := 1 }

/-- One below the limit the factor is zero although nothing can be liquidated, and a debt beyond every value has no
    factor although it can be. -/
theorem healthFactor_misses_limit :
    (oneBelow.totalDebt < oneBelow.totalLimit ∧ oneBelow.isLiquidatable = false ∧
      oneBelow.healthFactor = .ok (.ofInt 0) ∧ ¬ oneBelow.DrawsLimit) ∧
    (farAbove.isLiquidatable = true ∧ farAbove.healthFactor = .error .tooLarge ∧ ¬ farAbove.DrawsLimit) := by
  constructor
  · have hzero : oneBelow.healthFactor = .ok (.ofInt 0) := by decide +kernel
    refine ⟨by decide, by decide, hzero, ?_⟩
    rintro ⟨factor, x, hfactor, hx, -, -, hline, -⟩
    cases hzero.symm.trans hfactor
    cases number_ofInt_zero.symm.trans hx
    exact absurd (hline.1 rfl) (by decide)
  · have herror : farAbove.healthFactor = .error .tooLarge := by decide +kernel
    refine ⟨by decide +kernel, herror, ?_⟩
    rintro ⟨factor, x, hfactor, -⟩
    cases herror.symm.trans hfactor

end HealthSnapshot

end Solvency
