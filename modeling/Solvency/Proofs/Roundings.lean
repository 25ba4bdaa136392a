import Mathlib.Algebra.Order.Field.Power
import Mathlib.Algebra.Order.Field.Rat
import Mathlib.Tactic.Linarith
import Mathlib.Tactic.NormNum
import Mathlib.Tactic.Positivity
import Mathlib.Tactic.Ring
import Solvency.Binary64.Basic

/-! Roundings to binary64 as rational numbers: from which ratios on a power of two is reached, when the largest value is
    passed, and on which side of zero a difference comes out. -/

namespace Solvency.Binary64

variable {num den : Nat} {a b : Binary64} {x y : ℚ} {e j : Int}

/-- The rational number of a finite value. -/
def number? : Binary64 → Option ℚ
  | .finite negative m e => some ((if negative then -(m : ℚ) else m) * 2 ^ e)
  | _ => none

/-! ### The unit -/

theorem belowPower_iff (hden : 0 < den) : ∀ e, belowPower num den e = true ↔ (num : ℚ) / den < 2 ^ e
  | .ofNat k => by
    have hpos : (0 : ℚ) < den := by exact_mod_cast hden
    rw [belowPower, decide_eq_true_iff, div_lt_iff₀ hpos, Int.ofNat_eq_natCast, zpow_natCast, mul_comm ((2 : ℚ) ^ k)]
    exact_mod_cast Iff.rfl
  | .negSucc k => by
    have hpos : (0 : ℚ) < den := by exact_mod_cast hden
    rw [belowPower, decide_eq_true_iff, div_lt_iff₀ hpos, zpow_negSucc, inv_mul_eq_div, lt_div_iff₀ (by positivity)]
    exact_mod_cast Iff.rfl

theorem ratio_between_powers (hnum : 0 < num) (hden : 0 < den) :
    (2 : ℚ) ^ ((num.log2 : Int) - den.log2 - 1) ≤ num / den ∧
      (num : ℚ) / den < 2 ^ ((num.log2 : Int) - den.log2 + 1) := by
  have hpos : (0 : ℚ) < den := by exact_mod_cast hden
  have hnumLow : (2 : ℚ) ^ num.log2 ≤ num := by exact_mod_cast Nat.log2_self_le hnum.ne'
  have hnumHigh : (num : ℚ) < 2 ^ (num.log2 + 1) := by exact_mod_cast Nat.lt_log2_self
  have hdenLow : (2 : ℚ) ^ den.log2 ≤ den := by exact_mod_cast Nat.log2_self_le hden.ne'
  have hdenHigh : (den : ℚ) < 2 ^ (den.log2 + 1) := by exact_mod_cast Nat.lt_log2_self
  constructor
  · rw [le_div_iff₀ hpos]
    calc (2 : ℚ) ^ ((num.log2 : Int) - den.log2 - 1) * den
        ≤ 2 ^ ((num.log2 : Int) - den.log2 - 1) * 2 ^ (den.log2 + 1) := by gcongr
      _ = 2 ^ num.log2 := by
          rw [← zpow_natCast, ← zpow_natCast, ← zpow_add₀ two_ne_zero]
          congr 1
          push_cast
          ring
      _ ≤ num := hnumLow
  · rw [div_lt_iff₀ hpos]
    calc (num : ℚ) < 2 ^ (num.log2 + 1) := hnumHigh
      _ = 2 ^ ((num.log2 : Int) - den.log2 + 1) * 2 ^ den.log2 := by
          rw [← zpow_natCast, ← zpow_natCast, ← zpow_add₀ two_ne_zero]
          congr 1
          push_cast
          ring
      _ ≤ 2 ^ ((num.log2 : Int) - den.log2 + 1) * den := by gcongr

theorem leastExponent_le_unitExponent (num den : Nat) : leastExponent ≤ unitExponent num den := Int.le_max_right ..

theorem ratio_lt_unit (hnum : 0 < num) (hden : 0 < den) : (num : ℚ) / den < 2 ^ (unitExponent num den + 53) := by
  -- the numbers of digits leave two candidates for the power below the ratio, and a comparison has chosen the right one
  have hhigh := (ratio_between_powers hnum hden).2
  rw [unitExponent]
  split
  next hbelow =>
    refine ((belowPower_iff hden _).1 hbelow).trans_le (zpow_le_zpow_right₀ one_le_two ?_)
    omega
  next => exact hhigh.trans_le (zpow_le_zpow_right₀ one_le_two (by omega))

/-- Above the least exponent a ratio has all its 53 digits before the point. -/
theorem unit_le_ratio (hnum : 0 < num) (hden : 0 < den) (h : leastExponent < unitExponent num den) :
    (2 : ℚ) ^ (unitExponent num den + 52) ≤ num / den := by
  have hlow := (ratio_between_powers hnum hden).1
  rw [unitExponent] at h ⊢
  split at h
  next hbelow =>
    rw [if_pos hbelow]
    exact (zpow_le_zpow_right₀ one_le_two (by omega)).trans hlow
  next hbelow =>
    rw [if_neg hbelow]
    refine le_trans (zpow_le_zpow_right₀ one_le_two ?_) (not_lt.1 fun hlt => hbelow ((belowPower_iff hden _).2 hlt))
    omega

/-! ### The nearest number of units -/

/-- A ratio is rounded to `k` or more from half below `k` on, that half itself counting for an even `k`. -/
theorem le_roundHalfEven_iff (hden : 0 < den) {k : Nat} : k ≤ roundHalfEven num den ↔
    (k : ℚ) - 1 / 2 < num / den ∨ ((k : ℚ) - 1 / 2 = num / den ∧ k % 2 = 0) := by
  have hpos : (0 : ℚ) < den := by exact_mod_cast hden
  have hlt : (k : ℚ) - 1 / 2 < num / den ↔ 2 * (k * den) < 2 * num + den := by
    rw [lt_div_iff₀ hpos, ← Nat.cast_lt (α := ℚ)]
    push_cast
    constructor <;> intro h <;> linarith
  have heq : (k : ℚ) - 1 / 2 = num / den ↔ 2 * (k * den) = 2 * num + den := by
    rw [eq_div_iff hpos.ne', ← Nat.cast_inj (R := ℚ)]
    push_cast
    constructor <;> intro h <;> linarith
  have hsplit : num / den * den + num % den = num := Nat.div_add_mod' num den
  have hrest : num % den < den := Nat.mod_lt num hden
  rw [hlt, heq, roundHalfEven]
  generalize num / den = q at hsplit ⊢
  generalize num % den = r at hsplit hrest ⊢
  -- Only the number after the quotient depends on the rest: all before it are reached, none after it is.
  obtain hk | rfl | hk : k ≤ q ∨ k = q + 1 ∨ q + 2 ≤ k := by omega
  · have hmul : k * den ≤ q * den := Nat.mul_le_mul_right den hk
    split <;> omega
  · rw [Nat.add_one_mul q den]
    split <;> omega
  · have hmul : (q + 2) * den ≤ k * den := Nat.mul_le_mul_right den hk
    rw [Nat.add_mul] at hmul
    split <;> omega

theorem le_steps_iff (hden : 0 < den) {k : Nat} : k ≤ steps num den e ↔
    ((k : ℚ) - 1 / 2) * 2 ^ e < num / den ∨ (((k : ℚ) - 1 / 2) * 2 ^ e = num / den ∧ k % 2 = 0) := by
  have hunit : (0 : ℚ) < 2 ^ e := by positivity
  rw [← lt_div_iff₀ hunit, ← eq_div_iff hunit.ne']
  cases e with
  | ofNat i =>
    have hscaled : 0 < den * Nat.pow 2 i := Nat.mul_pos hden (Nat.pow_pos two_pos)
    rw [steps, le_roundHalfEven_iff hscaled, Int.ofNat_eq_natCast, zpow_natCast, div_div]
    push_cast [Nat.pow_eq]
    exact Iff.rfl
  | negSucc i =>
    rw [steps, le_roundHalfEven_iff hden, zpow_negSucc, div_inv_eq_mul, div_mul_eq_mul_div]
    push_cast [Nat.pow_eq]
    exact Iff.rfl

/-! ### The nearest value -/

/-- What a ratio is rounded to while the exponent has no upper end. -/
def nearest (num den : Nat) : ℚ := steps num den (unitExponent num den) * 2 ^ unitExponent num den

theorem hiddenBit_mul_zpow (e : Int) : (hiddenBit : ℚ) * 2 ^ e = 2 ^ (e + 52) := by
  rw [zpow_add₀ two_ne_zero, mul_comm]
  norm_num [hiddenBit]

theorem two_mul_hiddenBit_mul_zpow (e : Int) : (2 * hiddenBit : ℚ) * 2 ^ e = 2 ^ (e + 53) := by
  rw [mul_assoc, hiddenBit_mul_zpow, ← zpow_one_add₀ two_ne_zero]
  congr 1
  ring

theorem steps_zero (hden : 0 < den) : steps 0 den e = 0 := by
  cases e <;> simp [steps, roundHalfEven, hden]

/-- A significand has its 53 digits, or is the first number with one more, unless the exponent is the least. -/
theorem steps_le (hnum : 0 < num) (hden : 0 < den) : steps num den (unitExponent num den) ≤ 2 * hiddenBit := by
  have hratio := ratio_lt_unit hnum hden
  rw [← two_mul_hiddenBit_mul_zpow] at hratio
  have hunit : (0 : ℚ) < 2 ^ unitExponent num den := by positivity
  by_contra hlt
  have h := (le_steps_iff hden).1 (Nat.lt_of_not_le hlt)
  push_cast at h
  rcases h with h | ⟨h, -⟩ <;> linarith

theorem hiddenBit_le_steps (hnum : 0 < num) (hden : 0 < den) (h : leastExponent < unitExponent num den) :
    hiddenBit ≤ steps num den (unitExponent num den) := by
  have hratio := unit_le_ratio hnum hden h
  rw [← hiddenBit_mul_zpow] at hratio
  have hunit : (0 : ℚ) < 2 ^ unitExponent num den := by positivity
  rw [le_steps_iff hden]
  left
  linarith

theorem nearest_zero (hden : 0 < den) : nearest 0 den = 0 := by
  rw [nearest, steps_zero hden, Nat.cast_zero, zero_mul]

theorem nearest_pos (hnum : 0 < num) (hden : 0 < den) (h : (2 : ℚ) ^ leastExponent ≤ num / den) :
    0 < nearest num den := by
  have hunit : (0 : ℚ) < 2 ^ unitExponent num den := by positivity
  have hone : 1 ≤ steps num den (unitExponent num den) := by
    rcases (leastExponent_le_unitExponent num den).eq_or_lt with hleast | hleast
    · rw [hleast] at h
      refine (le_steps_iff hden).2 (.inl (lt_of_lt_of_le ?_ h))
      push_cast
      linarith
    · have hdigits := hiddenBit_le_steps hnum hden hleast
      rw [hiddenBit] at hdigits
      omega
  exact mul_pos (by exact_mod_cast hone) hunit

/-- A power of two is reached from a quarter of its unit below it on. -/
theorem zpow_le_nearest_iff (hden : 0 < den) (hj : leastExponent + 53 ≤ j) :
    2 ^ j ≤ nearest num den ↔ (2 : ℚ) ^ j - 2 ^ (j - 54) ≤ num / den := by
  obtain rfl | hnum := num.eq_zero_or_pos
  · have hpos : (0 : ℚ) < 2 ^ j := by positivity
    have hless : (2 : ℚ) ^ (j - 54) < 2 ^ j := zpow_lt_zpow_right₀ one_lt_two (by omega)
    rw [nearest_zero hden, Nat.cast_zero, zero_div]
    apply iff_of_false <;> linarith
  have hhigh := ratio_lt_unit hnum hden
  have hlow := unit_le_ratio hnum hden
  have hsteps : (steps num den (unitExponent num den) : ℚ) ≤ 2 * hiddenBit := by exact_mod_cast steps_le hnum hden
  have hdigits := hiddenBit_le_steps hnum hden
  have heven : 2 * hiddenBit ≤ steps num den (unitExponent num den) ↔ _ := le_steps_iff hden
  rw [nearest]
  generalize unitExponent num den = u at *
  generalize steps num den u = m at *
  have hunit : (0 : ℚ) < 2 ^ u := by positivity
  -- where the power is `2 ^ 53` units, the last half unit decides; elsewhere ratio and value lie on the same side of it
  rcases lt_trichotomy (j - 53) u with habove | hat | hbelow
  · have hpow : (2 : ℚ) ^ j ≤ 2 ^ (u + 52) := zpow_le_zpow_right₀ one_le_two (by omega)
    have hpos : (0 : ℚ) < 2 ^ (j - 54) := by positivity
    have hleast : leastExponent < u := by omega
    refine iff_of_true ?_ (by linarith [hlow hleast])
    calc (2 : ℚ) ^ j ≤ hiddenBit * 2 ^ u := by rwa [hiddenBit_mul_zpow]
      _ ≤ m * 2 ^ u := by
          gcongr
          exact_mod_cast hdigits hleast
  · have hj : (2 : ℚ) ^ j = 2 * hiddenBit * 2 ^ u := by rw [two_mul_hiddenBit_mul_zpow, ← hat, sub_add_cancel]
    have hhalf : (2 : ℚ) ^ (j - 54) = 1 / 2 * 2 ^ u := by
      rw [← hat, show j - 53 = j - 54 + 1 by ring, zpow_add_one₀ two_ne_zero]
      ring
    have hreach : (2 * hiddenBit : ℚ) * 2 ^ u ≤ m * 2 ^ u ↔ 2 * hiddenBit ≤ m := by
      rw [mul_le_mul_iff_left₀ hunit]
      exact_mod_cast Iff.rfl
    rw [hj, hhalf, hreach, heven, ← sub_mul, le_iff_lt_or_eq]
    push_cast
    simp
  · have hpow : (2 : ℚ) ^ (u + 53) ≤ 2 ^ (j - 1) := zpow_le_zpow_right₀ one_le_two (by omega)
    have hless : (2 : ℚ) ^ (j - 54) < 2 ^ (j - 1) := zpow_lt_zpow_right₀ one_lt_two (by omega)
    have hdouble : (2 : ℚ) ^ j = 2 * 2 ^ (j - 1) := by rw [← zpow_one_add₀ two_ne_zero, add_sub_cancel]
    have hvalue : (m : ℚ) * 2 ^ u ≤ 2 ^ (u + 53) := by
      rw [← two_mul_hiddenBit_mul_zpow]
      gcongr
    have hpos : (0 : ℚ) < 2 ^ (j - 1) := by positivity
    apply iff_of_false <;> linarith

/-- The ratio halfway from the largest value to the power of two that follows it. -/
def overflowRatio : Nat := (Nat.pow 2 54 - 1) * Nat.pow 2 (greatestExponent.toNat - 1)

theorem overflow_le_nearest_iff (hden : 0 < den) :
    2 ^ (greatestExponent + 53) ≤ nearest num den ↔ overflowRatio * den ≤ num := by
  have hpos : (0 : ℚ) < den := by exact_mod_cast hden
  have hhalf : ((greatestExponent.toNat - 1 : Nat) : Int) = greatestExponent - 1 := rfl
  have hratio : (2 : ℚ) ^ (greatestExponent + 53) - 2 ^ (greatestExponent + 53 - 54) = overflowRatio := by
    rw [overflowRatio, show greatestExponent + 53 = 54 + (greatestExponent - 1) by ring, zpow_add₀ two_ne_zero,
      show (54 : Int) + (greatestExponent - 1) - 54 = greatestExponent - 1 by ring, ← hhalf, zpow_natCast]
    push_cast [Nat.pow_eq]
    ring
  rw [zpow_le_nearest_iff hden (by decide), hratio, le_div_iff₀ hpos]
  exact_mod_cast Iff.rfl

theorem one_le_nearest_iff (hden : 0 < den) :
    1 ≤ nearest num den ↔ (Nat.pow 2 54 - 1) * den ≤ Nat.pow 2 54 * num := by
  have hpos : (0 : ℚ) < den := by exact_mod_cast hden
  have hone : 2 ^ (0 : Int) ≤ nearest num den ↔ _ := zpow_le_nearest_iff hden (by decide)
  rw [zpow_zero, le_div_iff₀ hpos] at hone
  rw [hone, ← Nat.cast_le (α := ℚ)]
  norm_num
  constructor <;> intro h <;> linarith

/-! ### Values of a ratio -/

/-- Rounded up to one more digit, a significand is carried into the exponent, and only past the greatest exponent is
    the value lost. -/
theorem ofSteps_finite {m : Nat} (hm : m ≤ 2 * hiddenBit) (he : e ≤ leastExponent ∨ hiddenBit ≤ m)
    (hlt : (m : ℚ) * 2 ^ e < 2 ^ (greatestExponent + 53)) (negative : Bool) :
    ∃ m' e', ofSteps negative m e = .finite negative m' e' ∧ e ≤ e' ∧ (m' : ℚ) * 2 ^ e' = m * 2 ^ e := by
  by_cases hcarry : m = 2 * hiddenBit
  · subst hcarry
    push_cast at hlt ⊢
    rw [two_mul_hiddenBit_mul_zpow] at hlt ⊢
    have hexp := (zpow_lt_zpow_iff_right₀ one_lt_two).1 hlt
    have hkept : ¬ greatestExponent < e + 1 := by omega
    refine ⟨hiddenBit, e + 1, by simp [ofSteps, hkept], by omega, ?_⟩
    rw [hiddenBit_mul_zpow, add_assoc]
    rfl
  · have hkept : ¬ greatestExponent < e := by
      rcases he with he | he
      · exact not_lt.2 (he.trans (by decide))
      · have hpow : (2 : ℚ) ^ (e + 52) < 2 ^ (greatestExponent + 53) := by
          refine lt_of_le_of_lt ?_ hlt
          rw [← hiddenBit_mul_zpow]
          gcongr
        have hexp := (zpow_lt_zpow_iff_right₀ one_lt_two).1 hpow
        omega
    exact ⟨m, e, by simp [ofSteps, hcarry, hkept], le_rfl, rfl⟩

theorem ofSteps_infinite {m : Nat} (hm : m ≤ 2 * hiddenBit) (hle : (2 : ℚ) ^ (greatestExponent + 53) ≤ m * 2 ^ e)
    (negative : Bool) : ofSteps negative m e = .infinite negative := by
  by_cases hcarry : m = 2 * hiddenBit
  · subst hcarry
    push_cast at hle
    rw [two_mul_hiddenBit_mul_zpow] at hle
    have hexp := (zpow_le_zpow_iff_right₀ one_lt_two).1 hle
    have hlost : greatestExponent < e + 1 := by omega
    simp [ofSteps, hlost]
  · have hpow : (2 : ℚ) ^ (greatestExponent + 53) < 2 ^ (e + 53) := by
      refine lt_of_le_of_lt hle ?_
      rw [← two_mul_hiddenBit_mul_zpow]
      gcongr
      exact_mod_cast lt_of_le_of_ne hm hcarry
    have hlost : greatestExponent < e := by
      have hexp := (zpow_lt_zpow_iff_right₀ one_lt_two).1 hpow
      omega
    simp [ofSteps, hcarry, hlost]

theorem ofRatio_finite (hden : 0 < den) (hlt : nearest num den < 2 ^ (greatestExponent + 53)) (negative : Bool) :
    ∃ m e, ofRatio negative num den = .finite negative m e ∧ leastExponent ≤ e ∧ (m : ℚ) * 2 ^ e = nearest num den := by
  rw [ofRatio]
  split
  next hzero => exact ⟨0, leastExponent, rfl, le_rfl, by rw [hzero, nearest_zero hden, Nat.cast_zero, zero_mul]⟩
  next hzero =>
    have hnum : 0 < num := Nat.pos_of_ne_zero hzero
    have hdigits : unitExponent num den ≤ leastExponent ∨ hiddenBit ≤ steps num den (unitExponent num den) :=
      (le_or_gt _ _).imp_right (hiddenBit_le_steps hnum hden)
    obtain ⟨m, e, hvalue, he, hsame⟩ := ofSteps_finite (steps_le hnum hden) hdigits hlt negative
    exact ⟨m, e, hvalue, (leastExponent_le_unitExponent num den).trans he, hsame⟩

theorem ofRatio_infinite (hden : 0 < den) (hle : 2 ^ (greatestExponent + 53) ≤ nearest num den) (negative : Bool) :
    ofRatio negative num den = .infinite negative := by
  rw [ofRatio]
  split
  next hzero =>
    rw [hzero, nearest_zero hden] at hle
    exact absurd hle (not_le.2 (by positivity))
  next hzero => exact ofSteps_infinite (steps_le (Nat.pos_of_ne_zero hzero) hden) hle negative

theorem sign_quotient_natCast (num den : Nat) : (decide ((num : Int) < 0) != decide ((den : Int) < 0)) = false := by
  have hsign (n : Nat) : ¬ (n : Int) < 0 := not_lt.2 (Int.natCast_nonneg n)
  simp only [hsign, decide_false, bne_self_eq_false]

theorem ofQuotient_of_finite {m : Nat} (hden : 0 < den) (h : ofRatio false num den = .finite false m e) :
    ofQuotient num den = .ok (.finite false m e) := by
  have hne : (den : Int) ≠ 0 := by exact_mod_cast hden.ne'
  simp only [ofQuotient, if_neg hne, sign_quotient_natCast, Int.natAbs_natCast, h]

theorem ofQuotient_of_infinite (hden : 0 < den) (h : ofRatio false num den = .infinite false) :
    ofQuotient num den = .error .tooLarge := by
  have hne : (den : Int) ≠ 0 := by exact_mod_cast hden.ne'
  simp only [ofQuotient, if_neg hne, sign_quotient_natCast, Int.natAbs_natCast, h]

theorem ofQuotient_tooLarge (hden : 0 < den) (h : overflowRatio * den ≤ num) :
    ofQuotient num den = .error .tooLarge :=
  ofQuotient_of_infinite hden (ofRatio_infinite hden ((overflow_le_nearest_iff hden).2 h) false)

theorem ofQuotient_finite (hden : 0 < den) (h : num < overflowRatio * den) :
    ∃ m e, ofQuotient num den = .ok (.finite false m e) ∧ leastExponent ≤ e ∧ (m : ℚ) * 2 ^ e = nearest num den := by
  have hlt := not_le.1 (mt (overflow_le_nearest_iff hden).1 (not_le.2 h))
  obtain ⟨m, e, hvalue, he, hsame⟩ := ofRatio_finite hden hlt false
  exact ⟨m, e, ofQuotient_of_finite hden hvalue, he, hsame⟩

/-! ### Differences and comparisons -/

theorem stepsAt_mul_zpow {unit : Int} (h : unit ≤ e) (negative : Bool) (m : Nat) :
    (stepsAt negative m e unit : ℚ) * 2 ^ unit = (if negative then -(m : ℚ) else m) * 2 ^ e := by
  have hpow : (2 : ℚ) ^ (e - unit).toNat * 2 ^ unit = 2 ^ e := by
    rw [← zpow_natCast, Int.toNat_of_nonneg (by omega), ← zpow_add₀ two_ne_zero, sub_add_cancel]
  rw [stepsAt]
  split <;> push_cast [Nat.pow_eq] <;> rw [← hpow] <;> ring

theorem exceeds_iff (h : a.number? = some x) (n : Int) : a.exceeds n = true ↔ (n : ℚ) < x := by
  match a, h with
  | .finite negative m (.ofNat k), h =>
    have hk : (0 : Int) ≤ .ofNat k := Int.natCast_nonneg k
    rw [number?, Option.some_inj, ← stepsAt_mul_zpow hk, zpow_zero, mul_one] at h
    rw [exceeds, decide_eq_true_iff, ← h]
    exact_mod_cast Iff.rfl
  | .finite negative m (.negSucc k), h =>
    rw [number?, Option.some_inj, zpow_negSucc, ← div_eq_mul_inv] at h
    rw [exceeds, decide_eq_true_iff, ← h, lt_div_iff₀ (by positivity), ← Int.cast_lt (R := ℚ)]
    push_cast [Nat.pow_eq]
    exact Iff.rfl

theorem exceeds_zero_ofRatio (hpos : 0 < nearest num den) (hden : 0 < den) (negative : Bool) :
    (ofRatio negative num den).exceeds 0 = !negative := by
  rcases lt_or_ge (nearest num den) (2 ^ (greatestExponent + 53)) with hlt | hle
  · obtain ⟨m, e, hvalue, -, hsame⟩ := ofRatio_finite hden hlt negative
    rw [hvalue, Bool.eq_iff_iff, exceeds_iff rfl, ite_mul, neg_mul, hsame]
    cases negative <;> simp [hpos, hpos.le]
  · rw [ofRatio_infinite hden hle, exceeds]

theorem ofScaled_eq_ofRatio {n : Int} (hn : n ≠ 0) : ∀ e, ∃ num den : Nat, 0 < num ∧ 0 < den ∧
    (num : ℚ) / den = n.natAbs * 2 ^ e ∧ ofScaled n e = ofRatio (n < 0) num den
  | .ofNat k => by
    refine ⟨n.natAbs * Nat.pow 2 k, 1, Nat.mul_pos (Int.natAbs_pos.2 hn) (Nat.pow_pos two_pos), one_pos, ?_, rfl⟩
    push_cast [Nat.pow_eq]
    rw [Int.ofNat_eq_natCast, zpow_natCast, div_one]
  | .negSucc k => by
    refine ⟨n.natAbs, Nat.pow 2 (k + 1), Int.natAbs_pos.2 hn, Nat.pow_pos two_pos, ?_, rfl⟩
    push_cast [Nat.pow_eq]
    rw [zpow_negSucc, div_eq_mul_inv]

/-- However far a number is scaled down within the range of the exponents, it keeps its sign. -/
theorem exceeds_zero_ofScaled {n : Int} (hn : n ≠ 0) (he : leastExponent ≤ e) :
    (ofScaled n e).exceeds 0 = true ↔ 0 < n := by
  obtain ⟨num, den, hnum, hden, hratio, hvalue⟩ := ofScaled_eq_ofRatio hn e
  have hone : (1 : ℚ) ≤ n.natAbs := by exact_mod_cast Int.natAbs_pos.2 hn
  have hleast : (2 : ℚ) ^ leastExponent ≤ num / den := by
    calc (2 : ℚ) ^ leastExponent ≤ 2 ^ e := zpow_le_zpow_right₀ one_le_two he
      _ ≤ n.natAbs * 2 ^ e := le_mul_of_one_le_left (by positivity) hone
      _ = num / den := hratio.symm
  rw [hvalue, exceeds_zero_ofRatio (nearest_pos hnum hden hleast) hden, Bool.not_eq_true', decide_eq_false_iff_not]
  omega

/-- A difference is rounded without crossing zero. -/
theorem exceeds_zero_sub {negative negative' : Bool} {m m' : Nat} {e' : Int} (he : leastExponent ≤ e)
    (he' : leastExponent ≤ e') (hx : (finite negative m e).number? = some x)
    (hy : (finite negative' m' e').number? = some y) :
    ((finite negative m e).sub (finite negative' m' e')).exceeds 0 = true ↔ y < x := by
  have hunit : (0 : ℚ) < 2 ^ min e e' := by positivity
  rw [number?, Option.some_inj, ← stepsAt_mul_zpow (min_le_left e e')] at hx
  rw [number?, Option.some_inj, ← stepsAt_mul_zpow (min_le_right e e')] at hy
  rw [← hx, ← hy, mul_lt_mul_iff_left₀ hunit, Int.cast_lt, sub]
  split
  next hzero =>
    rw [zero, exceeds_iff rfl, Int.cast_zero, Nat.cast_zero, neg_zero, ite_self, zero_mul]
    exact iff_of_false (lt_irrefl 0) (by omega)
  next hne =>
    rw [exceeds_zero_ofScaled hne (le_min he he')]
    exact Int.sub_pos

/-! ### Distances from one -/

theorem ofInt_one : ofInt 1 = .finite false hiddenBit (-52) := by decide +kernel

theorem number_ofInt_one : (ofInt 1).number? = some 1 := by
  rw [ofInt_one, number?, if_neg Bool.false_ne_true, hiddenBit_mul_zpow, neg_add_cancel, zpow_zero]

theorem number_ofInt_zero : (ofInt 0).number? = some 0 := by
  rw [show ofInt 0 = zero false from rfl, zero, number?, if_neg Bool.false_ne_true, Nat.cast_zero, zero_mul]

theorem exceeds_zero_one_sub {m : Nat} {e : Int} (he : leastExponent ≤ e) :
    ((ofInt 1).sub (.finite false m e)).exceeds 0 = true ↔ (m : ℚ) * 2 ^ e < 1 := by
  rw [ofInt_one]
  exact exceeds_zero_sub (by decide) he (ofInt_one ▸ number_ofInt_one) rfl

end Solvency.Binary64
