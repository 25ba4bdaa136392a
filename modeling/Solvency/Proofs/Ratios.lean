import Solvency.Ratio

/-! Ratios: what truncation leaves of a product that is divided. Where the product is not negative, the ratio is at most
    the exact one and less than one below it, so that it grows with the product, and by no more than it does. -/

namespace Solvency
variable {x x' y y' z c : Int}

@[simp] theorem scaled_zero_left (y z : Int) : scaled 0 y z = 0 := by
  rw [scaled, Int.zero_mul, Int.zero_tdiv]

@[simp] theorem scaled_zero_middle (x z : Int) : scaled x 0 z = 0 := by
  rw [scaled, Int.mul_zero, Int.zero_tdiv]

theorem scaled_neg_left (x y z : Int) : scaled (-x) y z = -scaled x y z := by
  rw [scaled, scaled, Int.neg_mul, Int.neg_tdiv]

theorem scaled_neg_middle (x y z : Int) : scaled x (-y) z = -scaled x y z := by
  rw [scaled, scaled, Int.mul_neg, Int.neg_tdiv]

theorem scaled_neg_right (x y z : Int) : scaled x y (-z) = -scaled x y z := by
  rw [scaled, scaled, Int.tdiv_neg]

/-- A product that holds the divisor loses nothing. -/
theorem scaled_mul_left (hz : z ≠ 0) (x y : Int) : scaled (x * z) y z = x * y := by
  rw [scaled, Int.mul_right_comm, Int.mul_tdiv_cancel _ hz]

theorem scaled_nonneg (hx : 0 ≤ x) (hy : 0 ≤ y) (hz : 0 ≤ z) : 0 ≤ scaled x y z :=
  Int.tdiv_nonneg (Int.mul_nonneg hx hy) hz

theorem scaled_nonpos (hx : x ≤ 0) (hy : 0 ≤ y) (hz : 0 < z) : scaled x y z ≤ 0 := by
  rw [← Int.neg_neg x, scaled_neg_left]
  have hnonneg := scaled_nonneg (x := -x) (by omega) hy (Int.le_of_lt hz)
  omega

theorem scaled_mul_le (h : 0 ≤ x * y) : scaled x y z * z ≤ x * y := by
  have hdiv := Int.mul_tdiv_add_tmod (x * y) z
  have hrest := Int.tmod_nonneg z h
  rw [scaled, Int.mul_comm]
  omega

theorem lt_scaled_add_one_mul (hz : 0 < z) : x * y < (scaled x y z + 1) * z :=
  Int.lt_tdiv_add_one_mul_self (x * y) hz

theorem scaled_le_scaled (hz : 0 < z) (h : x * y ≤ x' * y') : scaled x y z ≤ scaled x' y' z :=
  Int.tdiv_le_tdiv hz h

theorem le_scaled (hz : 0 < z) (h : c * z ≤ x * y) : c ≤ scaled x y z := by
  have hle := Int.tdiv_le_tdiv hz h
  rwa [Int.mul_tdiv_cancel c (Int.ne_of_gt hz)] at hle

/-- A greater divisor leaves no more. -/
theorem scaled_anti {z' : Int} (h : 0 ≤ x * y) (hz : 0 < z) (hle : z ≤ z') : scaled x y z' ≤ scaled x y z := by
  apply le_scaled hz
  calc scaled x y z' * z ≤ scaled x y z' * z' :=
        Int.mul_le_mul_of_nonneg_left hle (Int.tdiv_nonneg h (by omega))
    _ ≤ x * y := scaled_mul_le h

theorem scaled_le (hz : 0 < z) (h : x * y ≤ c * z) : scaled x y z ≤ c := by
  have hle := Int.tdiv_le_tdiv hz h
  rwa [Int.mul_tdiv_cancel c (Int.ne_of_gt hz)] at hle

/-- What is converted from no more than `c` is converted to is no more than `c`. -/
theorem scaled_le_of_le_scaled (hy : 0 ≤ y) (hz : 0 < z) (hc : 0 ≤ c) (h : x ≤ scaled c z y) : scaled x y z ≤ c := by
  apply scaled_le hz
  calc x * y ≤ scaled c z y * y := Int.mul_le_mul_of_nonneg_right h hy
    _ ≤ c * z := scaled_mul_le (Int.mul_nonneg hc (Int.le_of_lt hz))

/-- What is converted there and back has come no further from zero. -/
theorem scaled_scaled_le (hy : 0 < y) (hz : 0 ≤ z) (hx : 0 ≤ x) : scaled (scaled x y z) z y ≤ x :=
  scaled_le_of_le_scaled hz hy hx (Int.le_refl _)

theorem le_scaled_scaled (hy : 0 < y) (hz : 0 ≤ z) (hx : x ≤ 0) : x ≤ scaled (scaled x y z) z y := by
  have hle : scaled (scaled (-x) y z) z y ≤ -x := scaled_scaled_le hy hz (by omega)
  rw [scaled_neg_left, scaled_neg_left] at hle
  omega

/-- A product that is larger by `c` divisors at most has a ratio that is larger by `c` at most. -/
theorem scaled_le_scaled_add (hz : 0 < z) (hpos : 0 ≤ x * y) (h : x * y ≤ x' * y' + c * z) :
    scaled x y z ≤ scaled x' y' z + c := by
  have hle : scaled x y z - c ≤ scaled x' y' z := by
    apply le_scaled hz
    have hdiv := scaled_mul_le (z := z) hpos
    rw [Int.sub_mul]
    omega
  omega

/-- Conversion there and back: what was lowered by the conversion of `c` at most, converted back, is lowered by `c` at
    most, since every conversion cuts toward zero. -/
theorem scaled_le_add_of_le (hz : 0 < z) (hx : 0 ≤ x) (hy : 0 ≤ y) (hc : 0 ≤ c) (h : x ≤ x' + scaled c z y) :
    scaled x y z ≤ scaled x' y z + c := by
  apply scaled_le_scaled_add hz (Int.mul_nonneg hx hy)
  calc x * y ≤ (x' + scaled c z y) * y := Int.mul_le_mul_of_nonneg_right h hy
    _ = x' * y + scaled c z y * y := Int.add_mul ..
    _ ≤ x' * y + c * z := Int.add_le_add_left (scaled_mul_le (Int.mul_nonneg hc (Int.le_of_lt hz))) _

end Solvency
