import Solvency.Proofs.Cycles

/-! Truncations: the laws of a ratio whatever the signs of its parts. What is cut off a ratio is less than one and lies
    away from zero, which leaves one integer only; every other law follows from the case of a positive divisor, since
    each sign can be drawn out of the ratio. -/

namespace Solvency

/-- What is left of the ratio of a product to `z` when its fraction is cut: the rest of the product is smaller than
    `z`, and there is none or it has the sign of the product. -/
structure Truncates (product z q : Int) : Prop where
  near : (product - q * z).natAbs < z.natAbs
  side : product - q * z = 0 ∨ (product - q * z).sign = product.sign

section
variable {x x' y z product q q' : Int}

theorem truncates_tdiv (hz : z ≠ 0) (product : Int) : Truncates product z (product.tdiv z) := by
  have hrest : product - product.tdiv z * z = product.tmod z := by rw [Int.tmod_def, Int.mul_comm]
  constructor
  · rw [hrest, Int.natAbs_tmod]
    exact Nat.mod_lt _ (Int.natAbs_pos.mpr hz)
  · rw [hrest, Int.sign_tmod]
    split
    · exact Or.inl (Int.tmod_eq_zero_of_dvd ‹_›)
    · exact Or.inr rfl

theorem Truncates.unique (h : Truncates product z q) (h' : Truncates product z q') : q = q' := by
  obtain ⟨hnear, hside⟩ := h
  obtain ⟨hnear', hside'⟩ := h'
  -- The two rests lie on one side of zero, so that they are less than `z` apart, and `z` divides their distance.
  have hgap : (q - q').natAbs * z.natAbs < z.natAbs := by
    rw [← Int.natAbs_mul, Int.sub_mul]
    rcases Int.lt_trichotomy product 0 with hneg | rfl | hpos
    · rw [Int.sign_eq_neg_one_of_neg hneg, Int.sign_eq_neg_one_iff_neg] at hside hside'
      omega
    · rw [Int.sign_zero, Int.sign_eq_zero_iff_zero] at hside hside'
      omega
    · rw [Int.sign_eq_one_of_pos hpos, Int.sign_eq_one_iff_pos] at hside hside'
      omega
  have hzero : (q - q').natAbs = 0 := by
    by_contra hne
    have hle := Nat.le_mul_of_pos_left z.natAbs (Nat.pos_of_ne_zero hne)
    omega
  omega

/-- A ratio is the quotient of the magnitudes, with a sign of its own unless the signs agree. -/
theorem scaled_eq_signed (hz : z ≠ 0) (x y : Int) : scaled x y z =
    if 0 ≤ x * y ↔ 0 < z then (((x * y).natAbs / z.natAbs : Nat) : Int) else -((x * y).natAbs / z.natAbs : Nat) := by
  unfold scaled
  obtain ⟨m, hm | hm⟩ := Int.eq_nat_or_neg (x * y) <;> obtain ⟨n, rfl | rfl⟩ := Int.eq_nat_or_neg z <;> rw [hm]
  · rw [if_pos (by omega), Int.natAbs_natCast, Int.natAbs_natCast, Int.ofNat_tdiv]
  · rw [if_neg (by omega), Int.natAbs_natCast, Int.natAbs_neg, Int.natAbs_natCast, Int.ofNat_tdiv, Int.tdiv_neg]
  · rw [Int.natAbs_neg, Int.natAbs_natCast, Int.natAbs_natCast, Int.ofNat_tdiv, Int.neg_tdiv]
    split
    · obtain rfl : m = 0 := by omega
      simp
    · rfl
  · rw [Int.natAbs_neg, Int.natAbs_neg, Int.natAbs_natCast, Int.natAbs_natCast, Int.ofNat_tdiv, Int.neg_tdiv,
      Int.tdiv_neg, Int.neg_neg]
    split
    · rfl
    · obtain rfl : m = 0 := by omega
      simp

theorem scaled_mono (h : 0 ≤ y * z) (hz : z ≠ 0) (hle : x ≤ x') : scaled x y z ≤ scaled x' y z := by
  rcases Int.lt_or_gt_of_ne hz with hneg | hpos
  · have hy : 0 ≤ -y := (Int.mul_nonneg_iff_of_pos_right (by omega : 0 < -z)).mp (by rwa [Int.neg_mul_neg])
    have hscaled := scaled_le_scaled (z := -z) (by omega) (Int.mul_le_mul_of_nonneg_right hle hy)
    rwa [scaled_neg_middle, scaled_neg_right, Int.neg_neg, scaled_neg_middle, scaled_neg_right, Int.neg_neg] at hscaled
  · exact scaled_le_scaled hpos
      (Int.mul_le_mul_of_nonneg_right hle ((Int.mul_nonneg_iff_of_pos_right hpos).mp h))

theorem scaled_antitone (h : y * z ≤ 0) (hz : z ≠ 0) (hle : x ≤ x') : scaled x' y z ≤ scaled x y z := by
  have hscaled := scaled_mono (y := -y) (by rw [Int.neg_mul]; omega) hz hle
  rw [scaled_neg_middle, scaled_neg_middle] at hscaled
  omega

/-- There and back, every sign is drawn out twice. -/
theorem shrinks_there_and_back (hy : y ≠ 0) (hz : z ≠ 0) (x : Int) : Shrinks x (scaled (scaled x y z) z y) := by
  obtain ⟨m, rfl | rfl⟩ := Int.eq_nat_or_neg y <;> obtain ⟨n, rfl | rfl⟩ := Int.eq_nat_or_neg z
  · exact shrinks_scaled_scaled (by omega) (by omega) x
  · rw [scaled_neg_right, scaled_neg_middle, scaled_neg_left, Int.neg_neg]
    exact shrinks_scaled_scaled (by omega) (by omega) x
  · rw [scaled_neg_right, scaled_neg_middle, scaled_neg_left, Int.neg_neg]
    exact shrinks_scaled_scaled (by omega) (by omega) x
  · simp only [scaled_neg_middle, scaled_neg_right, Int.neg_neg]
    exact shrinks_scaled_scaled (by omega) (by omega) x

theorem mulDiv_eq_error {e : ArithmeticError} : mulDiv x y z = .error e ↔ z = 0 ∧ e = .divisionByZero := by
  by_cases hz : z = 0
  · subst hz
    simp [mulDiv, eq_comm]
  · simp [mulDiv_of_ne_zero hz, hz]

end

/-- The laws of the ratio `q` of the product `x * y` to `z`. -/
structure RatioLaws (x y z q : Int) : Prop where
  truncated : ∀ c, Truncates (x * y) z c ↔ c = q
  signed : q = if 0 ≤ x * y ↔ 0 < z then (((x * y).natAbs / z.natAbs : Nat) : Int)
    else -((x * y).natAbs / z.natAbs : Nat)
  neg_left : mulDiv (-x) y z = .ok (-q)
  neg_middle : mulDiv x (-y) z = .ok (-q)
  neg_right : mulDiv x y (-z) = .ok (-q)
  mono : 0 ≤ y * z → ∀ x', x ≤ x' → ∃ q', mulDiv x' y z = .ok q' ∧ q ≤ q'
  antitone : y * z ≤ 0 → ∀ x', x ≤ x' → ∃ q', mulDiv x' y z = .ok q' ∧ q' ≤ q
  back : y ≠ 0 → ∃ c, mulDiv q z y = .ok c ∧ ((0 ≤ c ∧ c ≤ x) ∨ (x ≤ c ∧ c ≤ 0))

/-- A ratio is cut toward zero wherever its divisor is not zero, and fails nowhere else. -/
theorem ratio_truncated (x y z : Int) :
    (z ≠ 0 → ∃ q, mulDiv x y z = .ok q ∧ RatioLaws x y z q) ∧
      ∀ e, mulDiv x y z = .error e ↔ z = 0 ∧ e = .divisionByZero := by
  refine ⟨fun hz => ⟨scaled x y z, mulDiv_of_ne_zero hz, ?_⟩, fun e => mulDiv_eq_error⟩
  have htruncates : Truncates (x * y) z (scaled x y z) := truncates_tdiv hz _
  exact {
    truncated := fun c => ⟨fun h => h.unique htruncates, fun h => h ▸ htruncates⟩
    signed := scaled_eq_signed hz x y
    neg_left := by rw [mulDiv_of_ne_zero hz, scaled_neg_left]
    neg_middle := by rw [mulDiv_of_ne_zero hz, scaled_neg_middle]
    neg_right := by rw [mulDiv_of_ne_zero (Int.neg_ne_zero.mpr hz), scaled_neg_right]
    mono := fun h x' hle => ⟨_, mulDiv_of_ne_zero hz, scaled_mono h hz hle⟩
    antitone := fun h x' hle => ⟨_, mulDiv_of_ne_zero hz, scaled_antitone h hz hle⟩
    back := fun hy => ⟨_, mulDiv_of_ne_zero hy, shrinks_iff.mp (shrinks_there_and_back hy hz x)⟩ }

/-- The ratio of 21 to -2 is cut up to -10, and of what it was made of -6 comes back. -/
theorem ratio_truncated_negative :
    (-2 : Int) ≠ 0 ∧ mulDiv (-7) (-3) (-2) = .ok (-10) ∧ RatioLaws (-7) (-3) (-2) (-10) ∧
      mulDiv (-10) (-2) (-3) = .ok (-6) := by
  obtain ⟨q, hq, laws⟩ := (ratio_truncated (-7) (-3) (-2)).1 (by decide)
  obtain rfl : -10 = q := Except.ok.inj hq
  exact ⟨by decide, rfl, laws, rfl⟩

end Solvency
