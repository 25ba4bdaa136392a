import Mathlib.Algebra.Order.Field.Rat
import Solvency.Proofs.Assessments
import Solvency.Proofs.Conversions

/-! Cycles of conversions: what comes back of an amount that is converted into another unit and back. Every conversion
    cuts toward zero and stays on its side of zero, so that a cycle never gains; what it loses is bounded by what one
    unit of the other kind is worth. -/

namespace Solvency

/-- A result has come no further from zero than the amount that it was made of, and is not on the other side of it. -/
structure Shrinks (amount result : Int) : Prop where
  sign : result = 0 ∨ result.sign = amount.sign
  magnitude : result.natAbs ≤ amount.natAbs

/-- What a result lacks of the amount that it was made of. -/
def loss (amount result : Int) : Int := amount.natAbs - result.natAbs

section Cuts
variable {x y z amount result : Int}

theorem shrinks_iff : Shrinks amount result ↔ (0 ≤ result ∧ result ≤ amount) ∨ (amount ≤ result ∧ result ≤ 0) := by
  constructor
  · rintro ⟨hzero | hsign, hmagnitude⟩
    · omega
    · rcases Int.lt_trichotomy amount 0 with hamount | rfl | hamount
      · rw [Int.sign_eq_neg_one_of_neg hamount, Int.sign_eq_neg_one_iff_neg] at hsign
        omega
      · omega
      · rw [Int.sign_eq_one_of_pos hamount, Int.sign_eq_one_iff_pos] at hsign
        omega
  · rintro (⟨hnonneg, hle⟩ | ⟨hle, hnonpos⟩)
    · refine ⟨(Int.lt_or_eq_of_le hnonneg).symm.imp Eq.symm fun hpos => ?_, by omega⟩
      rw [Int.sign_eq_one_of_pos hpos, Int.sign_eq_one_of_pos (by omega)]
    · refine ⟨(Int.lt_or_eq_of_le hnonpos).symm.imp id fun hneg => ?_, by omega⟩
      rw [Int.sign_eq_neg_one_of_neg hneg, Int.sign_eq_neg_one_of_neg (by omega)]

theorem Shrinks.trans {result' : Int} (h : Shrinks amount result) (h' : Shrinks result result') :
    Shrinks amount result' := by
  rw [shrinks_iff] at *
  omega

/-- Conversion keeps the order of the amounts on either side of zero. -/
theorem Shrinks.scaled (h : Shrinks amount result) (hy : 0 ≤ y) (hz : 0 < z) :
    Shrinks (scaled amount y z) (scaled result y z) := by
  rw [shrinks_iff] at *
  rcases h with ⟨hnonneg, hle⟩ | ⟨hle, hnonpos⟩
  · exact Or.inl ⟨scaled_nonneg hnonneg hy (Int.le_of_lt hz),
      scaled_le_scaled hz (Int.mul_le_mul_of_nonneg_right hle hy)⟩
  · exact Or.inr ⟨scaled_le_scaled hz (Int.mul_le_mul_of_nonneg_right hle hy), scaled_nonpos hnonpos hy hz⟩

theorem shrinks_scaled_scaled (hy : 0 < y) (hz : 0 < z) (x : Int) : Shrinks x (scaled (scaled x y z) z y) := by
  have hy' := Int.le_of_lt hy
  have hz' := Int.le_of_lt hz
  rw [shrinks_iff]
  rcases Int.le_total 0 x with hx | hx
  · exact Or.inl ⟨scaled_nonneg (scaled_nonneg hx hy' hz') hz' hy', scaled_scaled_le hy hz' hx⟩
  · exact Or.inr ⟨le_scaled_scaled hy hz' hx, scaled_nonpos (scaled_nonpos hx hy' hz) hz' hy⟩

theorem natAbs_scaled (x y z : Int) : (scaled x y z).natAbs = x.natAbs * y.natAbs / z.natAbs := by
  rw [scaled, Int.natAbs_tdiv, Int.natAbs_mul]
  rfl

/-- A conversion there loses less than one unit of its kind, and the conversion back less than one more. -/
theorem loss_scaled_scaled_mul_lt (hy : 0 < y) (hz : 0 < z) (x : Int) :
    loss x (scaled (scaled x y z) z y) * y < z + y := by
  obtain ⟨y, rfl⟩ := Int.eq_ofNat_of_zero_le (Int.le_of_lt hy)
  obtain ⟨z, rfl⟩ := Int.eq_ofNat_of_zero_le (Int.le_of_lt hz)
  rw [loss, natAbs_scaled, natAbs_scaled, Int.natAbs_natCast, Int.natAbs_natCast]
  have hthere : x.natAbs * y < (x.natAbs * y / z + 1) * z := by
    rw [Nat.mul_comm _ z]
    exact Nat.lt_mul_div_succ _ (by omega)
  generalize x.natAbs * y / z = there at hthere ⊢
  have hback : there * z < (there * z / y + 1) * y := by
    rw [Nat.mul_comm _ y]
    exact Nat.lt_mul_div_succ _ (by omega)
  generalize there * z / y = back at hback ⊢
  rw [Nat.add_mul] at hthere hback
  rw [Int.sub_mul]
  omega

theorem loss_scaled_scaled_lt (hy : 0 < y) (hz : 0 < z) (x : Int) :
    (loss x (scaled (scaled x y z) z y) : ℚ) < z / y + 1 := by
  have hpos : (0 : ℚ) < y := by exact_mod_cast hy
  rw [div_add_one hpos.ne', lt_div_iff₀ hpos]
  exact_mod_cast loss_scaled_scaled_mul_lt hy hz x

theorem loss_scaled_scaled_le_one (hz : 0 < z) (h : z ≤ y) (x : Int) :
    loss x (scaled (scaled x y z) z y) ≤ 1 := by
  have hlt := loss_scaled_scaled_mul_lt (by omega : 0 < y) hz x
  refine Int.le_of_lt_add_one (Int.lt_of_mul_lt_mul_right (a := y) ?_ (by omega))
  omega

end Cuts

/-! ### Sides -/

/-- An amount stands on the side of a principal, and is converted by the same index, although what is made of a positive
    principal may have been cut to zero. -/
def SameSide (principal amount : Int) : Prop := (0 < principal ∧ 0 ≤ amount) ∨ (principal ≤ 0 ∧ amount ≤ 0)

theorem SameSide.refl (principal : Int) : SameSide principal principal := by
  unfold SameSide
  omega

theorem SameSide.scaled {principal amount y z : Int} (h : SameSide principal amount) (hy : 0 ≤ y) (hz : 0 < z) :
    SameSide principal (scaled amount y z) :=
  h.imp (fun h => ⟨h.1, scaled_nonneg h.2 hy (Int.le_of_lt hz)⟩) fun h => ⟨h.1, scaled_nonpos h.2 hy hz⟩

namespace Converter

/-- An asset whose terms, state and price a converter knows, and in whose numbers nothing divides by zero. -/
structure Quotes (c : Converter) (asset : Text) (terms : AssetTerms) (state : AssetState) (price : Int) : Prop where
  knownTerms : c.source.terms asset = some terms
  knownState : c.source.state asset = some state
  knownPrice : c.prices asset = some price
  decimals : 0 ≤ terms.decimals
  supplyIndex : 0 < state.supplyIndex
  borrowIndex : 0 < state.borrowIndex
  positive : 0 < price
  factorScale : 0 < c.params.factorScale

namespace Quotes
variable {c : Converter} {asset : Text} {terms : AssetTerms} {state : AssetState} {price : Int}
  (known : c.Quotes asset terms state price)
include known

theorem index_pos (amount : Int) : 0 < index state amount := by
  unfold index
  split
  · exact known.supplyIndex
  · exact known.borrowIndex

theorem balanceOfPrincipal (principal : Int) :
    c.balanceOfPrincipal asset principal = .ok (scaled principal (index state principal) c.params.factorScale) := by
  have hscale := Int.ne_of_gt known.factorScale
  unfold index
  split
  · exact balanceOfPrincipal_of_nonneg known.knownState hscale (by omega)
  · exact balanceOfPrincipal_of_nonpos known.knownState hscale (by omega)

theorem principalOfBalance {principal balance : Int} (h : SameSide principal balance) :
    c.principalOfBalance asset balance = .ok (scaled balance c.params.factorScale (index state principal)) := by
  unfold index
  rcases h with ⟨hprincipal, hbalance⟩ | ⟨hprincipal, hbalance⟩
  · rw [if_pos hprincipal]
    exact principalOfBalance_of_nonneg known.knownState hbalance (Int.ne_of_gt known.supplyIndex)
  · rw [if_neg (by omega)]
    exact principalOfBalance_of_nonpos known.knownState hbalance (Int.ne_of_gt known.borrowIndex)

theorem valueOfBalance (balance : Int) :
    c.valueOfBalance asset balance = .ok (scaled balance price terms.unitScale) :=
  valueOfBalance_of_known known.knownPrice known.knownTerms balance

theorem balanceOfValue (value : Int) : c.balanceOfValue asset value = .ok (scaled value terms.unitScale price) :=
  balanceOfValue_of_known known.knownPrice known.knownTerms (Int.ne_of_gt known.positive) value

end Quotes

end Converter

/-- No cycle of conversions between principal, balance and value gains: the amount that comes back is on the same side of
    zero and no further from it. It lacks less than the factor scale over the index, or the unit of the asset over its
    price, plus one. A balance that a value is enough for is worth no more than the value. -/
theorem conversions_never_gain {c : Converter} {asset : Text} {terms : AssetTerms} {state : AssetState} {price : Int}
    (known : c.Quotes asset terms state price) :
    (∀ principal, ∃ result, (c.balanceOfPrincipal asset principal >>= c.principalOfBalance asset) = .ok result ∧
      Shrinks principal result ∧
      (loss principal result : ℚ) < c.params.factorScale / Converter.index state principal + 1 ∧
      (c.params.factorScale ≤ Converter.index state principal → loss principal result ≤ 1)) ∧
    (∀ balance, ∃ result, (c.valueOfBalance asset balance >>= c.balanceOfValue asset) = .ok result ∧
      Shrinks balance result ∧ (loss balance result : ℚ) < terms.unitScale / price + 1) ∧
    (∀ principal, ∃ result, (c.valueOfPrincipal asset principal >>= c.principalOfValue asset) = .ok result ∧
      Shrinks principal result) ∧
    ∀ balance value, 0 ≤ balance → 0 ≤ value → ∃ most worth, c.balanceOfValue asset value = .ok most ∧
      c.valueOfBalance asset balance = .ok worth ∧ (balance ≤ most → worth ≤ value) := by
  have hscale := known.factorScale
  have hunit := terms.unitScale_pos
  have hprice := known.positive
  refine ⟨fun principal => ?_, fun balance => ?_, fun principal => ?_, fun balance value _ hvalue => ?_⟩
  · have hindex := known.index_pos principal
    have hside := (SameSide.refl principal).scaled (Int.le_of_lt hindex) hscale
    refine ⟨_, (bind_of_eq_ok (known.balanceOfPrincipal principal) _).trans (known.principalOfBalance hside),
      shrinks_scaled_scaled hindex hscale principal, loss_scaled_scaled_lt hindex hscale principal, fun hle => ?_⟩
    exact loss_scaled_scaled_le_one hscale hle principal
  · exact ⟨_, (bind_of_eq_ok (known.valueOfBalance balance) _).trans (known.balanceOfValue _),
      shrinks_scaled_scaled hprice hunit balance, loss_scaled_scaled_lt hprice hunit balance⟩
  · have hindex := known.index_pos principal
    have hside := (SameSide.refl principal).scaled (Int.le_of_lt hindex) hscale
    have hback := (hside.scaled (Int.le_of_lt hprice) hunit).scaled (Int.le_of_lt hunit) hprice
    have hvalue : c.valueOfPrincipal asset principal = _ :=
      (bind_of_eq_ok (known.balanceOfPrincipal principal) _).trans (known.valueOfBalance _)
    refine ⟨_, (bind_of_eq_ok hvalue _).trans
      ((bind_of_eq_ok (known.balanceOfValue _) _).trans (known.principalOfBalance hback)), ?_⟩
    -- the balance comes back smaller, and with it the principal that the cycle through the balance gives
    exact (shrinks_scaled_scaled hindex hscale principal).trans
      ((shrinks_scaled_scaled hprice hunit _).scaled (Int.le_of_lt hscale) hindex)
  · exact ⟨_, _, known.balanceOfValue value, known.valueOfBalance balance,
      scaled_le_of_le_scaled (Int.le_of_lt hprice) hunit hvalue⟩

/-- A debt comes back one unit short by way of its balance, and two by way of its value. -/
theorem conversions_never_gain_leveraged :
    let c : Converter := ⟨leveragedStore.source, leveragedPrices.get?, {}⟩
    c.Quotes "1" kinkedTerms overlentState 3210000001 ∧
      (c.balanceOfPrincipal "1" (-5000000007) >>= c.principalOfBalance "1") = .ok (-5000000006) ∧
      Shrinks (-5000000007) (-5000000006) ∧ loss (-5000000007) (-5000000006) ≤ 1 ∧
      (c.valueOfPrincipal "1" (-5000000007) >>= c.principalOfValue "1") = .ok (-5000000005) ∧
      Shrinks (-5000000007) (-5000000005) := by
  intro c
  have known : c.Quotes "1" kinkedTerms overlentState 3210000001 :=
    ⟨by decide +kernel, by decide +kernel, by decide +kernel, by decide, by decide, by decide, by decide, by decide⟩
  have hbalance : (c.balanceOfPrincipal "1" (-5000000007) >>= c.principalOfBalance "1") = .ok (-5000000006) := by
    decide +kernel
  have hvalue : (c.valueOfPrincipal "1" (-5000000007) >>= c.principalOfValue "1") = .ok (-5000000005) := by
    decide +kernel
  obtain ⟨hfirst, -, hthird, -⟩ := conversions_never_gain known
  obtain ⟨result, hresult, hshrinks, -, hloss⟩ := hfirst (-5000000007)
  obtain rfl : -5000000006 = result := Except.ok.inj (hbalance.symm.trans hresult)
  obtain ⟨result', hresult', hshrinks'⟩ := hthird (-5000000007)
  obtain rfl : -5000000005 = result' := Except.ok.inj (hvalue.symm.trans hresult')
  exact ⟨known, hbalance, hshrinks, hloss (by decide), hvalue, hshrinks'⟩

end Solvency
