import Solvency.Health.Units
import Solvency.Proofs.Ratios
import Solvency.Proofs.Traversal

/-! Conversions: what the units of an asset are converted to where its terms, state and price are known, and what must
    be known for a conversion to succeed. -/

namespace Solvency

theorem AssetTerms.unitScale_pos (terms : AssetTerms) : 0 < terms.unitScale :=
  Int.natCast_pos.mpr (Nat.pow_pos (by decide))

section Proportions
variable {x y z r : Int}

theorem proportion_of_ne_zero (hz : z ≠ 0) : proportion x y z = .ok (scaled x y z) := by
  rw [proportion, mulDiv_of_ne_zero hz]
  rfl

theorem proportion_zero : proportion x y 0 = .error (.arithmetic .divisionByZero) := rfl

theorem proportion_eq_ok : proportion x y z = .ok r ↔ z ≠ 0 ∧ r = scaled x y z := by
  by_cases hz : z = 0
  · rw [hz, proportion_zero]
    simp
  · rw [proportion_of_ne_zero hz, Except.ok.injEq]
    exact ⟨fun h => ⟨hz, h.symm⟩, fun h => h.2.symm⟩

end Proportions

namespace Converter

section Known
variable {c : Converter} {asset : Text} {terms : AssetTerms} {state : AssetState} {price : Int}

theorem terms_eq_ok : c.terms asset = .ok terms ↔ c.source.terms asset = some terms := by
  unfold Converter.terms
  split <;> simp_all

theorem price_eq_ok : c.price asset = .ok price ↔ c.prices asset = some price := by
  unfold Converter.price
  split <;> simp_all

theorem state_eq_ok : c.state asset = .ok state ↔ c.source.state asset = some state := by
  unfold Converter.state
  split <;> simp_all

theorem valueOfBalance_of_known (hprice : c.prices asset = some price) (hterms : c.source.terms asset = some terms)
    (balance : Int) : c.valueOfBalance asset balance = .ok (scaled balance price terms.unitScale) := by
  unfold valueOfBalance
  split
  · rename_i hzero
    rw [hzero, scaled_zero_left]
    rfl
  · rw [price_eq_ok.mpr hprice, terms_eq_ok.mpr hterms]
    exact proportion_of_ne_zero (Int.ne_of_gt terms.unitScale_pos)

/-- A balance that is not zero has a value only where the price and the terms of its asset are known. -/
theorem known_of_valueOfBalance {balance value : Int} (h : c.valueOfBalance asset balance = .ok value)
    (hbalance : balance ≠ 0) : ∃ price terms, c.prices asset = some price ∧ c.source.terms asset = some terms := by
  rw [valueOfBalance, if_neg hbalance] at h
  obtain ⟨price, hprice, h⟩ := bind_eq_ok.mp h
  obtain ⟨terms, hterms, -⟩ := bind_eq_ok.mp h
  exact ⟨price, terms, price_eq_ok.mp hprice, terms_eq_ok.mp hterms⟩

theorem balanceOfValue_of_known (hprice : c.prices asset = some price) (hterms : c.source.terms asset = some terms)
    (hpos : price ≠ 0) (value : Int) : c.balanceOfValue asset value = .ok (scaled value terms.unitScale price) := by
  unfold balanceOfValue
  split
  · rename_i hzero
    rw [hzero, scaled_zero_left]
    rfl
  · rw [price_eq_ok.mpr hprice, terms_eq_ok.mpr hterms]
    exact proportion_of_ne_zero hpos

theorem principalOfBalance_of_nonneg (hstate : c.source.state asset = some state) {balance : Int} (h : 0 ≤ balance)
    (hindex : state.supplyIndex ≠ 0) :
    c.principalOfBalance asset balance = .ok (scaled balance c.params.factorScale state.supplyIndex) := by
  unfold principalOfBalance
  split
  · rename_i hzero
    rw [hzero, scaled_zero_left]
    rfl
  · rw [state_eq_ok.mpr hstate]
    have hside : index state balance = state.supplyIndex := if_pos (by omega)
    exact (congrArg (proportion balance c.params.factorScale) hside).trans (proportion_of_ne_zero hindex)

theorem principalOfBalance_of_nonpos (hstate : c.source.state asset = some state) {balance : Int} (h : balance ≤ 0)
    (hindex : state.borrowIndex ≠ 0) :
    c.principalOfBalance asset balance = .ok (scaled balance c.params.factorScale state.borrowIndex) := by
  unfold principalOfBalance
  split
  · rename_i hzero
    rw [hzero, scaled_zero_left]
    rfl
  · rw [state_eq_ok.mpr hstate]
    have hside : index state balance = state.borrowIndex := if_neg (by omega)
    exact (congrArg (proportion balance c.params.factorScale) hside).trans (proportion_of_ne_zero hindex)

theorem balanceOfPrincipal_of_nonneg (hstate : c.source.state asset = some state) (hscale : c.params.factorScale ≠ 0)
    {principal : Int} (h : 0 ≤ principal) :
    c.balanceOfPrincipal asset principal = .ok (scaled principal state.supplyIndex c.params.factorScale) := by
  unfold balanceOfPrincipal
  split
  · rename_i hzero
    rw [hzero, scaled_zero_left]
    rfl
  · rw [state_eq_ok.mpr hstate]
    have hside : index state principal = state.supplyIndex := if_pos (by omega)
    exact (congrArg (proportion principal · c.params.factorScale) hside).trans (proportion_of_ne_zero hscale)

theorem balanceOfPrincipal_of_nonpos (hstate : c.source.state asset = some state) (hscale : c.params.factorScale ≠ 0)
    {principal : Int} (h : principal ≤ 0) :
    c.balanceOfPrincipal asset principal = .ok (scaled principal state.borrowIndex c.params.factorScale) := by
  unfold balanceOfPrincipal
  split
  · rename_i hzero
    rw [hzero, scaled_zero_left]
    rfl
  · rw [state_eq_ok.mpr hstate]
    have hside : index state principal = state.borrowIndex := if_neg (by omega)
    exact (congrArg (proportion principal · c.params.factorScale) hside).trans (proportion_of_ne_zero hscale)

end Known

end Converter

end Solvency
