import Mathlib.Data.List.Perm.Basic
import Solvency.Oracle.Median
import Solvency.Proofs.Ordering
import Solvency.Proofs.Traversal

/-! Medians: the middle of the numbers in ascending order, or the mean of the middle pair. Every list of numbers but the
    empty one has a median, and no bound of the numbers is passed by it. -/

namespace Solvency

/-- A number is the median of numbers: the middle one of them in ascending order if their number is odd, otherwise the
    mean of the middle pair, cut to the floor. -/
def IsMedian (m : Int) (ns : List Int) : Prop :=
  ∃ sorted : List Int, sorted.Perm ns ∧ sorted.Pairwise (· ≤ ·) ∧
    ((∃ k, ns.length = 2 * k + 1 ∧ sorted[k]? = some m) ∨
      ∃ k low high, ns.length = 2 * k + 2 ∧ sorted[k]? = some low ∧ sorted[k + 1]? = some high ∧
        m = (low + high) / 2)

theorem ascending_perm (ns : List Int) : (ascending ns).Perm ns := sortBy_perm _ ns

theorem length_ascending (ns : List Int) : (ascending ns).length = ns.length := length_sortBy _ ns

theorem ascending_sorted (ns : List Int) : (ascending ns).Pairwise (· ≤ ·) := by
  have h := sorted_sortBy (total_le fun n : Int => n) (trans_le fun n => n) ns
  exact h.imp fun hle => of_decide_eq_true hle

theorem isMedian_of_median? {ns : List Int} {m : Int} (h : median? ns = some m) : IsMedian m ns := by
  refine ⟨ascending ns, ascending_perm ns, ascending_sorted ns, ?_⟩
  unfold median? at h
  simp only [length_ascending] at h
  split at h
  · rename_i hodd
    exact Or.inl ⟨ns.length / 2, by omega, h⟩
  · rename_i heven
    split at h
    · rename_i low high hlow hhigh
      have hlength : ns.length / 2 < ns.length :=
        length_ascending ns ▸ (List.getElem?_eq_some_iff.mp hhigh).1
      have hk : ns.length / 2 = ns.length / 2 - 1 + 1 := by omega
      refine Or.inr ⟨ns.length / 2 - 1, low, high, by omega, hlow, hk ▸ hhigh, ?_⟩
      rw [← Option.some.inj h, floorMean, Int.fdiv_eq_ediv_of_nonneg _ (by decide)]
    · cases h

theorem exists_median? {ns : List Int} (h : ns ≠ []) : ∃ m, median? ns = some m := by
  have hpos := List.length_pos_iff.mpr h
  unfold median?
  simp only [length_ascending]
  split
  · rename_i hodd
    exact ⟨_, List.getElem?_eq_getElem (by rw [length_ascending]; omega)⟩
  · rename_i heven
    rw [List.getElem?_eq_getElem (i := ns.length / 2 - 1) (by rw [length_ascending]; omega),
      List.getElem?_eq_getElem (i := ns.length / 2) (by rw [length_ascending]; omega)]
    exact ⟨_, rfl⟩

theorem ascending_of_perm {ns ns' : List Int} (h : ns.Perm ns') : ascending ns = ascending ns' :=
  sortBy_eq_of_perm (total_le fun n : Int => n) (trans_le fun n => n) h fun _ _ _ _ hab hba =>
    Int.le_antisymm (of_decide_eq_true hab) (of_decide_eq_true hba)

theorem median?_of_perm {ns ns' : List Int} (h : ns.Perm ns') : median? ns = median? ns' := by
  unfold median?
  rw [ascending_of_perm h]

theorem IsMedian.perm {m : Int} {ns ns' : List Int} (h : IsMedian m ns) (hperm : ns.Perm ns') : IsMedian m ns' := by
  obtain ⟨sorted, hsorted, hascending, hmiddle⟩ := h
  rw [hperm.length_eq] at hmiddle
  exact ⟨sorted, hsorted.trans hperm, hascending, hmiddle⟩

theorem IsMedian.lt_of_forall {m b : Int} {ns : List Int} (hm : IsMedian m ns) (h : ∀ n ∈ ns, b < n) : b < m := by
  obtain ⟨sorted, hperm, -, ⟨k, -, hmid⟩ | ⟨k, low, high, -, hlow, hhigh, rfl⟩⟩ := hm
  · exact h m (hperm.mem_iff.mp (List.mem_of_getElem? hmid))
  · have hl := h low (hperm.mem_iff.mp (List.mem_of_getElem? hlow))
    have hh := h high (hperm.mem_iff.mp (List.mem_of_getElem? hhigh))
    omega

/-! ### Medians of attestations -/

theorem price_eq_ok {a : Attestation} {asset : Text} {price : Int} :
    a.price asset = .ok price ↔ a.prices.get? asset = some price := by
  unfold Attestation.price
  cases a.prices.get? asset with
  | none => simp
  | some p => simp

theorem medianPrice_eq_ok {quorum : List Attestation} {asset : Text} {m : Int} :
    medianPrice quorum asset = .ok m ↔
      ∃ prices, List.Forall₂ (fun a price => a.prices.get? asset = some price) quorum prices ∧
        median? prices = some m := by
  unfold medianPrice
  rw [bind_eq_ok]
  refine exists_congr fun prices => ?_
  rw [mapM_eq_ok]
  simp only [price_eq_ok]
  refine and_congr_right fun _ => ?_
  cases median? prices with
  | none => simp [throw, throwThe, MonadExceptOf.throw]
  | some price => simp [pure, Except.pure]

section
variable {quorum quorum' : List Attestation} {asset : Text}

theorem medianPrice_of_unpriced {a : Attestation} (ha : a ∈ quorum) (h : a.prices.get? asset = none) :
    medianPrice quorum asset = .error (.missingPrice asset) := by
  cases hm : medianPrice quorum asset with
  | ok m =>
    obtain ⟨prices, hprices, -⟩ := medianPrice_eq_ok.mp hm
    obtain ⟨price, -, hprice⟩ := Forall₂.exists_right hprices ha
    cases h.symm.trans hprice
  | error e =>
    -- Whichever attestation is met first, the error names the asset and nothing else.
    rcases bind_eq_error.mp hm with hprices | ⟨prices, hprices, -⟩
    · obtain ⟨b, -, hb⟩ := exists_of_mapM_error hprices
      unfold Attestation.price at hb
      split at hb
      · cases hb
      · rw [← Except.error.inj hb]
    · obtain ⟨price, -, hprice⟩ := Forall₂.exists_right (mapM_eq_ok.mp hprices) ha
      cases h.symm.trans (price_eq_ok.mp hprice)

theorem medianPrice_of_priced {prices : List Int}
    (h : List.Forall₂ (fun a price => a.prices.get? asset = some price) quorum prices) :
    medianPrice quorum asset = (median? prices).elim (.error .empty) .ok := by
  unfold medianPrice
  rw [bind_of_eq_ok (mapM_eq_ok.mpr (h.imp fun _ _ => price_eq_ok.mpr))]
  cases median? prices with
  | none => rfl
  | some m => rfl

theorem medianPrice_eq_ok_of_priced {prices : List Int} {m : Int}
    (h : List.Forall₂ (fun a price => a.prices.get? asset = some price) quorum prices) :
    medianPrice quorum asset = .ok m ↔ median? prices = some m := by
  rw [medianPrice_of_priced h]
  cases median? prices with
  | none => simp
  | some n => simp

/-- The median does not depend on the order of the attestations, nor does the error if there is none. -/
theorem medianPrice_of_perm (h : quorum.Perm quorum') : medianPrice quorum asset = medianPrice quorum' asset := by
  by_cases hpriced : ∀ a ∈ quorum', ∃ price, a.prices.get? asset = some price
  · obtain ⟨prices', hprices'⟩ := exists_forall₂ hpriced
    obtain ⟨prices, hprices, hsame⟩ := List.perm_comp_forall₂ h hprices'
    rw [medianPrice_of_priced hprices, medianPrice_of_priced hprices', median?_of_perm hsame]
  · obtain ⟨a, ha⟩ := not_forall.mp hpriced
    obtain ⟨hmem, hnone⟩ := Classical.not_imp.mp ha
    have hget : a.prices.get? asset = none := Option.eq_none_iff_forall_ne_some.mpr fun price hprice =>
      hnone ⟨price, hprice⟩
    rw [medianPrice_of_unpriced (h.mem_iff.mpr hmem) hget, medianPrice_of_unpriced hmem hget]

end

end Solvency
