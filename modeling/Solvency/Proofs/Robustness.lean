import Solvency.Proofs.Medians

/-! Robustness of medians: how far prices can move a median. As long as the arbitrary prices are fewer than half, the
    middle ranks are held between two of the others. A rank is read off the number of prices up to a bound, so that
    neither the order of the attestations nor anything but these numbers matters. -/

namespace Solvency

/-! ### Ranks -/

/-- What holds of a number only if it holds of all lower ones holds of the number at a rank exactly if it holds of more
    numbers than are in front of that rank. -/
theorem getElem?_iff_lt_countP {sorted : List Int} (ascending : sorted.Pairwise (· ≤ ·)) {p : Int → Bool}
    (down : ∀ a b, a ≤ b → p b = true → p a = true) {k : Nat} {n : Int} (hn : sorted[k]? = some n) :
    p n = true ↔ k < sorted.countP p := by
  induction sorted generalizing k with
  | nil => cases hn
  | cons a sorted ih =>
    obtain ⟨hfirst, hsorted⟩ := List.pairwise_cons.mp ascending
    by_cases ha : p a = true
    · rw [List.countP_cons_of_pos ha]
      cases k with
      | zero =>
        obtain rfl := Option.some.inj hn
        exact ⟨fun _ => by omega, fun _ => ha⟩
      | succ k =>
        rw [ih hsorted hn]
        omega
    · -- the first number is the lowest one, so that `p` holds of none
      have hnone : ∀ b ∈ a :: sorted, ¬p b = true := by
        intro b hb hpb
        rcases List.mem_cons.mp hb with rfl | hb
        · exact ha hpb
        · exact ha (down a b (hfirst b hb) hpb)
      rw [List.countP_eq_zero.mpr hnone]
      exact iff_of_false (hnone n (List.mem_of_getElem? hn)) (Nat.not_lt_zero k)

theorem rank_le_iff {sorted : List Int} (ascending : sorted.Pairwise (· ≤ ·)) {k : Nat} {n : Int}
    (hn : sorted[k]? = some n) (b : Int) : n ≤ b ↔ k < sorted.countP fun a => decide (a ≤ b) := by
  have down : ∀ a a', a ≤ a' → decide (a' ≤ b) = true → decide (a ≤ b) = true := fun a a' hle ha' =>
    decide_eq_true (Int.le_trans hle (of_decide_eq_true ha'))
  rw [← getElem?_iff_lt_countP ascending down hn, decide_eq_true_iff]

theorem rank_lt_iff {sorted : List Int} (ascending : sorted.Pairwise (· ≤ ·)) {k : Nat} {n : Int}
    (hn : sorted[k]? = some n) (b : Int) : n < b ↔ k < sorted.countP fun a => decide (a < b) := by
  have down : ∀ a a', a ≤ a' → decide (a' < b) = true → decide (a < b) = true := fun a a' hle ha' =>
    decide_eq_true (Int.lt_of_le_of_lt hle (of_decide_eq_true ha'))
  rw [← getElem?_iff_lt_countP ascending down hn, decide_eq_true_iff]

theorem rank_le_rank {sorted : List Int} (ascending : sorted.Pairwise (· ≤ ·)) {j k : Nat} {n n' : Int}
    (hn : sorted[j]? = some n) (hn' : sorted[k]? = some n') (hjk : j ≤ k) : n ≤ n' :=
  (rank_le_iff ascending hn n').mpr (Nat.lt_of_le_of_lt hjk ((rank_le_iff ascending hn' n').mp (Int.le_refl n')))

theorem countP_le_of_forall₂ {ns ns' : List Int} (h : List.Forall₂ (· ≤ ·) ns ns') (b : Int) :
    (ns'.countP fun a => decide (a ≤ b)) ≤ ns.countP fun a => decide (a ≤ b) := by
  induction h with
  | nil => exact Nat.le_refl _
  | @cons n n' ns ns' hle _ ih =>
    rw [List.countP_cons, List.countP_cons]
    simp only [decide_eq_true_iff]
    split <;> split <;> omega

/-- No rank falls when numbers are raised. -/
theorem rank_le_of_forall₂ {ns ns' sorted sorted' : List Int} (h : List.Forall₂ (· ≤ ·) ns ns')
    (hperm : sorted.Perm ns) (hperm' : sorted'.Perm ns') (ascending : sorted.Pairwise (· ≤ ·))
    (ascending' : sorted'.Pairwise (· ≤ ·)) {k : Nat} {n n' : Int} (hn : sorted[k]? = some n)
    (hn' : sorted'[k]? = some n') : n ≤ n' := by
  have hrank := (rank_le_iff ascending' hn' n').mp (Int.le_refl n')
  have hfewer := countP_le_of_forall₂ h n'
  rw [← hperm.countP_eq, ← hperm'.countP_eq] at hfewer
  exact (rank_le_iff ascending hn n').mpr (Nat.lt_of_lt_of_le hrank hfewer)

/-- One of some numbers is no greater than the number at a rank, unless there are enough others to fill the ranks up to
    it. -/
theorem exists_le_of_rank {trusted others sorted : List Int} (hperm : sorted.Perm (trusted ++ others))
    (ascending : sorted.Pairwise (· ≤ ·)) {k : Nat} {n : Int} (hn : sorted[k]? = some n) (few : others.length ≤ k) :
    ∃ a ∈ trusted, a ≤ n := by
  by_contra hnone
  have hrank := (rank_le_iff ascending hn n).mp (Int.le_refl n)
  have htrusted : trusted.countP (fun a => decide (a ≤ n)) = 0 :=
    List.countP_eq_zero.mpr fun a ha hle => hnone ⟨a, ha, of_decide_eq_true hle⟩
  have hothers : others.countP (fun a => decide (a ≤ n)) ≤ others.length := List.countP_le_length
  rw [hperm.countP_eq, List.countP_append] at hrank
  omega

/-- One of some numbers is no less than the number at a rank, unless they are too few to get past it. -/
theorem exists_ge_of_rank {trusted others sorted : List Int} (hperm : sorted.Perm (trusted ++ others))
    (ascending : sorted.Pairwise (· ≤ ·)) {k : Nat} {n : Int} (hn : sorted[k]? = some n) (many : k < trusted.length) :
    ∃ a ∈ trusted, n ≤ a := by
  by_contra hnone
  have hrank := mt (rank_lt_iff ascending hn n).mpr (Int.lt_irrefl n)
  have htrusted : trusted.countP (fun a => decide (a < n)) = trusted.length :=
    List.countP_eq_length.mpr fun a ha => decide_eq_true (Int.not_le.mp fun hle => hnone ⟨a, ha, hle⟩)
  rw [hperm.countP_eq, List.countP_append] at hrank
  omega

/-! ### Middle ranks -/

namespace IsMedian
variable {m m' : Int} {ns ns' : List Int}

/-- The median is the mean of the two middle ranks, which are one and the same for an odd number. -/
theorem middle (h : IsMedian m ns) : ∃ (sorted : List Int) (low high : Int), sorted.Perm ns ∧ sorted.Pairwise (· ≤ ·) ∧
    sorted[(ns.length - 1) / 2]? = some low ∧ sorted[ns.length / 2]? = some high ∧ m = (low + high) / 2 := by
  obtain ⟨sorted, hperm, hascending, ⟨k, hlength, hmid⟩ | ⟨k, low, high, hlength, hlow, hhigh, rfl⟩⟩ := h
  · have hlow : (ns.length - 1) / 2 = k := by omega
    have hhigh : ns.length / 2 = k := by omega
    exact ⟨sorted, m, m, hperm, hascending, hlow ▸ hmid, hhigh ▸ hmid, by omega⟩
  · have hk : (ns.length - 1) / 2 = k := by omega
    have hk' : ns.length / 2 = k + 1 := by omega
    exact ⟨sorted, low, high, hperm, hascending, hk ▸ hlow, hk' ▸ hhigh, rfl⟩

theorem le_of_forall₂ (hm : IsMedian m ns) (hm' : IsMedian m' ns') (h : List.Forall₂ (· ≤ ·) ns ns') : m ≤ m' := by
  obtain ⟨sorted, low, high, hperm, hascending, hlow, hhigh, rfl⟩ := hm.middle
  obtain ⟨sorted', low', high', hperm', hascending', hlow', hhigh', rfl⟩ := hm'.middle
  rw [← h.length_eq] at hlow' hhigh'
  have hlows := rank_le_of_forall₂ h hperm hperm' hascending hascending' hlow hlow'
  have hhighs := rank_le_of_forall₂ h hperm hperm' hascending hascending' hhigh hhigh'
  omega

/-- Of numbers that are more than half of all, one is no greater than the median, and one is no less. -/
theorem between {trusted others : List Int} (hm : IsMedian m (trusted ++ others))
    (few : others.length < trusted.length) : (∃ n ∈ trusted, n ≤ m) ∧ ∃ n ∈ trusted, m ≤ n := by
  obtain ⟨sorted, low, high, hperm, hascending, hlow, hhigh, rfl⟩ := hm.middle
  have hle : low ≤ high :=
    rank_le_rank hascending hlow hhigh (by omega)
  rw [List.length_append] at hlow hhigh
  obtain ⟨a, ha, halow⟩ := exists_le_of_rank hperm hascending hlow (by omega)
  obtain ⟨b, hb, hbhigh⟩ := exists_ge_of_rank hperm hascending hhigh (by omega)
  exact ⟨⟨a, ha, by omega⟩, b, hb, by omega⟩

end IsMedian

/-! ### Medians of a quorum -/

/-- One attestation has at least the price for an asset that another one has. -/
def Attestation.PricedUpTo (asset : Text) (a b : Attestation) : Prop :=
  ∃ price price', a.prices.get? asset = some price ∧ b.prices.get? asset = some price' ∧ price ≤ price'

section
variable {quorum : List Attestation} {asset : Text}

theorem exists_raised_prices {raised : List Attestation} {prices : List Int}
    (hprices : List.Forall₂ (fun a price => a.prices.get? asset = some price) quorum prices)
    (h : List.Forall₂ (Attestation.PricedUpTo asset) quorum raised) :
    ∃ prices', List.Forall₂ (fun a price => a.prices.get? asset = some price) raised prices' ∧
      List.Forall₂ (· ≤ ·) prices prices' := by
  induction h generalizing prices with
  | nil =>
    obtain rfl := List.forall₂_nil_left_iff.mp hprices
    exact ⟨[], .nil, .nil⟩
  | cons hup _ ih =>
    obtain ⟨price, prices, hprice, hlater, rfl⟩ := List.forall₂_cons_left_iff.mp hprices
    obtain ⟨old, price', hold, hprice', hle⟩ := hup
    obtain rfl := Option.some.inj (hold.symm.trans hprice)
    obtain ⟨prices', hprices', hraised⟩ := ih hlater
    exact ⟨price' :: prices', .cons hprice' hprices', .cons hle hraised⟩

/-- The median of a quorum whose members all price an asset is held between prices of any members that are more than
    half of it, whatever the others have; it does not change with the order of the members, and it does not fall when
    prices are raised. -/
theorem medianPrice_robust (nonempty : quorum ≠ [])
    (priced : ∀ a ∈ quorum, ∃ price, a.prices.get? asset = some price) :
    ∃ m, medianPrice quorum asset = .ok m ∧
      (∀ trusted others : List Attestation, (trusted ++ others).Perm quorum → 2 * others.length < quorum.length →
        (∃ a ∈ trusted, ∃ price, a.prices.get? asset = some price ∧ price ≤ m) ∧
          ∃ a ∈ trusted, ∃ price, a.prices.get? asset = some price ∧ m ≤ price) ∧
      (∀ quorum' : List Attestation, quorum'.Perm quorum → medianPrice quorum' asset = .ok m) ∧
      ∀ raised : List Attestation, List.Forall₂ (Attestation.PricedUpTo asset) quorum raised →
        ∃ m', medianPrice raised asset = .ok m' ∧ m ≤ m' := by
  obtain ⟨prices, hprices⟩ := exists_forall₂ priced
  have hsome : prices ≠ [] := by
    rintro rfl
    exact nonempty (List.forall₂_nil_right_iff.mp hprices)
  obtain ⟨m, hm⟩ := exists_median? hsome
  have hmedian : medianPrice quorum asset = .ok m := (medianPrice_eq_ok_of_priced hprices).mpr hm
  refine ⟨m, hmedian, fun trusted others hperm few => ?_,
    fun quorum' hperm => (medianPrice_of_perm hperm).trans hmedian, fun raised hraised => ?_⟩
  · obtain ⟨trustedPrices, htrusted⟩ := exists_forall₂ fun a (ha : a ∈ trusted) =>
      priced a (hperm.mem_iff.mp (List.mem_append_left others ha))
    obtain ⟨otherPrices, hothers⟩ := exists_forall₂ fun a (ha : a ∈ others) =>
      priced a (hperm.mem_iff.mp (List.mem_append_right trusted ha))
    have hm' : median? (trustedPrices ++ otherPrices) = some m :=
      (medianPrice_eq_ok_of_priced (List.rel_append htrusted hothers)).mp ((medianPrice_of_perm hperm).trans hmedian)
    have hfew : otherPrices.length < trustedPrices.length := by
      rw [← hperm.length_eq, List.length_append, htrusted.length_eq, hothers.length_eq] at few
      omega
    obtain ⟨⟨low, hlow, hle⟩, high, hhigh, hge⟩ := (isMedian_of_median? hm').between hfew
    obtain ⟨a, ha, hgetLow⟩ := Forall₂.exists_left htrusted hlow
    obtain ⟨b, hb, hgetHigh⟩ := Forall₂.exists_left htrusted hhigh
    exact ⟨⟨a, ha, low, hgetLow, hle⟩, b, hb, high, hgetHigh, hge⟩
  · obtain ⟨prices', hprices', hle⟩ := exists_raised_prices hprices hraised
    have hsome' : prices' ≠ [] := by
      rintro rfl
      exact hsome (List.forall₂_nil_right_iff.mp hle)
    obtain ⟨m', hm'⟩ := exists_median? hsome'
    exact ⟨m', (medianPrice_eq_ok_of_priced hprices').mpr hm',
      (isMedian_of_median? hm).le_of_forall₂ (isMedian_of_median? hm') hle⟩

/-- An attestation with one price. -/
def pricedAt (price : Int) : Attestation where
  prices := .ofList [("1", price)]
  dictionary := .empty
  signature := []
  timestamp := 0

/-- One outlier of four does not move the median out of the range of the other prices. -/
theorem medianPrice_robust_outlier :
    let quorum := [pricedAt 7, pricedAt 1000000, pricedAt 5, pricedAt 8]
    quorum ≠ [] ∧ (∀ a ∈ quorum, ∃ price, a.prices.get? "1" = some price) ∧
      ∃ m, medianPrice quorum "1" = .ok m ∧ 5 ≤ m ∧ m ≤ 8 := by
  intro quorum
  have nonempty : quorum ≠ [] := List.cons_ne_nil _ _
  have priced : ∀ a ∈ quorum, ∃ price, a.prices.get? "1" = some price := by
    have hsome : ∀ a ∈ quorum, (a.prices.get? "1").isSome = true := by decide
    exact fun a ha => Option.isSome_iff_exists.mp (hsome a ha)
  obtain ⟨m, hm, hbetween, -, -⟩ := medianPrice_robust nonempty priced
  have hperm : ([pricedAt 7, pricedAt 5, pricedAt 8] ++ [pricedAt 1000000]).Perm quorum :=
    ((List.Perm.swap (pricedAt 1000000) (pricedAt 8) []).cons (pricedAt 5) |>.trans
      (List.Perm.swap (pricedAt 1000000) (pricedAt 5) [pricedAt 8])).cons (pricedAt 7)
  have hrange : ∀ a ∈ [pricedAt 7, pricedAt 5, pricedAt 8], ∀ price ∈ a.prices.get? "1", 5 ≤ price ∧ price ≤ 8 := by
    decide
  obtain ⟨⟨a, ha, low, hlow, hle⟩, b, hb, high, hhigh, hge⟩ := hbetween _ _ hperm (by decide)
  have hlowest := (hrange a ha low hlow).1
  have hhighest := (hrange b hb high hhigh).2
  exact ⟨nonempty, priced, m, hm, by omega, by omega⟩

end

end Solvency
