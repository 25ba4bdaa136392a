import Mathlib.Algebra.Order.BigOperators.Group.List
import Mathlib.Algebra.Order.Group.Int
import Solvency.Proofs.Appraisals

/-! Debts: which debts of a position an assessment counts. It goes through the assets that its source lists, while the
    debts are those of the position, so that a debt is left out exactly if its asset is not listed. -/

namespace Solvency

namespace Position
variable {position : Position} {asset : Text}

/-- The assets in which a position owes something. -/
def debts (position : Position) : List Text := (position.principals.rows.filter fun row => row.2 < 0).map Prod.fst

theorem mem_debts : asset ∈ position.debts ↔ position.principal asset < 0 := by
  rw [debts, List.mem_map, Position.principal]
  constructor
  · rintro ⟨row, hrow, rfl⟩
    obtain ⟨hmem, hneg⟩ := List.mem_filter.mp hrow
    rw [Table.get?_eq_some.mpr hmem]
    simpa using hneg
  · intro hneg
    cases hget : position.principals.get? asset with
    | none =>
      rw [hget] at hneg
      exact absurd hneg (Int.lt_irrefl 0)
    | some principal =>
      rw [hget] at hneg
      exact ⟨(asset, principal), List.mem_filter.mpr ⟨Table.get?_eq_some.mp hget, decide_eq_true hneg⟩, rfl⟩

theorem debts_nodup (position : Position) : position.debts.Nodup :=
  (position.principals.distinct).sublist (List.filter_sublist.map Prod.fst)

end Position

/-! ### Failures -/

theorem Converter.valueOfBalance_error {c : Converter} {asset : Text} {terms : AssetTerms} {balance : Int}
    {e : HealthError} (hterms : c.source.terms asset = some terms) (h : c.valueOfBalance asset balance = .error e) :
    e = .noPrice asset := by
  unfold valueOfBalance at h
  split at h
  · cases h
  · rcases bind_eq_error.mp h with hprice | ⟨price, -, h⟩
    · unfold Converter.price at hprice
      split at hprice
      · cases hprice
      · exact (Except.error.inj hprice).symm
    · rw [terms_eq_ok.mpr hterms] at h
      cases h.symm.trans (proportion_of_ne_zero (Int.ne_of_gt terms.unitScale_pos))

namespace Assessment

section Failures
variable {a : Assessment} {weight : AssetTerms → Int} {scale : Int} {asset : Text × Int} {e : HealthError}

theorem decoded_error {key : Text} (h : a.decoded key = .error e) : e = .undecoded key := by
  unfold decoded at h
  split at h
  · cases h
  · exact (Except.error.inj h).symm

/-- An asset has no line only because it is not decoded or has no price. -/
theorem line_error (hscale : scale ≠ 0) (h : a.line weight scale asset = .error e) :
    e = .undecoded asset.1 ∨ e = .noPrice asset.1 := by
  unfold Assessment.line at h
  split at h
  · cases h
  · rcases bind_eq_error.mp h with hdecoded | ⟨⟨terms, state⟩, hdecoded, h⟩
    · exact Or.inl (decoded_error hdecoded)
    · obtain ⟨hterms, -⟩ := decoded_eq_ok.mp hdecoded
      simp only at h
      split at h
      · rcases bind_eq_error.mp h with hworth | ⟨worth, -, h⟩
        · exact Or.inr (Converter.valueOfBalance_error hterms hworth)
        · rw [proportion_of_ne_zero hscale] at h
          cases h
      · split at h
        · rcases bind_eq_error.mp h with hworth | ⟨worth, -, h⟩
          · exact Or.inr (Converter.valueOfBalance_error hterms hworth)
          · cases h
        · cases h

/-- A health check fails for a key that is no number, or for an asset that is not decoded or has no price. -/
theorem health_error (hscale : a.params.liquidationThresholdScale ≠ 0) (h : a.health = .error e) :
    e = .malformedKey ∨ ∃ key ∈ a.source.keys, e = .undecoded key ∨ e = .noPrice key := by
  rcases bind_eq_error.mp h with hlines | ⟨_, -, h⟩
  · unfold Assessment.lines at hlines
    split at hlines
    · rename_i assets hassets
      obtain ⟨asset, hasset, hline⟩ := exists_of_mapM_error hlines
      have hkey : asset.1 ∈ a.source.keys := (AssetSource.assets?_inv hassets).1 ▸ List.mem_map_of_mem hasset
      exact Or.inr ⟨asset.1, hkey, line_error hscale hline⟩
    · exact Or.inl (Except.error.inj hlines).symm
  · cases h

end Failures

/-! ### Debts that are counted -/

/-- What is owed of an asset, at its borrow index, is worth; nothing where this is not known. -/
def debtWorth (a : Assessment) (key : Text) : Int :=
  ((a.source.state key).map fun state =>
    a.worthOf key (scaled (-a.position.principal key) state.borrowIndex indexScale)).getD 0

/-- A snapshot counts some debts: all that they need is known, and what they are worth is its whole debt. -/
structure Counts (a : Assessment) (debts : List Text) (health : HealthSnapshot) : Prop where
  known : ∀ key ∈ debts, a.Appraisable key
  total : health.totalDebt = (debts.map a.debtWorth).sum

/-- No known index and no known price is negative. -/
structure Nonnegative (a : Assessment) : Prop where
  indices : ∀ key state, a.source.state key = some state → 0 ≤ state.supplyIndex ∧ 0 ≤ state.borrowIndex
  prices : ∀ key price, a.prices key = some price → 0 ≤ price

theorem Sound.nonnegative {a : Assessment} (sound : a.Sound) : a.Nonnegative where
  indices key state h :=
    ⟨sound.state key state h _ (by simp [AssetState.fields]), sound.state key state h _ (by simp [AssetState.fields])⟩
  prices key price h := Int.le_of_lt (sound.price key price h)

section Debts
variable {a : Assessment} {health : HealthSnapshot}

/-- Where no index is negative, what is owed of an asset comes from a negative principal in it. -/
theorem owedWorth_eq (nonnegative : a.Nonnegative) (key : Text) :
    a.owedWorth key = if a.position.principal key < 0 then a.debtWorth key else 0 := by
  cases hstate : a.source.state key with
  | none =>
    have hbalance : a.balanceAt key = 0 := by rw [balanceAt, hstate]; rfl
    rw [owedWorth_of_nonneg (Int.le_of_eq hbalance.symm), debtWorth, hstate]
    exact (ite_self 0).symm
  | some state =>
    obtain ⟨hsupply, hborrow⟩ := nonnegative.indices key state hstate
    split
    · rename_i hneg
      have hprincipal := Int.le_of_lt hneg
      have hbalance : a.balanceAt key = scaled (a.position.principal key) state.borrowIndex indexScale :=
        (balanceAt_of_state hstate).trans (Position.balanceOf_of_nonpos hprincipal)
      have howed : a.balanceAt key ≤ 0 := hbalance ▸ scaled_nonpos hprincipal hborrow indexScale_pos
      rw [owedWorth_of_nonpos howed, hbalance, ← scaled_neg_left, debtWorth, hstate]
      rfl
    · rename_i hnonneg
      have hprincipal := Int.not_lt.mp hnonneg
      have hbalance : a.balanceAt key = scaled (a.position.principal key) state.supplyIndex indexScale :=
        (balanceAt_of_state hstate).trans (Position.balanceOf_of_nonneg hprincipal)
      refine owedWorth_of_nonneg ?_
      rw [hbalance]
      exact scaled_nonneg hprincipal hsupply (Int.le_of_lt indexScale_pos)

theorem worthOf_mono {key : Text} (prices : ∀ price, a.prices key = some price → 0 ≤ price) {amount amount' : Int}
    (h : amount ≤ amount') : a.worthOf key amount ≤ a.worthOf key amount' := by
  unfold worthOf
  split
  · rename_i price terms hprice _
    exact scaled_le_scaled terms.unitScale_pos (Int.mul_le_mul_of_nonneg_right h (prices price hprice))
  · exact Int.le_refl 0

theorem worthOf_nonneg (nonnegative : a.Nonnegative) (key : Text) {amount : Int} (h : 0 ≤ amount) :
    0 ≤ a.worthOf key amount := by
  have hworth := worthOf_mono (nonnegative.prices key) h
  rwa [worthOf_zero] at hworth

theorem debtWorth_nonneg (nonnegative : a.Nonnegative) {key : Text} (h : key ∈ a.position.debts) :
    0 ≤ a.debtWorth key := by
  unfold debtWorth
  cases hstate : a.source.state key with
  | none => exact Int.le_refl 0
  | some state =>
    have hprincipal := Position.mem_debts.mp h
    have hborrow := (nonnegative.indices key state hstate).2
    exact worthOf_nonneg nonnegative key (scaled_nonneg (by omega) hborrow (Int.le_of_lt indexScale_pos))

theorem sum_owedWorth (nonnegative : a.Nonnegative) (once : a.source.keys.Nodup) :
    (a.source.keys.map a.owedWorth).sum =
      ((a.position.debts.filter (· ∈ a.source.keys)).map a.debtWorth).sum := by
  -- both name the assets that are listed and owed, each of them once
  have hperm : (a.source.keys.filter (a.position.principal · < 0)).Perm
      (a.position.debts.filter (· ∈ a.source.keys)) := by
    refine (List.perm_ext_iff_of_nodup (once.filter _) (a.position.debts_nodup.filter _)).mpr fun key => ?_
    simp only [List.mem_filter, decide_eq_true_eq, Position.mem_debts]
    exact and_comm
  have hnothing : ((a.source.keys.filter (¬a.position.principal · < 0)).map fun _ => (0 : Int)).sum = 0 :=
    List.sum_eq_zero fun worth hworth => (List.mem_map.mp hworth).elim fun _ h => h.2.symm
  rw [List.map_congr_left fun key _ => owedWorth_eq nonnegative key, List.sum_map_ite, hnothing, Int.add_zero]
  exact (hperm.map a.debtWorth).sum_eq

theorem counts_listed (scale : a.params.liquidationThresholdScale ≠ 0) (nonnegative : a.Nonnegative)
    (once : a.source.keys.Nodup) (h : a.health = .ok health) :
    a.Counts (a.position.debts.filter (· ∈ a.source.keys)) health := by
  constructor
  · intro key hkey
    exact appraisable_of_health scale h key (of_decide_eq_true (List.mem_filter.mp hkey).2)
  · rw [← sum_owedWorth nonnegative once]
    exact (totals_of_health scale h).2.1

/-- Where some of the debts are counted, all of them are exactly if each of the others is known to be worth nothing. -/
theorem Counts.all_iff (nonnegative : a.Nonnegative) {listed : Text → Prop} [DecidablePred listed]
    (h : a.Counts (a.position.debts.filter listed) health) :
    a.Counts a.position.debts health ↔
      ∀ key ∈ a.position.debts, ¬listed key → a.Appraisable key ∧ a.debtWorth key = 0 := by
  have hsplit : ((a.position.debts.filter listed).map a.debtWorth).sum +
      ((a.position.debts.filter fun key => ¬listed key).map a.debtWorth).sum = (a.position.debts.map a.debtWorth).sum :=
    List.sum_map_filter_add_sum_map_filter_not listed a.debtWorth a.position.debts
  have htotal := h.total
  constructor
  · intro hall key hkey hout
    have hrest : ((a.position.debts.filter fun key => ¬listed key).map a.debtWorth).sum = 0 := by
      have hwhole := hall.total
      omega
    refine ⟨hall.known key hkey, List.all_zero_of_le_zero_le_of_sum_eq_zero (fun worth hworth => ?_) hrest
      (List.mem_map_of_mem (List.mem_filter.mpr ⟨hkey, decide_eq_true hout⟩))⟩
    obtain ⟨key', hkey', rfl⟩ := List.mem_map.mp hworth
    exact debtWorth_nonneg nonnegative (List.mem_filter.mp hkey').1
  · intro hrest
    refine ⟨fun key hkey => ?_, ?_⟩
    · by_cases hlisted : listed key
      · exact h.known key (List.mem_filter.mpr ⟨hkey, decide_eq_true hlisted⟩)
      · exact (hrest key hkey hlisted).1
    · have hnothing : ((a.position.debts.filter fun key => ¬listed key).map a.debtWorth).sum = 0 := by
        refine List.sum_eq_zero fun worth hworth => ?_
        obtain ⟨key, hkey, rfl⟩ := List.mem_map.mp hworth
        obtain ⟨hmem, hout⟩ := List.mem_filter.mp hkey
        exact (hrest key hmem (of_decide_eq_true hout)).2
      omega

end Debts

end Assessment

/-- A position that owes something of a listed asset which is not decoded has no snapshot, and a snapshot counts the
    debts in all listed assets. It counts every debt of the position exactly if each debt in an asset that is not listed
    is known to be worth nothing. -/
theorem debts_counted_iff (a : Assessment) (scale : a.params.liquidationThresholdScale ≠ 0)
    (nonnegative : a.Nonnegative) (once : a.source.keys.Nodup) :
    ((∃ key ∈ a.position.debts, key ∈ a.source.keys ∧ (a.source.terms key = none ∨ a.source.state key = none)) →
      a.health = .error .malformedKey ∨
        ∃ key ∈ a.source.keys, a.health = .error (.undecoded key) ∨ a.health = .error (.noPrice key)) ∧
    ∀ health, a.health = .ok health →
      a.Counts (a.position.debts.filter (· ∈ a.source.keys)) health ∧
      (a.Counts a.position.debts health ↔
        ∀ key ∈ a.position.debts, key ∉ a.source.keys → a.Appraisable key ∧ a.debtWorth key = 0) := by
  constructor
  · rintro ⟨key, hdebt, hlisted, hundecoded⟩
    cases hhealth : a.health with
    | ok health =>
      have hknown := (Assessment.counts_listed scale nonnegative once hhealth).known key
        (List.mem_filter.mpr ⟨hdebt, decide_eq_true hlisted⟩)
      obtain ⟨⟨terms, hterms⟩, state, hstate⟩ := hknown.decoded (Int.ne_of_lt (Position.mem_debts.mp hdebt))
      rcases hundecoded with hnone | hnone
      · cases hterms.symm.trans hnone
      · cases hstate.symm.trans hnone
    | error e =>
      rcases Assessment.health_error scale hhealth with rfl | ⟨key', hkey', rfl | rfl⟩
      · exact Or.inl rfl
      · exact Or.inr ⟨key', hkey', Or.inl rfl⟩
      · exact Or.inr ⟨key', hkey', Or.inr rfl⟩
  · intro health hhealth
    have hcounts := Assessment.counts_listed scale nonnegative once hhealth
    exact ⟨hcounts, hcounts.all_iff nonnegative⟩

/-- A position that owes something of an asset that the sample store does not list. -/
def strayPosition : Position := { principals := .ofList [("1", 500000000007), ("3", -1350000003)] }

/-- The snapshot counts the debts in the assets of the store, of which there are none, but not the debt outside. -/
theorem debts_counted_iff_stray :
    let a := leveragedStore.assess strayPosition leveragedPrices.get?
    ∃ health, a.health = .ok health ∧ a.Counts [] health ∧ ¬a.Counts ["3"] health := by
  intro a
  obtain ⟨health, hhealth⟩ : ∃ health, a.health = .ok health := ⟨{
    totalSupply := 1653150000547, totalDebt := 0, totalLimit := 1405177500464, greatestCollateralAsset := some 1
    greatestCollateralValue := 1653150000547, greatestLoanAsset := none, greatestLoanValue := 0 }, by decide +kernel⟩
  have sound : a.Sound := AssetStore.sound_assess (by decide +kernel) (by decide +kernel) (by decide +kernel)
  obtain ⟨hcounted, hall⟩ := (debts_counted_iff a (by decide) sound.nonnegative (by decide +kernel)).2 health hhealth
  refine ⟨health, hhealth, hcounted, fun hstray => ?_⟩
  have hknown := (hall.mp hstray "3" (by decide +kernel) (by decide +kernel)).1
  obtain ⟨⟨terms, hterms⟩, -⟩ := hknown.decoded (by decide +kernel)
  cases hterms

/-- A position may owe something of an asset that the source does not know, and its snapshot still has no debt. -/
theorem stray_debt_left_out :
    let a := leveragedStore.assess strayPosition leveragedPrices.get?
    a.position.debts = (["3"] : List Text) ∧ a.source.terms "3" = none ∧ a.source.state "3" = none ∧
      a.health.map HealthSnapshot.totalDebt = .ok 0 := by
  decide +kernel

end Solvency
