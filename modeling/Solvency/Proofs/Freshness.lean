import Mathlib.Data.List.Perm.Subperm
import Solvency.Oracle.Verification
import Solvency.Proofs.Tables
import Solvency.Proofs.Traversal

/-! Verification of attestations: what an attestation has to be so that no cause leaves it out. By a clock of whole
    seconds it is no older than the limit, and by every clock it has a positive price for each of the assets. -/

namespace Solvency.Attestation

/-- The attestation has a positive price for every one of some assets. -/
def Prices (a : Attestation) (assets : List Text) : Prop :=
  ∀ asset ∈ assets, ∃ price, a.prices.get? asset = some price ∧ 0 < price

instance (a : Attestation) (assets : List Text) : Decidable (a.Prices assets) :=
  decidable_of_iff (∀ asset ∈ assets, (a.prices.get? asset).any (0 < ·) = true) (by simp [Prices, Option.any_eq_true])

section
variable {a : Attestation} {assets : List Text} {ttl : Int}

theorem judgePrice_eq_none {asset : Text} :
    a.judgePrice asset = none ↔ ∃ price, a.prices.get? asset = some price ∧ 0 < price := by
  unfold judgePrice
  cases a.prices.get? asset with
  | none => simp
  | some price => simp

theorem prices_of_judgePrices (h : a.judgePrices assets = none) : a.Prices assets := by
  unfold judgePrices at h
  split at h
  · cases h
  · exact fun asset hasset => judgePrice_eq_none.mp (List.findSome?_eq_none_iff.mp h asset hasset)

/-- There are no fewer prices than assets if each asset has one of its own. -/
theorem judgePrices_of_prices (distinct : assets.Nodup) (h : a.Prices assets) : a.judgePrices assets = none := by
  have hkeys : ∀ asset ∈ assets, asset ∈ a.prices.keys := fun asset hasset => by
    obtain ⟨price, hprice, -⟩ := h asset hasset
    exact List.mem_map_of_mem (Table.get?_eq_some.mp hprice)
  have hsize : assets.length ≤ a.prices.size := by
    rw [Table.size, ← List.length_map (f := Prod.fst)]
    exact (List.subperm_of_subset distinct hkeys).length_le
  rw [judgePrices, if_neg (Nat.not_lt.mpr hsize)]
  exact List.findSome?_eq_none_iff.mpr fun asset hasset => judgePrice_eq_none.mpr (h asset hasset)

theorem judgePrices_of_verify {now : Instant} (h : a.verify assets now ttl = .ok none) :
    a.judgePrices assets = none := by
  obtain ⟨late, -, h⟩ := bind_eq_ok.mp h
  split at h
  · cases h
  · exact Except.ok.inj h

theorem prices_of_verify {now : Instant} (h : a.verify assets now ttl = .ok none) : a.Prices assets :=
  prices_of_judgePrices (judgePrices_of_verify h)

theorem fresh_of_verify {now : Int} (h : a.verify assets (.whole now) ttl = .ok none) : now - a.timestamp ≤ ttl := by
  obtain ⟨late, hlate, h⟩ := bind_eq_ok.mp h
  have hdecide : decide (ttl < now - a.timestamp) = late := Except.ok.inj hlate
  split at h
  · cases h
  · rename_i hfalse
    rw [← hdecide, decide_eq_true_eq] at hfalse
    omega

/-- A clock of whole seconds has a verdict on every attestation. -/
theorem exists_verify_whole (a : Attestation) (assets : List Text) (now ttl : Int) :
    ∃ rejection, a.verify assets (.whole now) ttl = .ok rejection := by
  by_cases hlate : ttl < now - a.timestamp
  · exact ⟨some .stale, bind_eq_ok.mpr ⟨true, congrArg Except.ok (decide_eq_true hlate), rfl⟩⟩
  · exact ⟨a.judgePrices assets, bind_eq_ok.mpr ⟨false, congrArg Except.ok (decide_eq_false hlate), rfl⟩⟩

theorem verify_whole_eq_none_iff {now : Int} (distinct : assets.Nodup) :
    a.verify assets (.whole now) ttl = .ok none ↔ now - a.timestamp ≤ ttl ∧ a.Prices assets := by
  refine ⟨fun h => ⟨fresh_of_verify h, prices_of_verify h⟩, fun ⟨hfresh, hprices⟩ => ?_⟩
  have hearly : decide (ttl < now - a.timestamp) = false := decide_eq_false (by omega)
  exact bind_eq_ok.mpr ⟨false, congrArg Except.ok hearly, congrArg Except.ok (judgePrices_of_prices distinct hprices)⟩

/-- The attestation cannot be compared with a time: this has a fraction, and the time of the attestation is beyond the
    numbers that a fraction is kept for. -/
def Incomparable (a : Attestation) (now : Instant) : Prop :=
  ∃ seconds negative, now = .fractional seconds ∧ Binary64.ofInt a.timestamp = .infinite negative

theorem exists_verify_error_iff {now : Instant} :
    (∃ e, a.verify assets now ttl = .error e) ↔ a.Incomparable now := by
  constructor
  · rintro ⟨e, h⟩
    rcases bind_eq_error.mp h with hlate | ⟨late, -, h⟩
    · unfold Instant.isLaterBy at hlate
      split at hlate
      · cases hlate
      · rename_i seconds
        split at hlate
        · rename_i negative hbeyond
          exact ⟨seconds, negative, rfl, hbeyond⟩
        · cases hlate
    · split at h <;> cases h
  · rintro ⟨seconds, negative, rfl, hbeyond⟩
    refine ⟨.tooLarge, bind_eq_error.mpr (Or.inl ?_)⟩
    rw [Instant.isLaterBy, hbeyond]

end

end Solvency.Attestation
