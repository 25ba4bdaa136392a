import Solvency.Deployment.Validation
import Solvency.Proofs.Decimals
import Solvency.Proofs.Digests
import Solvency.Proofs.Tables
import Solvency.Proofs.Traversal

/-! Deployments: what their validation establishes, and the keys that their assets are known by. A key is the text of
    the number of an asset, so that the number is read back from it. -/

namespace Solvency.Deployment

section
variable {d : Deployment}

/-- A deployment that is in order has assets, and a positive quorum of oracles whose ids differ. -/
theorem validate_inv (h : d.validate = .ok ()) :
    d.assets ≠ [] ∧ 1 ≤ d.feed.minimalOracles ∧ d.feed.minimalOracles ≤ d.feed.oracles.length ∧
      (d.feed.oracles.map OracleSpec.id).Nodup := by
  obtain ⟨_, hassets, h⟩ := bind_eq_ok.mp h
  obtain ⟨_, horacles, -⟩ := bind_eq_ok.mp h
  have hnonempty : d.assets ≠ [] := by
    intro hnil
    rw [checkAssets, hnil] at hassets
    cases hassets
  unfold checkOracles at horacles
  split at horacles
  · cases horacles
  · rename_i hsmall
    split at horacles
    · cases horacles
    · rename_i hfew
      split at horacles
      · rename_i hnodup
        exact ⟨hnonempty, by omega, by omega, hnodup⟩
      · cases horacles

theorem nodup_oracles (h : (d.feed.oracles.map OracleSpec.id).Nodup) : d.feed.oracles.Nodup :=
  List.Nodup.of_map OracleSpec.id h

end

/-- The name of every asset can be encoded, so that each asset has a number. -/
def Encodable (d : Deployment) : Prop := ∀ asset ∈ d.assets, asset.hasId = true

instance (d : Deployment) : Decidable d.Encodable := inferInstanceAs (Decidable (∀ asset ∈ d.assets, asset.hasId = true))

theorem assetIds?_eq_some {d : Deployment} {ids : Table Text Int} :
    d.assetIds? = some ids ↔ d.Encodable ∧ d.assetIds = ids := by
  have hall : d.assets.all AssetSpec.hasId = true ↔ d.Encodable := List.all_eq_true
  rw [assetIds?, ← hall]
  cases d.assets.all AssetSpec.hasId <;> simp

theorem assetIds?_of_encodable {d : Deployment} (h : d.Encodable) : d.assetIds? = some d.assetIds :=
  assetIds?_eq_some.mpr ⟨h, rfl⟩

theorem assetIds?_of_not_encodable {d : Deployment} (h : ¬d.Encodable) : d.assetIds? = none :=
  Option.eq_none_iff_forall_ne_some.mpr fun _ hids => h (assetIds?_eq_some.mp hids).1

/-! ### Keys of assets -/

section
variable {d : Deployment}

theorem pow_le_pow_of_le {k : Nat} (h : 256 ≤ k) : Nat.pow 2 256 ≤ Nat.pow 10 k :=
  Nat.le_trans (Nat.pow_le_pow_left (by decide : 2 ≤ 10) 256) (Nat.pow_le_pow_right (by decide) h)

theorem isWritable_of_lt {id : Int} (hpos : 0 ≤ id) (hlt : id < Nat.pow 2 256) : Text.isWritable id = true := by
  have habs : id.natAbs < Nat.pow 2 256 := by omega
  exact decide_eq_true (Nat.lt_of_lt_of_le habs (pow_le_pow_of_le (by decide)))

/-- What fits the place of an oracle id in a payload can be written. -/
theorem isWritable_of_fits {id : Int} (fits : 0 ≤ id ∧ id < Nat.pow 2 32) : Text.isWritable id = true :=
  isWritable_of_lt fits.1 (Int.lt_trans fits.2 (by decide))

theorem isWritable_id (asset : AssetSpec) : Text.isWritable asset.id = true :=
  isWritable_of_lt asset.id_nonneg asset.id_lt

theorem readInteger_key (asset : AssetSpec) : Text.readInteger asset.key = some asset.id :=
  Text.readInteger_decimal (isWritable_id asset)

theorem mem_keys_assetIds {key : Text} : key ∈ d.assetIds.keys ↔ ∃ asset ∈ d.assets, asset.key = key := by
  rw [assetIds, Table.mem_keys_ofList, List.map_map, List.mem_map]
  rfl

theorem key_mem_assetIds {asset : AssetSpec} (h : asset ∈ d.assets) : asset.key ∈ d.assetIds.keys :=
  mem_keys_assetIds.mpr ⟨asset, h, rfl⟩

theorem keys_assetIds_ne_nil (h : d.assets ≠ []) : d.assetIds.keys ≠ [] := by
  obtain ⟨asset, hasset⟩ := List.exists_mem_of_ne_nil _ h
  exact List.ne_nil_of_mem (key_mem_assetIds hasset)

theorem exists_number_of_key {key : Text} (h : key ∈ d.assetIds.keys) :
    ∃ id, Text.readInteger key = some id ∧ 0 ≤ id ∧ id < Nat.pow 2 256 := by
  obtain ⟨asset, -, rfl⟩ := mem_keys_assetIds.mp h
  exact ⟨asset.id, readInteger_key asset, asset.id_nonneg, asset.id_lt⟩

/-- Assets of distinct numbers are listed under their keys in the configured order. -/
theorem keys_assetIds (h : (d.assets.map AssetSpec.id).Nodup) : d.assetIds.keys = d.assets.map AssetSpec.key := by
  have hkeys : ((d.assets.map fun asset => (asset.key, asset.id)).map Prod.fst) = d.assets.map AssetSpec.key := by
    rw [List.map_map]
    rfl
  have hnodup : (d.assets.map AssetSpec.key).Nodup := by
    have hdecimal : d.assets.map AssetSpec.key = (d.assets.map AssetSpec.id).map Text.decimal := by
      rw [List.map_map]
      rfl
    rw [hdecimal]
    exact h.map fun _ _ => Text.decimal_injective
  rw [assetIds, Table.keys, Table.rows_ofList_of_nodup (hkeys ▸ hnodup), hkeys]

end

end Solvency.Deployment
