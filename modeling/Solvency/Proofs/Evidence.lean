import Mathlib.Data.List.Perm.Basic
import Solvency.Proofs.Attestations
import Solvency.Proofs.Payloads
import Solvency.Proofs.Quorums

/-! Evidence: what a payload proves by itself. The prices in its chain of medians are the medians of the prices that are
    read from the proofs in its chain of oracles. -/

namespace Solvency.Aggregation

/-- A ballot as it is packed, under the id of its oracle. -/
def entryOf (b : Ballot) : Int × Attestation := (b.1.id, b.2)

/-- A packed oracle is one of the deployment that delivered what is read from its proof, with its own signature. -/
def Delivered (d : Deployment) (codec : Codec) (transport : Transport) (endpoints : List Endpoint) (o : ProvedOracle)
    (s : SignedPrices) : Prop :=
  ∃ oracle ∈ d.feed.oracles, ∃ a, oracle.id = o.id ∧ Race.Delivers codec transport endpoints oracle a ∧
    a.signature = o.signature ∧ a.signed = s

/-! ### Medians of a payload -/

section Medians
variable {d : Deployment} {prices : Table Text Int} {rows : List (Int × Int)}

/-- The medians are packed under the numbers that the keys of the assets stand for. -/
theorem decimal_ids (hkeys : prices.keys = d.assetIds.keys)
    (hrows : List.Forall₂ (fun row y => Text.readInteger row.1 = some y.1 ∧ row.2 = y.2) prices.rows rows) :
    (rows.map Prod.fst).map Text.decimal = d.assetIds.keys := by
  rw [← hkeys, List.map_map]
  refine (Forall₂.map_eq (Forall₂.imp_mem hrows fun row hrow y hy => ?_)).symm
  have hkey : row.1 ∈ d.assetIds.keys := hkeys ▸ List.mem_map_of_mem hrow
  obtain ⟨asset, -, hasset⟩ := Deployment.mem_keys_assetIds.mp hkey
  have hid : asset.id = y.1 := Option.some.inj ((hasset ▸ Deployment.readInteger_key asset).symm.trans hy.1)
  rw [← hasset, Function.comp_apply, ← hid]
  rfl

variable (hids : (rows.map Prod.fst).map Text.decimal = d.assetIds.keys)
include hids

theorem ids_nodup : (rows.map Prod.fst).Nodup :=
  List.Nodup.of_map Text.decimal (hids ▸ d.assetIds.distinct)

theorem mem_ids {id : Int} : id ∈ rows.map Prod.fst ↔ ∃ asset ∈ d.assets, asset.id = id := by
  have hmem : id ∈ rows.map Prod.fst ↔ Text.decimal id ∈ d.assetIds.keys := by
    rw [← hids]
    exact (List.mem_map_of_injective fun _ _ => Text.decimal_injective).symm
  rw [hmem, Deployment.mem_keys_assetIds]
  exact exists_congr fun asset => and_congr_right fun _ => ⟨Text.decimal_injective, fun h => h ▸ rfl⟩

theorem ids_sublist : (rows.map Prod.fst).Sublist (d.assets.map AssetSpec.id) := by
  have hkeys : d.assetIds.keys.Sublist ((d.assets.map AssetSpec.id).map Text.decimal) := by
    have h := Table.keys_ofList_sublist (d.assets.map fun asset => (asset.key, asset.id))
    rw [List.map_map] at h ⊢
    exact h
  rw [← hids] at hkeys
  obtain ⟨ids, hsub, hmap⟩ := List.sublist_map_iff.mp hkeys
  rwa [List.map_injective_iff.mpr (fun _ _ => Text.decimal_injective) hmap]

end Medians

/-! ### Oracles of a payload -/

section Oracles
variable {codec : Codec} {chosen : List Ballot} {entries sorted : List (Int × Attestation)}
  {oracles : List ProvedOracle}

theorem entries_of_ballots (hdelivered : ∀ b ∈ chosen, b.2.oracleId = some b.1.id)
    (h : List.Forall₂ (fun a e => a.oracleId = some e.1 ∧ a = e.2) (chosen.map Prod.snd) entries) :
    entries = chosen.map entryOf := by
  rw [← List.map_id entries]
  refine (Forall₂.map_eq (Forall₂.imp_mem (List.forall₂_map_left_iff.mp h) fun b hb e he => ?_)).symm
  exact Prod.ext (Option.some.inj ((hdelivered b hb).symm.trans he.1)) he.2

theorem ids_of_carries (h : List.Forall₂ (Carries codec) sorted oracles) :
    oracles.map ProvedOracle.id = sorted.map Prod.fst :=
  (Forall₂.map_eq (h.imp fun _ _ hcarries => hcarries.1.symm)).symm

theorem ids_ascending (hsorted : sorted.Pairwise fun e e' => e.1 ≤ e'.1) (hnodup : (sorted.map Prod.fst).Nodup) :
    (sorted.map Prod.fst).Pairwise (· < ·) := by
  refine List.pairwise_map.mpr (hsorted.imp₂ (fun _ _ hle hne => ?_) (List.pairwise_map.mp hnodup))
  exact Int.lt_iff_le_and_ne.mpr ⟨hle, hne⟩

/-- What was signed is read from the cells that the proofs of the oracles cover. -/
theorem signed_of_carries {covered : Cell → Option Cell}
    (covers : ∀ cell proof, codec.prove cell = .ok proof → covered proof = some cell)
    (h : List.Forall₂ (Carries codec) sorted oracles) :
    List.Forall₂ (fun o s => ∃ cell, covered o.proof = some cell ∧ cell.parse SignedPrices.reader = .ok s)
      oracles (sorted.map fun e => e.2.signed) := by
  refine List.forall₂_map_right_iff.mpr (h.flip.imp fun o e hcarries => ?_)
  obtain ⟨-, -, cell, hsigned, hprove⟩ := hcarries
  exact ⟨cell, covers cell o.proof hprove, Attestation.parse_signedCell hsigned⟩

section Delivered
variable {d : Deployment} {transport : Transport} {endpoints : List Endpoint}
  (hdelivered : ∀ b ∈ chosen, b.1 ∈ d.feed.oracles ∧ Race.Delivers codec transport endpoints b.1 b.2)
  (hperm : sorted.Perm (chosen.map entryOf))
include hdelivered hperm

theorem own_of_carries (h : List.Forall₂ (Carries codec) sorted oracles) :
    List.Forall₂ (Delivered d codec transport endpoints) oracles (sorted.map fun e => e.2.signed) := by
  have hown : List.Forall₂ (fun e o => Delivered d codec transport endpoints o e.2.signed) sorted oracles := by
    refine Forall₂.imp_mem h fun e he o hcarries => ?_
    obtain ⟨b, hb, rfl⟩ := List.mem_map.mp (hperm.mem_iff.mp he)
    obtain ⟨hid, hsignature, -⟩ := hcarries
    exact ⟨b.1, (hdelivered b hb).1, b.2, hid.symm, (hdelivered b hb).2, hsignature.symm, rfl⟩
  exact List.forall₂_map_right_iff.mpr hown.flip

/-- The prices that chosen attestations have for an asset are those under its id in what was signed, up to their
    order. -/
theorem signed_prices {asset : AssetSpec} {prices : List Int}
    (h : List.Forall₂ (fun b price => b.2.prices.get? asset.key = some price) chosen prices) :
    ∃ prices', List.Forall₂ (fun s price => s.dictionary.Prices asset.id price) (sorted.map fun e => e.2.signed)
      prices' ∧ prices'.Perm prices := by
  have hentries : List.Forall₂ (fun e price => e.2.dictionary.Prices asset.id price) (chosen.map entryOf)
      prices := by
    refine List.forall₂_map_left_iff.mpr (Forall₂.imp_mem h fun b hb price hprice => ?_)
    obtain ⟨_, _, _, _, a, _, hread, ha⟩ := (hdelivered b hb).2.provenance
    rw [ha] at hprice
    have hsigned := (get?_readPrices (Attestation.read_inv hread)).mp hprice
    show b.2.dictionary.Prices asset.id price
    rwa [ha]
  obtain ⟨prices', hprices', hsame⟩ := List.perm_comp_forall₂ hperm hentries
  exact ⟨prices', List.forall₂_map_left_iff.mpr hprices', hsame⟩

omit hdelivered in
theorem least_signed (h : chosen ≠ []) :
    (∃ s ∈ sorted.map (fun e => e.2.signed),
      s.timestamp = ((chosen.map Prod.snd).map Attestation.timestamp).min?.getD 0) ∧
    ∀ s ∈ sorted.map (fun e => e.2.signed),
      ((chosen.map Prod.snd).map Attestation.timestamp).min?.getD 0 ≤ s.timestamp := by
  obtain ⟨⟨a, ha, heq⟩, hle⟩ := least_timestamp (mt List.map_eq_nil_iff.mp h)
  obtain ⟨b, hb, rfl⟩ := List.mem_map.mp ha
  constructor
  · have hmem : entryOf b ∈ sorted := hperm.mem_iff.mpr (List.mem_map_of_mem hb)
    exact ⟨b.2.signed, List.mem_map_of_mem hmem, heq⟩
  · intro s hs
    obtain ⟨e, he, rfl⟩ := List.mem_map.mp hs
    obtain ⟨b', hb', rfl⟩ := List.mem_map.mp (hperm.mem_iff.mp he)
    exact hle b'.2 (List.mem_map_of_mem hb')

end Delivered

end Oracles

/-! ### Proofs -/

/-- What is read from a payload proves its prices to whoever knows which cell a proof covers. -/
structure Proves (d : Deployment) (codec : Codec) (transport : Transport) (endpoints : List Endpoint)
    (covered : Cell → Option Cell) (p : AggregatedPrices) (medians : List (Int × Int)) (oracles : List ProvedOracle)
    (signed : List SignedPrices) : Prop where
  once : (medians.map Prod.fst).Nodup
  complete : ∀ id, id ∈ medians.map Prod.fst ↔ ∃ asset ∈ d.assets, asset.id = id
  reversed : (medians.map Prod.fst).reverse.Sublist (d.assets.map AssetSpec.id)
  ascending : (oracles.map ProvedOracle.id).Pairwise (· < ·)
  quorum : (oracles.map ProvedOracle.id).Perm p.oracleIds
  proofs : List.Forall₂ (fun o s => ∃ cell, covered o.proof = some cell ∧ cell.parse SignedPrices.reader = .ok s)
    oracles signed
  own : List.Forall₂ (Delivered d codec transport endpoints) oracles signed
  medians : ∀ asset ∈ d.assets, ∃ m prices, (asset.id, m) ∈ medians ∧ p.prices.get? asset.key = some m ∧
    List.Forall₂ (fun s price => s.dictionary.Prices asset.id price) signed prices ∧ IsMedian m prices
  oldest : (∃ s ∈ signed, s.timestamp = p.minTimestamp) ∧ ∀ s ∈ signed, p.minTimestamp ≤ s.timestamp

/-- The payload of a reduction proves its prices, whichever delivered attestations of different oracles are reduced. -/
theorem proves_of_reduce {d : Deployment} {codec : Codec} {transport : Transport} {endpoints : List Endpoint}
    {p : AggregatedPrices} {covered : Cell → Option Cell} {chosen : List Ballot}
    (covers : ∀ cell proof, codec.prove cell = .ok proof → covered proof = some cell) (hne : chosen ≠ [])
    (hdelivered : ∀ b ∈ chosen, b.1 ∈ d.feed.oracles ∧ Race.Delivers codec transport endpoints b.1 b.2)
    (hnodup : (chosen.map fun b => b.1.id).Nodup)
    (h : reduce codec d.assetIds.keys (chosen.map Prod.snd) = .ok p) :
    ∃ medians oracles signed, readPayload p.payload = some (medians, oracles) ∧
      Proves d codec transport endpoints covered p medians oracles signed := by
  obtain ⟨-, hpayload, hmin, hoids⟩ := reduce_inv h
  obtain ⟨hkeys, hmedians⟩ := reduce_prices d.assetIds.distinct h
  obtain ⟨rows, entries, sorted, oracles, hrows, hentries, hperm, hsorted, hcarries, hread⟩ := packPayload_inv hpayload
  have hoid : ∀ b ∈ chosen, b.2.oracleId = some b.1.id := fun b hb => (hdelivered b hb).2.oracleId
  rw [entries_of_ballots hoid hentries] at hperm
  have hids := decimal_ids hkeys hrows
  have hfst : (sorted.map Prod.fst).Perm (chosen.map fun b => b.1.id) := by
    have hmap := hperm.map Prod.fst
    rwa [List.map_map] at hmap
  refine ⟨rows.reverse, oracles, sorted.map fun e => e.2.signed, hread, ?_⟩
  exact {
    once := by
      rw [List.map_reverse]
      exact List.nodup_reverse.mpr (ids_nodup hids)
    complete := fun id => by
      rw [List.map_reverse, List.mem_reverse]
      exact mem_ids hids
    reversed := by
      rw [List.map_reverse, List.reverse_reverse]
      exact ids_sublist hids
    ascending := by
      rw [ids_of_carries hcarries]
      exact ids_ascending hsorted (hfst.nodup_iff.mpr hnodup)
    quorum := by
      rw [ids_of_carries hcarries, hoids, oracleIds_of_ballots hoid]
      exact hfst
    proofs := signed_of_carries covers hcarries
    own := own_of_carries hdelivered hperm hcarries
    medians := fun asset hasset => by
      obtain ⟨m, prices, hm, hprices, hmedian⟩ := hmedians asset.key (Deployment.key_mem_assetIds hasset)
      obtain ⟨prices', hsigned, hsame⟩ := signed_prices hdelivered hperm (List.forall₂_map_left_iff.mp hprices)
      obtain ⟨y, hy, hid, hprice⟩ := Forall₂.exists_right hrows (Table.get?_eq_some.mp hm)
      obtain rfl : y = (asset.id, m) :=
        Prod.ext (Option.some.inj (hid.symm.trans (Deployment.readInteger_key asset))) hprice.symm
      exact ⟨m, prices', List.mem_reverse.mpr hy, hm, hsigned, hmedian.perm hsame.symm⟩
    oldest := hmin ▸ least_signed hperm hne }

/-- Whatever the transport, the codec and the clock, an aggregation over the configured oracles packs a payload that
    proves the prices it gives. -/
theorem proved_of_run {d : Deployment} {codec : Codec} {transport : Transport} {now : Instant} {call : AggregationCall}
    {p : AggregatedPrices} {covered : Cell → Option Cell}
    (covers : ∀ cell proof, codec.prove cell = .ok proof → covered proof = some cell)
    (valid : d.validate = .ok ()) (configured : call.oracles = none)
    (gives : (run d codec transport now call).outcome = some (.ok p)) :
    ∃ medians oracles signed, readPayload p.payload = some (medians, oracles) ∧
      Proves d codec transport (call.endpoints.getD d.feed.endpoints) covered p medians oracles signed := by
  obtain ⟨-, hpos, -, hids⟩ := Deployment.validate_inv valid
  obtain ⟨hcount, hreduce⟩ := elected_of_run valid configured gives
  refine proves_of_reduce covers (elected_ne_nil hcount hpos) (fun b hb => ?_) (elected_ids_nodup hids) hreduce
  obtain ⟨hmem, hdelivers, -⟩ := mem_ballots.mp (mem_ballots_of_elected hb)
  exact ⟨hmem, hdelivers⟩

theorem proved_of_run_ton :
    (∀ cell proof, Race.tonCodec.prove cell = .ok proof → proof.refs.head? = some cell) ∧
      tonDeployment.validate = .ok () ∧
      ∃ p, (run tonDeployment Race.tonCodec (tonOracles (.refused "gone")) (.whole 110) {}).outcome = some (.ok p) ∧
        ∃ medians oracles signed, readPayload p.payload = some (medians, oracles) ∧
          Proves tonDeployment Race.tonCodec (tonOracles (.refused "gone")) tonDeployment.feed.endpoints
            (fun proof => proof.refs.head?) p medians oracles signed := by
  have covers : ∀ cell proof, Race.tonCodec.prove cell = .ok proof → proof.refs.head? = some cell := by
    rintro cell _ ⟨⟩
    rfl
  obtain ⟨p, hp⟩ := exists_prices_ton
  exact ⟨covers, validate_tonDeployment, p, hp, proved_of_run covers validate_tonDeployment rfl hp⟩

end Solvency.Aggregation
