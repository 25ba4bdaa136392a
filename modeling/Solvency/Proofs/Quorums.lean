import Solvency.Proofs.Ballots
import Solvency.Proofs.Calls

/-! Quorums: what stands behind aggregated prices. A successful aggregation has reduced the ballots that are elected, so
    that each part of its result is a property of these. -/

namespace Solvency.Aggregation

/-! ### Steps of an aggregation -/

section Steps
variable {codec : Codec} {transport : Transport} {p : AggregatedPrices}

/-- An aggregation that gives prices was neither refused nor broken off: it concluded from the results of all races. -/
theorem run_inv {d : Deployment} {now : Instant} {call : AggregationCall}
    (h : (run d codec transport now call).outcome = some (.ok p)) :
    ∃ results,
      ((call.oracles.getD d.feed.oracles).map fun oracle =>
        (Race.run codec transport (call.endpoints.getD d.feed.endpoints) oracle).result) = results.map some ∧
      conclude d codec now results = .ok p := by
  have hcourse := course_run d codec transport now call
  generalize run d codec transport now call = a at hcourse h
  cases hcourse with
  | cancelled => cases h
  | passed => cases h
  | unreachable => cases h
  | immediate => cases h
  | brokenOff => cases h
  | settled =>
    unfold settle at h
    split at h
    · rename_i results hresults
      exact ⟨results, List.map_map.symm.trans (mapM_eq_some.mp hresults), Option.some.inj h⟩
    · obtain ⟨_, -, h⟩ := Option.map_eq_some_iff.mp h
      cases h

/-- A call that has no timeout and is not cancelled concludes once every race has a result. -/
theorem outcome_of_call {d : Deployment} {now : Instant} {call : AggregationCall} {results : List RaceResult}
    (untimed : call.timeout = none) (uncancelled : call.cancelAfter = none)
    (h : ((call.oracles.getD d.feed.oracles).map fun oracle =>
      (Race.run codec transport (call.endpoints.getD d.feed.endpoints) oracle).result) = results.map some) :
    (run d codec transport now call).outcome = some (conclude d codec now results) := by
  refine outcome_of_waits (fun timeout timed => ?_) (fun ⟨count, hcount, _⟩ => ?_) h
  · cases untimed.symm.trans timed
  · cases uncancelled.symm.trans hcount

theorem conclude_of_not_encodable {d : Deployment} {now : Instant} {results : List RaceResult} (h : ¬d.Encodable) :
    conclude d codec now results = .error .assetName := by
  rw [conclude, Deployment.assetIds?_of_not_encodable h]
  rfl

theorem conclude_of_encodable {d : Deployment} {now : Instant} {results : List RaceResult} (h : d.Encodable) :
    conclude d codec now results = sift d.assetIds.keys now d.feed.ttl results >>= fun sifted =>
      if (sifted.accepted.length : Int) < d.feed.minimalOracles then
        .error (.outdated sifted.accepted.length d.feed.minimalOracles sifted.lastError)
      else reduce codec d.assetIds.keys (quorum d.feed.minimalOracles sifted.accepted) := by
  simp only [conclude, Deployment.assetIds?_of_encodable h, pure_bind]
  refine congrArg _ (funext fun sifted => ?_)
  split <;> rfl

theorem conclude_inv {d : Deployment} {now : Instant} {results : List RaceResult}
    (h : conclude d codec now results = .ok p) : d.Encodable ∧
    d.feed.minimalOracles ≤ (results.filterMap (accept? d.assetIds.keys now d.feed.ttl)).length ∧
      reduce codec d.assetIds.keys
        (quorum d.feed.minimalOracles (results.filterMap (accept? d.assetIds.keys now d.feed.ttl))) = .ok p := by
  by_cases encodable : d.Encodable
  · rw [conclude_of_encodable encodable] at h
    obtain ⟨sifted, hsift, h⟩ := bind_eq_ok.mp h
    rw [← sift_accepted hsift]
    split at h
    · cases h
    · rename_i henough
      exact ⟨encodable, by omega, h⟩
  · rw [conclude_of_not_encodable encodable] at h
    cases h

theorem reduce_inv {assets : List Text} {chosen : List Attestation} (h : reduce codec assets chosen = .ok p) :
    (∃ rows, List.Forall₂ (fun asset row => row.1 = asset ∧ medianPrice chosen asset = .ok row.2) assets rows ∧
      p.prices = .ofList rows) ∧
    packPayload codec p.prices chosen = .ok p.payload ∧
    p.minTimestamp = (chosen.map Attestation.timestamp).min?.getD 0 ∧
    p.oracleIds = chosen.filterMap Attestation.oracleId := by
  obtain ⟨rows, hrows, h⟩ := bind_eq_ok.mp h
  obtain ⟨payload, hpayload, h⟩ := bind_eq_ok.mp h
  cases h
  refine ⟨⟨rows, (mapM_eq_ok.mp hrows).imp fun asset row hrow => ?_, rfl⟩, mapError_eq_ok.mp hpayload, rfl, rfl⟩
  obtain ⟨price, hprice, hrow⟩ := bind_eq_ok.mp hrow
  obtain rfl := pure_eq_ok.mp hrow
  exact ⟨rfl, mapError_eq_ok.mp hprice⟩

end Steps

/-! ### Results of a deployment -/

section
variable {d : Deployment} {codec : Codec} {transport : Transport} {endpoints : List Endpoint} {now : Instant}
  {p : AggregatedPrices}

/-- What is sifted out of the results of the races are the attestations of the ballots. -/
theorem accepted_eq_ballots {results : List RaceResult}
    (h : (d.feed.oracles.map fun oracle => (Race.run codec transport endpoints oracle).result) = results.map some) :
    results.filterMap (accept? d.assetIds.keys now d.feed.ttl) =
      (ballots d codec transport endpoints now).map Prod.snd := by
  have hmap : (ballots d codec transport endpoints now).map Prod.snd =
      (d.feed.oracles.map fun oracle => (Race.run codec transport endpoints oracle).result).filterMap
        fun result => result.bind (accept? d.assetIds.keys now d.feed.ttl) := by
    rw [ballots, List.map_filterMap, List.filterMap_map]
    simp only [Option.map_map]
    congr 1
    funext oracle
    exact Option.map_id'
  rw [hmap, h, List.filterMap_map]
  rfl

theorem quorum_ballots (hpos : 1 ≤ d.feed.minimalOracles) :
    quorum d.feed.minimalOracles ((ballots d codec transport endpoints now).map Prod.snd) =
      (elected d codec transport endpoints now).map Prod.snd := by
  have hranking : newestFirst ((ballots d codec transport endpoints now).map Prod.snd) =
      (ranking d codec transport endpoints now).map Prod.snd := by
    rw [newestFirst, ranking, ← map_sortBy]
  rw [quorum, if_pos (by omega), hranking, elected, List.map_take]

theorem length_elected (h : d.feed.minimalOracles ≤ (ballots d codec transport endpoints now).length)
    (hpos : 1 ≤ d.feed.minimalOracles) :
    ((elected d codec transport endpoints now).length : Int) = d.feed.minimalOracles := by
  rw [elected, List.length_take, ranking, length_sortBy]
  omega

/-- An aggregation over the configured oracles reduces the elected ballots, of which there are as many as required. -/
theorem elected_of_run {call : AggregationCall} (hvalid : d.validate = .ok ()) (hcall : call.oracles = none)
    (h : (run d codec transport now call).outcome = some (.ok p)) :
    ((elected d codec transport (call.endpoints.getD d.feed.endpoints) now).length : Int) = d.feed.minimalOracles ∧
      reduce codec d.assetIds.keys
        ((elected d codec transport (call.endpoints.getD d.feed.endpoints) now).map Prod.snd) = .ok p := by
  obtain ⟨-, hpos, -, -⟩ := Deployment.validate_inv hvalid
  obtain ⟨results, hresults, h⟩ := run_inv h
  rw [hcall] at hresults
  obtain ⟨-, henough, h⟩ := conclude_inv h
  rw [accepted_eq_ballots hresults] at henough h
  rw [quorum_ballots hpos] at h
  rw [List.length_map] at henough
  exact ⟨length_elected henough hpos, h⟩

/-- Elected ballots are of oracles whose ids differ: an oracle delivers one attestation at most. -/
theorem elected_ids_nodup (h : (d.feed.oracles.map OracleSpec.id).Nodup) :
    ((elected d codec transport endpoints now).map fun b => b.1.id).Nodup := by
  refine List.pairwise_map.mpr ((elected_ordered (Deployment.nodup_oracles h)).imp_of_mem ?_)
  rintro b b' hb hb' hprecedes hsame
  obtain ⟨hmem, hdelivers, -⟩ := mem_ballots.mp (mem_ballots_of_elected hb)
  obtain ⟨hmem', hdelivers', -⟩ := mem_ballots.mp (mem_ballots_of_elected hb')
  have horacle : b.1 = b'.1 := List.inj_on_of_nodup_map h hmem hmem' hsame
  have hattestation : b.2 = b'.2 := (horacle ▸ hdelivers).unique hdelivers'
  unfold Precedes at hprecedes
  rw [horacle, hattestation] at hprecedes
  omega

theorem elected_ne_nil (h : ((elected d codec transport endpoints now).length : Int) = d.feed.minimalOracles)
    (hpos : 1 ≤ d.feed.minimalOracles) : elected d codec transport endpoints now ≠ [] := by
  intro hnil
  rw [hnil, List.length_nil] at h
  omega

theorem oracleIds_of_ballots {bs : List Ballot} (h : ∀ b ∈ bs, b.2.oracleId = some b.1.id) :
    (bs.map Prod.snd).filterMap Attestation.oracleId = bs.map fun b => b.1.id := by
  rw [List.filterMap_map, ← List.filterMap_eq_map]
  exact List.filterMap_congr h

theorem least_timestamp {as : List Attestation} (h : as ≠ []) :
    (∃ a ∈ as, a.timestamp = (as.map Attestation.timestamp).min?.getD 0) ∧
      ∀ a ∈ as, (as.map Attestation.timestamp).min?.getD 0 ≤ a.timestamp := by
  cases hm : (as.map Attestation.timestamp).min? with
  | none => exact absurd (List.map_eq_nil_iff.mp (List.min?_eq_none_iff.mp hm)) h
  | some m =>
    obtain ⟨hmem, hle⟩ := List.min?_eq_some_iff.mp hm
    rw [Option.getD_some]
    exact ⟨List.mem_map.mp hmem, fun a ha => hle _ (List.mem_map_of_mem ha)⟩

/-- The prices of a reduction are under its assets, in their order, and each is the median of the prices that the
    attestations have for it. -/
theorem reduce_prices {assets : List Text} {chosen : List Attestation} (hassets : assets.Nodup)
    (h : reduce codec assets chosen = .ok p) :
    p.prices.keys = assets ∧ ∀ asset ∈ assets, ∃ m prices, p.prices.get? asset = some m ∧
      List.Forall₂ (fun a price => a.prices.get? asset = some price) chosen prices ∧ IsMedian m prices := by
  obtain ⟨⟨rows, hrows, hprices⟩, -⟩ := reduce_inv h
  have hfst : assets = rows.map Prod.fst := by
    rw [← List.map_id assets]
    exact Forall₂.map_eq (hrows.imp fun _ _ hrow => hrow.1.symm)
  have hkept : p.prices.rows = rows := hprices ▸ Table.rows_ofList_of_nodup (hfst ▸ hassets)
  refine ⟨by rw [Table.keys, hkept, hfst], fun asset hasset => ?_⟩
  obtain ⟨row, hrow, rfl, hmedian⟩ := Forall₂.exists_right hrows hasset
  obtain ⟨prices, hcorrespond, hm⟩ := medianPrice_eq_ok.mp hmedian
  exact ⟨row.2, prices, Table.get?_eq_some.mpr (hkept ▸ hrow), hcorrespond, isMedian_of_median? hm⟩

theorem oracleId_of_elected {b : Ballot} (h : b ∈ elected d codec transport endpoints now) :
    b.2.oracleId = some b.1.id := (mem_ballots.mp (mem_ballots_of_elected h)).2.1.oracleId

end

/-! ### Backing -/

/-- Ballots back prices that were aggregated at a time of whole seconds: they are the newest verified attestations, as
    many as are required, and every part of the result but the payload is theirs. -/
structure Backs (d : Deployment) (codec : Codec) (transport : Transport) (endpoints : List Endpoint) (now : Int)
    (p : AggregatedPrices) (chosen : List Ballot) : Prop where
  count : (chosen.length : Int) = d.feed.minimalOracles
  delivered : ∀ b ∈ chosen, b.1 ∈ d.feed.oracles ∧ Race.Delivers codec transport endpoints b.1 b.2
  distinct : (chosen.map fun b => b.1.id).Nodup
  fresh : ∀ b ∈ chosen, now - b.2.timestamp ≤ d.feed.ttl
  priced : ∀ b ∈ chosen, ∀ asset ∈ d.assets, ∃ price, b.2.prices.get? asset.key = some price ∧ 0 < price
  ids : p.oracleIds = chosen.map fun b => b.1.id
  ranked : chosen.Pairwise (Precedes d.feed.oracles)
  others : ∀ b', b'.1 ∈ d.feed.oracles → Race.Delivers codec transport endpoints b'.1 b'.2 →
    b'.2.verify d.assetIds.keys (.whole now) d.feed.ttl = .ok none → b' ∉ chosen →
      b'.2.timestamp ≤ p.minTimestamp ∧
        (b'.2.timestamp = p.minTimestamp → ∀ b ∈ chosen, b.2.timestamp = p.minTimestamp →
          d.feed.oracles.idxOf b.1 < d.feed.oracles.idxOf b'.1)
  oldest : (∃ b ∈ chosen, b.2.timestamp = p.minTimestamp) ∧ ∀ b ∈ chosen, p.minTimestamp ≤ b.2.timestamp
  keys : p.prices.keys = d.assets.map AssetSpec.key
  medians : ∀ asset ∈ d.assets, ∃ m prices, p.prices.get? asset.key = some m ∧
    List.Forall₂ (fun b price => b.2.prices.get? asset.key = some price) chosen prices ∧ IsMedian m prices

/-- Whatever the transport, the codec, the clock and the order in which fetches settle, an aggregation over the
    configured oracles gives only prices that verified attestations of different oracles back. -/
theorem backed_of_run {d : Deployment} {codec : Codec} {transport : Transport} {now : Int} {call : AggregationCall}
    {p : AggregatedPrices} (valid : d.validate = .ok ()) (distinct : (d.assets.map AssetSpec.id).Nodup)
    (configured : call.oracles = none)
    (gives : (run d codec transport (.whole now) call).outcome = some (.ok p)) :
    ∃ chosen, Backs d codec transport (call.endpoints.getD d.feed.endpoints) now p chosen := by
  obtain ⟨-, hpos, -, hids⟩ := Deployment.validate_inv valid
  have horacles := Deployment.nodup_oracles hids
  obtain ⟨hcount, hreduce⟩ := elected_of_run valid configured gives
  obtain ⟨-, -, hmin, hoids⟩ := reduce_inv hreduce
  obtain ⟨hkeys, hmedians⟩ := reduce_prices d.assetIds.distinct hreduce
  obtain ⟨⟨a₀, ha₀, heq⟩, hle⟩ := least_timestamp (mt List.map_eq_nil_iff.mp (elected_ne_nil hcount hpos))
  obtain ⟨b₀, hb₀, rfl⟩ := List.mem_map.mp ha₀
  rw [← hmin] at heq hle
  refine ⟨elected d codec transport (call.endpoints.getD d.feed.endpoints) (.whole now), ?_⟩
  exact {
    count := hcount
    delivered := fun b hb =>
      have hballot := mem_ballots.mp (mem_ballots_of_elected hb)
      ⟨hballot.1, hballot.2.1⟩
    distinct := elected_ids_nodup hids
    fresh := fun b hb => Attestation.fresh_of_verify (mem_ballots.mp (mem_ballots_of_elected hb)).2.2
    priced := fun b hb asset hasset =>
      Attestation.prices_of_verify (mem_ballots.mp (mem_ballots_of_elected hb)).2.2 asset.key
        (Deployment.key_mem_assetIds hasset)
    ids := hoids.trans (oracleIds_of_ballots fun b hb => oracleId_of_elected hb)
    ranked := elected_ordered horacles
    others := fun b' hmem hdelivers hverify hout => by
      have hballot := mem_ballots.mpr ⟨hmem, hdelivers, hverify⟩
      refine ⟨?_, fun hsame b hb hb_min => ?_⟩
      · have hprecedes := elected_precedes horacles hb₀ hballot hout
        unfold Precedes at hprecedes
        omega
      · have hprecedes := elected_precedes horacles hb hballot hout
        unfold Precedes at hprecedes
        omega
    oldest := ⟨⟨b₀, hb₀, heq⟩, fun b hb => hle b.2 (List.mem_map_of_mem hb)⟩
    keys := hkeys.trans (Deployment.keys_assetIds distinct)
    medians := fun asset hasset => by
      obtain ⟨m, prices, hm, hcorrespond, hmedian⟩ := hmedians asset.key (Deployment.key_mem_assetIds hasset)
      exact ⟨m, prices, hm, List.forall₂_map_left_iff.mp hcorrespond, hmedian⟩ }

/-- A deployment of TON for which two of three oracles have to agree. -/
def tonDeployment : Deployment where
  feed := { oracles := [⟨1, "a"⟩, ⟨2, "b"⟩, ⟨3, "c"⟩], minimalOracles := 2 }
  assets := [{ name := "TON" }]

/-- Two oracles that publish attestations, the second one the newer, and a third one whose fetches end in a given
    way. -/
def tonOracles (third : FetchOutcome) : Transport := fun _ address =>
  if address = "a" then .settles 2 (.text (Race.publication "01" "aa" (.integer 100)))
  else if address = "b" then .settles 1 (.text (Race.publication "02" "bb" (.integer 104)))
  else .settles 0 third

theorem validate_tonDeployment : tonDeployment.validate = .ok () := by decide +kernel

theorem exists_prices_ton :
    ∃ p, (run tonDeployment Race.tonCodec (tonOracles (.refused "gone")) (.whole 110) {}).outcome = some (.ok p) := by
  decide +kernel

theorem backed_of_run_ton :
    tonDeployment.validate = .ok () ∧ (tonDeployment.assets.map AssetSpec.id).Nodup ∧
      ∃ p, (run tonDeployment Race.tonCodec (tonOracles (.refused "gone")) (.whole 110) {}).outcome = some (.ok p) ∧
        ∃ chosen, Backs tonDeployment Race.tonCodec (tonOracles (.refused "gone")) tonDeployment.feed.endpoints 110 p
          chosen := by
  have distinct : (tonDeployment.assets.map AssetSpec.id).Nodup := List.nodup_singleton _
  obtain ⟨p, hp⟩ := exists_prices_ton
  exact ⟨validate_tonDeployment, distinct, p, hp, backed_of_run validate_tonDeployment distinct rfl hp⟩

end Solvency.Aggregation
