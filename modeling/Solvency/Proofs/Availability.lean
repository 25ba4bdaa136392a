import Mathlib.Data.List.Perm.Subperm
import Solvency.Proofs.Payloads
import Solvency.Proofs.Quorums

/-! Availability: when an aggregation gives prices although some of the oracles misbehave. As many usable attestations
    as are required do for it, unless another one passes the verification and cannot be packed, or makes the
    verification itself fail. -/

namespace Solvency.Aggregation

/-! ### Sifting -/

section Sifting
variable {assets : List Text} {now : Instant} {ttl : Int} {results : List RaceResult}

theorem exists_sift_lost {e : TransportError} :
    (∃ s, sift assets now ttl (.lost e :: results) = .ok s) ↔ ∃ s, sift assets now ttl results = .ok s := by
  constructor
  · rintro ⟨s, hs⟩
    obtain ⟨later, hlater, -⟩ := bind_eq_ok.mp hs
    exact ⟨later, hlater⟩
  · rintro ⟨later, hlater⟩
    exact ⟨_, bind_eq_ok.mpr ⟨later, hlater, rfl⟩⟩

theorem exists_sift_won {a : Attestation} :
    (∃ s, sift assets now ttl (.won a :: results) = .ok s) ↔
      (∃ rejection, a.verify assets now ttl = .ok rejection) ∧ ∃ s, sift assets now ttl results = .ok s := by
  constructor
  · rintro ⟨s, hs⟩
    obtain ⟨rejection, hverify, hs⟩ := bind_eq_ok.mp hs
    obtain ⟨later, hlater, -⟩ := bind_eq_ok.mp hs
    exact ⟨⟨rejection, mapError_eq_ok.mp hverify⟩, later, hlater⟩
  · rintro ⟨⟨rejection, hverify⟩, later, hlater⟩
    cases rejection with
    | none => exact ⟨_, bind_eq_ok.mpr ⟨_, mapError_eq_ok.mpr hverify, bind_eq_ok.mpr ⟨later, hlater, rfl⟩⟩⟩
    | some r => exact ⟨_, bind_eq_ok.mpr ⟨_, mapError_eq_ok.mpr hverify, bind_eq_ok.mpr ⟨later, hlater, rfl⟩⟩⟩

/-- Results are sifted unless one is cancelled or cannot be reported, or the verification of an attestation fails. -/
theorem exists_sift_iff :
    (∃ s, sift assets now ttl results = .ok s) ↔
      (∀ result ∈ results, result ≠ .cancelled ∧ result ≠ .unreportable) ∧
        ∀ a, .won a ∈ results → ∃ rejection, a.verify assets now ttl = .ok rejection := by
  induction results with
  | nil => exact ⟨fun _ => ⟨by simp, by simp⟩, fun _ => ⟨⟨[], none⟩, rfl⟩⟩
  | cons result results ih =>
    cases result with
    | cancelled =>
      refine ⟨?_, fun h => absurd rfl (h.1 .cancelled List.mem_cons_self).1⟩
      rintro ⟨s, hs⟩
      cases hs
    | unreportable =>
      refine ⟨?_, fun h => absurd rfl (h.1 .unreportable List.mem_cons_self).2⟩
      rintro ⟨s, hs⟩
      cases hs
    | lost e =>
      rw [exists_sift_lost, ih]
      simp
    | won a =>
      rw [exists_sift_won, ih]
      simp only [List.mem_cons, RaceResult.won.injEq, forall_eq_or_imp, ne_eq, reduceCtorEq, not_false_eq_true,
        and_self, true_and]
      exact and_left_comm

/-- Results that cannot be sifted are given up over one of them. -/
theorem sift_error {e : AggregationError} (h : sift assets now ttl results = .error e) :
    (e = .cancelled ∧ .cancelled ∈ results) ∨ (e = .unreportable ∧ .unreportable ∈ results) ∨
      ∃ a cause, .won a ∈ results ∧ a.verify assets now ttl = .error cause ∧ e = .clock cause := by
  induction results with
  | nil => cases h
  | cons result results ih =>
    have later : sift assets now ttl results = .error e → (e = .cancelled ∧ .cancelled ∈ result :: results) ∨
        (e = .unreportable ∧ .unreportable ∈ result :: results) ∨
        ∃ a cause, .won a ∈ result :: results ∧ a.verify assets now ttl = .error cause ∧ e = .clock cause := by
      intro h
      rcases ih h with ⟨he, hmem⟩ | ⟨he, hmem⟩ | ⟨a, cause, hmem, hverify, he⟩
      · exact Or.inl ⟨he, List.mem_cons_of_mem _ hmem⟩
      · exact Or.inr (Or.inl ⟨he, List.mem_cons_of_mem _ hmem⟩)
      · exact Or.inr (Or.inr ⟨a, cause, List.mem_cons_of_mem _ hmem, hverify, he⟩)
    cases result with
    | cancelled =>
      cases h
      exact Or.inl ⟨rfl, List.mem_cons_self⟩
    | unreportable =>
      cases h
      exact Or.inr (Or.inl ⟨rfl, List.mem_cons_self⟩)
    | lost _ =>
      rcases bind_eq_error.mp h with h | ⟨_, -, h⟩
      · exact later h
      · cases h
    | won a =>
      rcases bind_eq_error.mp h with hverify | ⟨rejection, -, h⟩
      · obtain ⟨cause, hcause, rfl⟩ := mapError_eq_error.mp hverify
        exact Or.inr (Or.inr ⟨a, cause, List.mem_cons_self, hcause, rfl⟩)
      · rcases bind_eq_error.mp h with h | ⟨_, -, h⟩
        · exact later h
        · cases rejection <;> cases h

end Sifting

/-- A call without a timeout that is not cancelled concludes from the results of the races. -/
theorem outcome_of_results {d : Deployment} {codec : Codec} {transport : Transport} {now : Instant}
    {endpoints : Option (List Endpoint)} {results : List RaceResult}
    (h : (d.feed.oracles.map fun oracle => (Race.run codec transport (endpoints.getD d.feed.endpoints) oracle).result) =
      results.map some) :
    (run d codec transport now { endpoints }).outcome = some (conclude d codec now results) :=
  outcome_of_call rfl rfl h

theorem conclude_of_sift {d : Deployment} {codec : Codec} {now : Instant} {results : List RaceResult} {s : Sifted}
    (encodable : d.Encodable) (hsift : sift d.assetIds.keys now d.feed.ttl results = .ok s) :
    conclude d codec now results =
      if (s.accepted.length : Int) < d.feed.minimalOracles then
        .error (.outdated s.accepted.length d.feed.minimalOracles s.lastError)
      else reduce codec d.assetIds.keys (quorum d.feed.minimalOracles s.accepted) := by
  rw [conclude_of_encodable encodable, bind_of_eq_ok hsift]

theorem conclude_eq_reduce {d : Deployment} {codec : Codec} {transport : Transport} {endpoints : List Endpoint}
    {now : Instant} {results : List RaceResult} {sifted : Sifted} (encodable : d.Encodable)
    (hpos : 1 ≤ d.feed.minimalOracles)
    (hresults : (d.feed.oracles.map fun oracle => (Race.run codec transport endpoints oracle).result) =
      results.map some)
    (hsift : sift d.assetIds.keys now d.feed.ttl results = .ok sifted)
    (henough : d.feed.minimalOracles ≤ (ballots d codec transport endpoints now).length) :
    conclude d codec now results =
      reduce codec d.assetIds.keys ((elected d codec transport endpoints now).map Prod.snd) := by
  have haccepted := (sift_accepted hsift).trans (accepted_eq_ballots hresults)
  have hfew : ¬((sifted.accepted.length : Int) < d.feed.minimalOracles) := by
    rw [haccepted, List.length_map]
    omega
  rw [← quorum_ballots hpos, ← haccepted, conclude_of_sift encodable hsift, if_neg hfew]

/-! ### Reducing -/

section Reducing
variable {codec : Codec} {assets : List Text} {chosen : List Attestation}

theorem exists_medianPrice (hne : chosen ≠ []) {asset : Text}
    (h : ∀ a ∈ chosen, ∃ price, a.prices.get? asset = some price ∧ 0 < price) :
    ∃ m, medianPrice chosen asset = .ok m ∧ 0 < m := by
  obtain ⟨prices, hprices⟩ : ∃ prices, chosen.mapM (Attestation.price asset) = .ok prices :=
    exists_mapM_ok fun a ha => by
      obtain ⟨price, hprice, -⟩ := h a ha
      exact ⟨price, price_eq_ok.mpr hprice⟩
  have hcorrespond := (mapM_eq_ok.mp hprices).imp fun _ _ => price_eq_ok.mp
  have hsome : prices ≠ [] := by
    rintro rfl
    exact hne (List.forall₂_nil_right_iff.mp hcorrespond)
  obtain ⟨m, hm⟩ := exists_median? hsome
  refine ⟨m, medianPrice_eq_ok.mpr ⟨prices, hcorrespond, hm⟩, ?_⟩
  refine (isMedian_of_median? hm).lt_of_forall fun price hprice => ?_
  obtain ⟨a, ha, hget⟩ := Forall₂.exists_left hcorrespond hprice
  obtain ⟨price', hget', hpos⟩ := h a ha
  exact Option.some.inj (hget.symm.trans hget') ▸ hpos

/-- Attestations with positive prices have medians that can be packed if the assets are numbers. -/
theorem exists_medians (hassets : assets ≠ [])
    (hnumbers : ∀ asset ∈ assets, ∃ id, Text.readInteger asset = some id ∧ 0 ≤ id ∧ id < Nat.pow 2 256)
    (hne : chosen ≠ []) (hprices : ∀ a ∈ chosen, a.Prices assets) :
    ∃ rows prices, (assets.mapM fun asset => do
        return (asset, ← (medianPrice chosen asset).mapError AggregationError.median)) = .ok rows ∧
      packMedians (.ofList rows) = .ok prices := by
  have hmedian : ∀ asset ∈ assets, ∃ m, medianPrice chosen asset = .ok m ∧ 0 < m := fun asset hasset =>
    exists_medianPrice hne fun a ha => hprices a ha asset hasset
  obtain ⟨rows, hrows⟩ : ∃ rows, (assets.mapM fun asset => do
      return (asset, ← (medianPrice chosen asset).mapError AggregationError.median)) = .ok rows :=
    exists_mapM_ok fun asset hasset => by
      obtain ⟨m, hm, -⟩ := hmedian asset hasset
      exact ⟨(asset, m), bind_eq_ok.mpr ⟨m, mapError_eq_ok.mpr hm, rfl⟩⟩
  have hread := mapM_eq_ok.mp hrows
  have hnonempty : (Table.ofList rows).rows ≠ [] := by
    obtain ⟨asset, hasset⟩ := List.exists_mem_of_ne_nil _ hassets
    obtain ⟨row, hrow, -⟩ := Forall₂.exists_right hread hasset
    exact mt List.map_eq_nil_iff.mpr (List.ne_nil_of_mem (Table.mem_keys_ofList.mpr (List.mem_map_of_mem hrow)))
  obtain ⟨prices, hpricesCell⟩ := exists_packMedians hnonempty fun row hrow => by
    obtain ⟨asset, hasset, hstep⟩ := Forall₂.exists_left hread (Table.mem_rows_of_ofList hrow)
    obtain ⟨m, hm, hrowEq⟩ := bind_eq_ok.mp hstep
    obtain rfl := pure_eq_ok.mp hrowEq
    obtain ⟨m', hm', hpos⟩ := hmedian asset hasset
    obtain rfl := Except.ok.inj ((mapError_eq_ok.mp hm).symm.trans hm')
    exact ⟨hnumbers asset hasset, Int.le_of_lt hpos⟩
  exact ⟨rows, prices, hrows, hpricesCell⟩

/-- They are reduced if each attestation can be packed, too. -/
theorem exists_reduce (hassets : assets ≠ [])
    (hnumbers : ∀ asset ∈ assets, ∃ id, Text.readInteger asset = some id ∧ 0 ≤ id ∧ id < Nat.pow 2 256)
    (hne : chosen ≠ []) (hprices : ∀ a ∈ chosen, a.Prices assets)
    (hpacks : ∀ a ∈ chosen,
      (∃ id, a.oracleId = some id ∧ 0 ≤ id ∧ id < Nat.pow 2 32) ∧ ∃ proof, a.proof codec = .ok proof) :
    ∃ p, reduce codec assets chosen = .ok p := by
  obtain ⟨rows, prices, hrows, hpricesCell⟩ := exists_medians hassets hnumbers hne hprices
  obtain ⟨oracles, horacles⟩ := exists_packOracles hne hpacks
  have hpayload := packPayload_eq_ok.mpr ⟨prices, oracles, hpricesCell, horacles, rfl⟩
  exact ⟨_, bind_eq_ok.mpr ⟨rows, hrows, bind_eq_ok.mpr ⟨_, mapError_eq_ok.mpr hpayload, rfl⟩⟩⟩

/-- What keeps such attestations from being reduced is what keeps them from being packed. -/
theorem reduce_eq_error (hassets : assets ≠ [])
    (hnumbers : ∀ asset ∈ assets, ∃ id, Text.readInteger asset = some id ∧ 0 ≤ id ∧ id < Nat.pow 2 256)
    (hne : chosen ≠ []) (hprices : ∀ a ∈ chosen, a.Prices assets) {e : AggregationError} :
    reduce codec assets chosen = .error e ↔ ∃ cause, packOracles codec chosen = .error cause ∧ e = .packing cause := by
  obtain ⟨rows, prices, hrows, hpricesCell⟩ := exists_medians hassets hnumbers hne hprices
  rw [reduce, bind_of_eq_ok hrows]
  simp only [packPayload, bind_of_eq_ok hpricesCell]
  cases packOracles codec chosen with
  | ok oracles => simp [bind, Except.bind, pure, Except.pure, Except.mapError]
  | error cause => simp [bind, Except.bind, Except.mapError, eq_comm]

theorem timestamps_of_reduce {p : AggregatedPrices} (h : reduce codec assets chosen = .ok p) :
    ∀ a ∈ chosen, 0 ≤ a.timestamp ∧ a.timestamp < Nat.pow 2 32 := by
  obtain ⟨-, hpayload, -⟩ := reduce_inv h
  obtain ⟨_, entries, sorted, oracles, -, hentries, hperm, -, hcarries, -⟩ := packPayload_inv hpayload
  intro a ha
  obtain ⟨entry, hentry, -, rfl⟩ := Forall₂.exists_right hentries ha
  obtain ⟨o, -, -, -, cell, hsigned, -⟩ := Forall₂.exists_right hcarries (hperm.mem_iff.mpr hentry)
  exact (Attestation.signedCell_eq_ok.mp hsigned).1

/-- No ballot has a timestamp beyond 32 bits if the elected ones were reduced: one that is not elected is no newer. -/
theorem timestamp_of_ballot {d : Deployment} {transport : Transport} {endpoints : List Endpoint} {now : Instant}
    {p : AggregatedPrices} (hnodup : d.feed.oracles.Nodup) (hne : elected d codec transport endpoints now ≠ [])
    (h : reduce codec assets ((elected d codec transport endpoints now).map Prod.snd) = .ok p) {b : Ballot}
    (hb : b ∈ ballots d codec transport endpoints now) : b.2.timestamp < Nat.pow 2 32 := by
  have htimes := timestamps_of_reduce h
  by_cases hin : b ∈ elected d codec transport endpoints now
  · exact (htimes b.2 (List.mem_map_of_mem hin)).2
  · obtain ⟨b₀, hb₀⟩ := List.exists_mem_of_ne_nil _ hne
    have hprecedes := elected_precedes hnodup hb₀ hb hin
    have htime := (htimes b₀.2 (List.mem_map_of_mem hb₀)).2
    unfold Precedes at hprecedes
    omega

theorem prices_of_elected {d : Deployment} {transport : Transport} {endpoints : List Endpoint} {now : Instant}
    {a : Attestation} (h : a ∈ (elected d codec transport endpoints now).map Prod.snd) : a.Prices d.assetIds.keys := by
  obtain ⟨b, hb, rfl⟩ := List.mem_map.mp h
  exact Attestation.prices_of_verify (mem_ballots.mp (mem_ballots_of_elected hb)).2.2

end Reducing

/-! ### Reliable oracles -/

/-- A deployment is served: its ids have 32 bits, the codec proves what was signed, every fetch settles without being
    cancelled, and as many oracles as are required deliver usable attestations with timestamps of 32 bits. -/
structure Served (d : Deployment) (codec : Codec) (transport : Transport) (endpoints : List Endpoint) (now : Instant) :
    Prop where
  ids : ∀ oracle ∈ d.feed.oracles, 0 ≤ oracle.id ∧ oracle.id < Nat.pow 2 32
  proves : ∀ (a : Attestation) (cell : Cell), a.signedCell = .ok cell → ∃ proof, codec.prove cell = .ok proof
  settles : ∀ endpoint ∈ endpoints, ∀ oracle ∈ d.feed.oracles, ∃ delay outcome,
    transport endpoint oracle.address = .settles delay outcome ∧ outcome ≠ .cancelled
  usable : ∃ good : List OracleSpec, good.Sublist d.feed.oracles ∧ d.feed.minimalOracles ≤ good.length ∧
    ∀ oracle ∈ good, ∃ a, Race.Delivers codec transport endpoints oracle a ∧
      a.verify d.assetIds.keys now d.feed.ttl = .ok none ∧ 0 ≤ a.timestamp ∧ a.timestamp < Nat.pow 2 32

namespace Served
variable {d : Deployment} {codec : Codec} {transport : Transport} {endpoints : List Endpoint} {now : Instant}

theorem exists_results (served : Served d codec transport endpoints now) :
    ∃ results : List RaceResult, (d.feed.oracles.map fun oracle => (Race.run codec transport endpoints oracle).result) =
      results.map some ∧ ∀ result ∈ results, result ≠ .cancelled ∧ result ≠ .unreportable := by
  have hresult : ∀ oracle ∈ d.feed.oracles, ∃ result,
      (Race.run codec transport endpoints oracle).result = some result ∧
        result ≠ .cancelled ∧ result ≠ .unreportable := by
    intro oracle horacle
    have ordinary : ∀ endpoint ∈ endpoints, ∀ delay, transport endpoint oracle.address ≠ .settles delay .cancelled := by
      intro endpoint hendpoint delay hcancelled
      obtain ⟨_, _, hanswer, hne⟩ := served.settles endpoint hendpoint oracle horacle
      cases hcancelled.symm.trans hanswer
      exact hne rfl
    cases hdecided : (Race.run codec transport endpoints oracle).result with
    | none =>
      obtain ⟨endpoint, hendpoint, hhangs⟩ := Race.exists_hangs_of_undecided hdecided
      obtain ⟨_, _, hanswer, -⟩ := served.settles endpoint hendpoint oracle horacle
      cases hhangs.symm.trans hanswer
    | some result =>
      have hwritable : Text.isWritable oracle.id = true :=
        Deployment.isWritable_of_fits (served.ids oracle horacle)
      exact ⟨result, rfl, fun h => Race.result_ne_cancelled ordinary (h ▸ hdecided),
        fun h => Race.wide_of_result (h ▸ hdecided) hwritable⟩
  obtain ⟨results, hresults⟩ := exists_forall₂ hresult
  refine ⟨results, Forall₂.map_eq (hresults.imp fun _ _ h => h.1), fun result hmem => ?_⟩
  obtain ⟨_, -, -, hne⟩ := Forall₂.exists_left hresults hmem
  exact hne

/-- The ballots of the reliable oracles: as many as are required, and none signed before the epoch. -/
theorem exists_reliable (served : Served d codec transport endpoints now) (hnodup : d.feed.oracles.Nodup) :
    ∃ reliable : List Ballot, reliable.Nodup ∧ d.feed.minimalOracles ≤ reliable.length ∧
      ∀ b ∈ reliable, b ∈ ballots d codec transport endpoints now ∧ 0 ≤ b.2.timestamp := by
  obtain ⟨good, hsub, henough, hgood⟩ := served.usable
  have hballot : ∀ oracle ∈ good, ∃ b : Ballot, b.1 = oracle ∧ b ∈ ballots d codec transport endpoints now ∧
      0 ≤ b.2.timestamp := fun oracle horacle => by
    obtain ⟨a, hdelivers, hverify, htime, -⟩ := hgood oracle horacle
    exact ⟨(oracle, a), rfl, mem_ballots.mpr ⟨hsub.subset horacle, hdelivers, hverify⟩, htime⟩
  obtain ⟨reliable, hreliable⟩ := exists_forall₂ hballot
  have hfst : good = reliable.map Prod.fst := by
    rw [← List.map_id good]
    exact Forall₂.map_eq (hreliable.imp fun _ _ h => h.1.symm)
  refine ⟨reliable, List.Nodup.of_map Prod.fst (hfst ▸ hnodup.sublist hsub), hreliable.length_eq ▸ henough, ?_⟩
  intro b hb
  obtain ⟨_, -, -, hmem, htime⟩ := Forall₂.exists_left hreliable hb
  exact ⟨hmem, htime⟩

theorem enough_ballots (served : Served d codec transport endpoints now) (hnodup : d.feed.oracles.Nodup) :
    d.feed.minimalOracles ≤ (ballots d codec transport endpoints now).length := by
  obtain ⟨reliable, hdistinct, henough, hreliable⟩ := served.exists_reliable hnodup
  have hle := (List.subperm_of_subset hdistinct fun b hb => (hreliable b hb).1).length_le
  omega

/-- No ballot that was signed before the epoch is elected: the reliable ones stand in front of it. -/
theorem nonneg_of_elected (served : Served d codec transport endpoints now) (hnodup : d.feed.oracles.Nodup)
    {b : Ballot} (hb : b ∈ elected d codec transport endpoints now) : 0 ≤ b.2.timestamp := by
  obtain ⟨reliable, hdistinct, henough, hreliable⟩ := served.exists_reliable hnodup
  by_contra hneg
  have helected : ∀ b' ∈ reliable, b' ∈ elected d codec transport endpoints now := by
    intro b' hb'
    obtain ⟨hballot, htime⟩ := hreliable b' hb'
    by_contra hout
    have hprecedes := elected_precedes hnodup hb hballot hout
    unfold Precedes at hprecedes
    omega
  have hnew : b ∉ reliable := fun hmem => hneg (hreliable b hmem).2
  have hle := (List.subperm_of_subset (List.nodup_cons.mpr ⟨hnew, hdistinct⟩)
    (List.cons_subset.mpr ⟨hb, helected⟩)).length_le
  have htake : (elected d codec transport endpoints now).length ≤ d.feed.minimalOracles.toNat :=
    List.length_take_le _ _
  rw [List.length_cons] at hle
  omega

theorem packs_elected (served : Served d codec transport endpoints now) (hnodup : d.feed.oracles.Nodup)
    (hbound : ∀ b ∈ ballots d codec transport endpoints now, b.2.timestamp < Nat.pow 2 32) {b : Ballot}
    (hb : b ∈ elected d codec transport endpoints now) :
    (∃ id, b.2.oracleId = some id ∧ 0 ≤ id ∧ id < Nat.pow 2 32) ∧ ∃ proof, b.2.proof codec = .ok proof := by
  have hballot := mem_ballots_of_elected hb
  have hsigned := Attestation.signedCell_eq_ok.mpr
    ⟨⟨served.nonneg_of_elected hnodup hb, hbound b hballot⟩, rfl⟩
  obtain ⟨proof, hproof⟩ := served.proves b.2 _ hsigned
  exact ⟨⟨b.1.id, oracleId_of_elected hb, served.ids b.1 (mem_ballots.mp hballot).1⟩, proof,
    Attestation.proof_eq_ok.mpr ⟨_, hsigned, hproof⟩⟩

theorem exists_reduce_elected (served : Served d codec transport endpoints now) (valid : d.validate = .ok ())
    (hbound : ∀ b ∈ ballots d codec transport endpoints now, b.2.timestamp < Nat.pow 2 32) :
    ∃ p, reduce codec d.assetIds.keys ((elected d codec transport endpoints now).map Prod.snd) = .ok p := by
  obtain ⟨hassets, hpos, -, hids⟩ := Deployment.validate_inv valid
  have hnodup := Deployment.nodup_oracles hids
  have hlength := length_elected (served.enough_ballots hnodup) hpos
  have hne : (elected d codec transport endpoints now).map Prod.snd ≠ [] :=
    mt List.map_eq_nil_iff.mp (elected_ne_nil hlength hpos)
  refine exists_reduce (Deployment.keys_assetIds_ne_nil hassets) (fun _ => Deployment.exists_number_of_key) hne
    (fun _ => prices_of_elected) fun a ha => ?_
  obtain ⟨b, hb, rfl⟩ := List.mem_map.mp ha
  exact served.packs_elected hnodup hbound hb

end Served

/-! ### Prices of a served deployment -/

/-- A deployment that is served gives prices, whatever its other oracles do, exactly when the names of its assets can be
    encoded, the verification of no delivered attestation fails by itself, and none that passes it has a timestamp
    beyond 32 bits: being the newest, it would be elected, and the proofs could not be packed. -/
theorem gives_prices_iff {d : Deployment} {codec : Codec} {transport : Transport} {now : Instant}
    (endpoints : Option (List Endpoint)) (valid : d.validate = .ok ())
    (served : Served d codec transport (endpoints.getD d.feed.endpoints) now) :
    (∃ p, (run d codec transport now { endpoints }).outcome = some (.ok p)) ↔
      d.Encodable ∧ ∀ oracle ∈ d.feed.oracles, ∀ a,
        Race.Delivers codec transport (endpoints.getD d.feed.endpoints) oracle a →
          ∃ rejection, a.verify d.assetIds.keys now d.feed.ttl = .ok rejection ∧
            (rejection = none → a.timestamp < Nat.pow 2 32) := by
  obtain ⟨-, hpos, -, hids⟩ := Deployment.validate_inv valid
  have hnodup := Deployment.nodup_oracles hids
  obtain ⟨results, hresults, hordinary⟩ := served.exists_results
  have hdelivered : ∀ a, .won a ∈ results ↔
      ∃ oracle ∈ d.feed.oracles, Race.Delivers codec transport (endpoints.getD d.feed.endpoints) oracle a := fun a =>
    mem_iff_of_map_eq hresults
  have houtcome : (run d codec transport now { endpoints }).outcome = some (conclude d codec now results) :=
    outcome_of_results hresults
  constructor
  · rintro ⟨p, hp⟩
    have hconclude : conclude d codec now results = .ok p := Option.some.inj (houtcome.symm.trans hp)
    obtain ⟨encodable, -⟩ := conclude_inv hconclude
    refine ⟨encodable, fun oracle horacle a hdelivers => ?_⟩
    obtain ⟨hcount, hreduce⟩ := elected_of_run valid rfl hp
    rw [conclude_of_encodable encodable] at hconclude
    obtain ⟨sifted, hsift, -⟩ := bind_eq_ok.mp hconclude
    obtain ⟨rejection, hverify⟩ := (exists_sift_iff.mp ⟨sifted, hsift⟩).2 a
      ((hdelivered a).mpr ⟨oracle, horacle, hdelivers⟩)
    refine ⟨rejection, hverify, ?_⟩
    rintro rfl
    have hballot : (oracle, a) ∈ ballots d codec transport (endpoints.getD d.feed.endpoints) now :=
      mem_ballots.mpr ⟨horacle, hdelivers, hverify⟩
    exact timestamp_of_ballot hnodup (elected_ne_nil hcount hpos) hreduce hballot
  · rintro ⟨encodable, h⟩
    obtain ⟨sifted, hsift⟩ := exists_sift_iff.mpr ⟨hordinary, fun a ha => by
      obtain ⟨oracle, horacle, hdelivers⟩ := (hdelivered a).mp ha
      obtain ⟨rejection, hverify, -⟩ := h oracle horacle a hdelivers
      exact ⟨rejection, hverify⟩⟩
    have henough := served.enough_ballots hnodup
    have hbound : ∀ b ∈ ballots d codec transport (endpoints.getD d.feed.endpoints) now,
        b.2.timestamp < Nat.pow 2 32 := fun b hb => by
      obtain ⟨horacle, hdelivers, hverify⟩ := mem_ballots.mp hb
      obtain ⟨rejection, hverify', hlate⟩ := h b.1 horacle b.2 hdelivers
      exact hlate (Except.ok.inj (hverify'.symm.trans hverify))
    obtain ⟨p, hp⟩ := served.exists_reduce_elected valid hbound
    exact ⟨p, houtcome.trans (congrArg some ((conclude_eq_reduce encodable hpos hresults hsift henough).trans hp))⟩

/-- Two of the three oracles are enough for the deployment of TON to be served, whatever the third one does. -/
theorem served_ton {third : FetchOutcome} (h : third ≠ .cancelled) :
    Served tonDeployment Race.tonCodec (tonOracles third) tonDeployment.feed.endpoints (.whole 110) where
  ids := by decide
  proves := fun _ cell _ => ⟨Codec.proofOf cell, rfl⟩
  settles := fun endpoint _ oracle _ => by
    unfold tonOracles
    split
    · exact ⟨_, _, rfl, by simp⟩
    · split
      · exact ⟨_, _, rfl, by simp⟩
      · exact ⟨_, _, rfl, h⟩
  usable := by
    have hdecided : ∀ oracle ∈ ([⟨1, "a"⟩, ⟨2, "b"⟩] : List OracleSpec), ∃ a,
        Race.Delivers Race.tonCodec (tonOracles (.refused "gone")) tonDeployment.feed.endpoints oracle a ∧
          a.verify tonDeployment.assetIds.keys (.whole 110) tonDeployment.feed.ttl = .ok none ∧
          0 ≤ a.timestamp ∧ a.timestamp < Nat.pow 2 32 := by decide +kernel
    refine ⟨[⟨1, "a"⟩, ⟨2, "b"⟩], by simp [tonDeployment], by decide, fun oracle horacle => ?_⟩
    obtain ⟨a, hdelivers, husable⟩ := hdecided oracle horacle
    refine ⟨a, (Race.delivers_congr fun endpoint => ?_).mp hdelivers, husable⟩
    rcases List.mem_cons.mp horacle with rfl | horacle
    · rfl
    · obtain rfl := List.mem_singleton.mp horacle
      rfl

theorem gives_prices_iff_ton :
    tonDeployment.validate = .ok () ∧
      Served tonDeployment Race.tonCodec (tonOracles (.refused "gone")) tonDeployment.feed.endpoints (.whole 110) ∧
      ((∃ p, (run tonDeployment Race.tonCodec (tonOracles (.refused "gone")) (.whole 110) {}).outcome = some (.ok p)) ↔
        tonDeployment.Encodable ∧ ∀ oracle ∈ tonDeployment.feed.oracles, ∀ a,
          Race.Delivers Race.tonCodec (tonOracles (.refused "gone")) tonDeployment.feed.endpoints oracle a →
            ∃ rejection, a.verify tonDeployment.assetIds.keys (.whole 110) tonDeployment.feed.ttl = .ok rejection ∧
              (rejection = none → a.timestamp < Nat.pow 2 32)) :=
  ⟨validate_tonDeployment, served_ton (by simp), gives_prices_iff none validate_tonDeployment (served_ton (by simp))⟩

/-- One attestation with a timestamp of 33 bits denies the prices of a deployment that is served. -/
theorem prices_denied_by_late_timestamp :
    tonDeployment.validate = .ok () ∧
      Served tonDeployment Race.tonCodec (tonOracles (.text (Race.publication "01" "cc" (.integer 4294967296))))
        tonDeployment.feed.endpoints (.whole 110) ∧
      (run tonDeployment Race.tonCodec (tonOracles (.text (Race.publication "01" "cc" (.integer 4294967296))))
        (.whole 110) {}).outcome = some (.error (.packing (.unproved (some 3) (.outOfRange 4294967296 32)))) :=
  ⟨validate_tonDeployment, served_ton (by simp), by decide +kernel⟩

end Solvency.Aggregation
