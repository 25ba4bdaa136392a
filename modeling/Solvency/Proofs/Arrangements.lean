import Solvency.Proofs.Shortfalls

/-! Arrangements: what depends on the order in which oracles are listed. Where the newest attestations, as many as are
    required, are newer than all others, the order decides in which order they are counted and nothing else: medians,
    the oldest time and the packed chain of the oracles do not see it. Nor does the order decide what can be reported. -/

namespace Solvency

/-- The same prices, from attestations that were counted in any order. -/
structure AggregatedPrices.SameUpToOrder (p p' : AggregatedPrices) : Prop where
  prices : p.prices = p'.prices
  minTimestamp : p.minTimestamp = p'.minTimestamp
  payload : p.payload = p'.payload
  oracleIds : p.oracleIds.Perm p'.oracleIds

/-- The last one of the `k` greatest numbers is greater than the one that follows, if one follows. -/
def GapAt (k : Nat) (ns : List Int) : Prop :=
  ∃ sorted : List Int, sorted.Perm ns ∧ sorted.Pairwise (fun n n' => n' ≤ n) ∧
    ∀ last next, sorted[k - 1]? = some last → sorted[k]? = some next → next < last

theorem min?_of_perm {ns ns' : List Int} (h : ns.Perm ns') : ns.min? = ns'.min? := by
  cases hm : ns'.min? with
  | none =>
    obtain rfl := List.min?_eq_none_iff.mp hm
    rw [h.eq_nil]
    rfl
  | some m =>
    obtain ⟨hmem, hle⟩ := List.min?_eq_some_iff.mp hm
    exact List.min?_eq_some_iff.mpr ⟨h.mem_iff.mpr hmem, fun n hn => hle n (h.mem_iff.mp hn)⟩

/-! ### Cuts of a ranking -/

section Cut
variable {α : Type} {f : α → Int} {xs : List α} {k : Nat}

/-- In front of a gap stand the items that are no less than the last one of them, wherever they came from. -/
theorem take_eq_filter_of_gap (descending : xs.Pairwise fun a b => f b ≤ f a) {last : Int}
    (hlast : (xs.map f)[k]? = some last) (gap : ∀ next, (xs.map f)[k + 1]? = some next → next < last) :
    xs.take (k + 1) = xs.filter fun a => last ≤ f a := by
  have hordered := List.pairwise_iff_getElem.mp descending
  obtain ⟨hk, hvalue⟩ := List.getElem?_eq_some_iff.mp hlast
  rw [List.length_map] at hk
  rw [List.getElem_map] at hvalue
  have hfront : ∀ a ∈ xs.take (k + 1), decide (last ≤ f a) = true := by
    intro a ha
    obtain ⟨i, hi, rfl⟩ := List.mem_take_iff_getElem.mp ha
    rw [decide_eq_true_eq, ← hvalue]
    rcases Nat.lt_or_eq_of_le (by omega : i ≤ k) with hlt | rfl
    · exact hordered i k (by omega) hk hlt
    · exact Int.le_refl _
  have hbehind : ∀ a ∈ xs.drop (k + 1), ¬decide (last ≤ f a) = true := by
    intro a ha
    obtain ⟨i, hi, rfl⟩ := List.mem_drop_iff_getElem.mp ha
    rw [Nat.add_comm] at hi
    have hfirst : f xs[k + 1] < last := gap _ (by rw [List.getElem?_map, List.getElem?_eq_getElem]; rfl)
    have hle : f xs[k + 1 + i] ≤ f xs[k + 1] := by
      rcases Nat.eq_zero_or_pos i with rfl | hpos
      · exact Int.le_refl _
      · exact hordered (k + 1) (k + 1 + i) (by omega) hi (by omega)
    rw [decide_eq_true_eq]
    omega
  conv => rhs; rw [← List.take_append_drop (k + 1) xs]
  rw [List.filter_append, List.filter_eq_self.mpr hfront, List.filter_eq_nil_iff.mpr hbehind, List.append_nil]

/-- Two rankings of the same items have the same items in front of a gap. -/
theorem take_perm_of_gap {ys : List α} (h : xs.Perm ys) (descending : xs.Pairwise fun a b => f b ≤ f a)
    (descending' : ys.Pairwise fun a b => f b ≤ f a) (hk : 0 < k) (gap : GapAt k (xs.map f)) :
    (xs.take k).Perm (ys.take k) := by
  obtain ⟨sorted, hperm, hsorted, hgap⟩ := gap
  have unique : ∀ zs : List α, xs.Perm zs → zs.Pairwise (fun a b => f b ≤ f a) → zs.map f = sorted := by
    intro zs hzs hdescending
    have hmapped : (zs.map f).Pairwise fun n n' => n' ≤ n := List.pairwise_map.mpr hdescending
    exact List.Perm.eq_of_pairwise (fun _ _ _ _ hle hle' => Int.le_antisymm hle' hle) hmapped hsorted
      ((hzs.symm.map f).trans hperm.symm)
  obtain ⟨k, rfl⟩ : ∃ j, k = j + 1 := ⟨k - 1, by omega⟩
  rw [Nat.add_sub_cancel] at hgap
  cases hlast : sorted[k]? with
  | none =>
    -- no more items than are taken
    have hfew : xs.length ≤ k + 1 := by
      have hlength := List.getElem?_eq_none_iff.mp hlast
      rw [← unique xs (.refl _) descending, List.length_map] at hlength
      omega
    rw [List.take_of_length_le hfew, List.take_of_length_le (h.length_eq ▸ hfew)]
    exact h
  | some last =>
    have cut : ∀ zs : List α, xs.Perm zs → zs.Pairwise (fun a b => f b ≤ f a) →
        zs.take (k + 1) = zs.filter fun a => last ≤ f a := fun zs hzs hdescending =>
      take_eq_filter_of_gap hdescending (by rw [unique zs hzs hdescending, hlast])
        (by rw [unique zs hzs hdescending]; exact fun next => hgap last next hlast)
    rw [cut xs (.refl _) descending, cut ys h descending']
    exact h.filter _

end Cut

/-! ### Packed oracles -/

/-- The packed chain of attestations with ids of their own does not depend on the order of the attestations. -/
theorem packOracles_of_perm (codec : Codec) {chosen chosen' : List Attestation} (h : chosen.Perm chosen')
    (identified : ∀ a ∈ chosen, ∃ id, a.oracleId = some id)
    (own : ∀ a ∈ chosen, ∀ b ∈ chosen, a.oracleId = b.oracleId → a = b) :
    packOracles codec chosen = packOracles codec chosen' := by
  obtain ⟨entries', hentries'⟩ : ∃ entries, List.Forall₂ (fun a e => a.identified = .ok e) chosen' entries :=
    exists_forall₂ fun a ha => by
      obtain ⟨id, hid⟩ := identified a (h.mem_iff.mpr ha)
      exact ⟨(id, a), Attestation.identified_eq_ok.mpr ⟨hid, rfl⟩⟩
  obtain ⟨entries, hentries, hsame⟩ := List.perm_comp_forall₂ h hentries'
  have hsorted : sortBy (fun a b : Int × Attestation => decide (b.1 ≤ a.1)) entries =
      sortBy (fun a b => decide (b.1 ≤ a.1)) entries' := by
    refine sortBy_eq_of_perm (fun a b => total_le Prod.fst b a) (fun a b c hab hbc => trans_le Prod.fst c b a hbc hab)
      hsame fun e he e' he' hle hle' => ?_
    obtain ⟨a, ha, hid⟩ := Forall₂.exists_left hentries he
    obtain ⟨a', ha', hid'⟩ := Forall₂.exists_left hentries he'
    obtain ⟨hid, rfl⟩ := Attestation.identified_eq_ok.mp hid
    obtain ⟨hid', rfl⟩ := Attestation.identified_eq_ok.mp hid'
    have hfst : e.1 = e'.1 := Int.le_antisymm (of_decide_eq_true hle') (of_decide_eq_true hle)
    exact Prod.ext hfst (own e.2 ha e'.2 ha' (by rw [hid, hid', hfst]))
  unfold packOracles
  rw [bind_of_eq_ok (mapM_eq_ok.mpr hentries), bind_of_eq_ok (mapM_eq_ok.mpr hentries'), hsorted]

namespace Aggregation

/-- A reduction of the same attestations in another order gives the same, or fails for the same cause: only the oracles
    are listed in that order. -/
theorem reduce_of_perm (codec : Codec) (assets : List Text) {chosen chosen' : List Attestation}
    (h : chosen.Perm chosen') (identified : ∀ a ∈ chosen, ∃ id, a.oracleId = some id)
    (own : ∀ a ∈ chosen, ∀ b ∈ chosen, a.oracleId = b.oracleId → a = b) :
    reduce codec assets chosen' =
      (reduce codec assets chosen).map fun p => { p with oracleIds := chosen'.filterMap Attestation.oracleId } := by
  have hmedians : medianPrice chosen = medianPrice chosen' := funext fun _ => medianPrice_of_perm h
  have hpayload : ∀ medians, packPayload codec medians chosen = packPayload codec medians chosen' := fun medians => by
    rw [packPayload, packPayload, packOracles_of_perm codec h identified own]
  have holdest := min?_of_perm (h.map Attestation.timestamp)
  show _ = _ <$> _
  unfold reduce
  simp only [hmedians, hpayload, holdest, map_bind, map_pure]

/-! ### Verified attestations -/

/-- The attestations of oracles whose only fetches end so, as far as they pass the verification. -/
def verified (codec : Codec) (assets : List Text) (now ttl : Int) (outcome : OracleSpec → FetchOutcome)
    (oracles : List OracleSpec) : List Attestation :=
  (verdicts codec outcome oracles).filterMap (accept? assets (.whole now) ttl)

section Verified
variable {codec : Codec} {assets : List Text} {now ttl : Int} {outcome : OracleSpec → FetchOutcome}
  {oracles : List OracleSpec}

theorem verified_of_perm {oracles' : List OracleSpec} (h : oracles.Perm oracles') :
    (verified codec assets now ttl outcome oracles).Perm (verified codec assets now ttl outcome oracles') :=
  (h.map _).filterMap _

theorem exists_oracle_of_verified {a : Attestation} (h : a ∈ verified codec assets now ttl outcome oracles) :
    ∃ oracle ∈ oracles, (outcome oracle).verdict codec oracle = .won a ∧ a.oracleId = some oracle.id := by
  obtain ⟨result, hresult, haccept⟩ := List.mem_filterMap.mp h
  obtain ⟨oracle, horacle, rfl⟩ := List.mem_map.mp hresult
  obtain ⟨hwon, -⟩ := accept?_eq_some.mp haccept
  refine ⟨oracle, horacle, hwon, ?_⟩
  unfold FetchOutcome.verdict at hwon
  split at hwon
  · rename_i result hjudge
    obtain ⟨_, _, -, -, rfl⟩ := FetchOutcome.judge_eq_won.mp (hwon ▸ hjudge)
    rfl
  · cases hwon

/-- Oracles with ids of their own have attestations of their own. -/
theorem verified_own (distinct : (oracles.map OracleSpec.id).Nodup) {a b : Attestation}
    (ha : a ∈ verified codec assets now ttl outcome oracles) (hb : b ∈ verified codec assets now ttl outcome oracles)
    (hid : a.oracleId = b.oracleId) : a = b := by
  obtain ⟨oracle, horacle, hwon, ha⟩ := exists_oracle_of_verified ha
  obtain ⟨oracle', horacle', hwon', hb⟩ := exists_oracle_of_verified hb
  have hsame : oracle.id = oracle'.id := Option.some.inj (ha.symm.trans (hid.trans hb))
  obtain rfl : oracle = oracle' := List.inj_on_of_nodup_map distinct horacle horacle' hsame
  cases hwon.symm.trans hwon'
  rfl

end Verified

theorem mem_of_mem_quorum {required : Int} {accepted : List Attestation} {a : Attestation}
    (h : a ∈ quorum required accepted) : a ∈ accepted := mem_sortBy.mp (List.mem_of_mem_take h)

theorem newestFirst_descending (as : List Attestation) :
    (newestFirst as).Pairwise fun a b => b.timestamp ≤ a.timestamp := sortBy_descending Attestation.timestamp as

theorem quorum_of_perm {required : Int} (hpos : 1 ≤ required) {accepted accepted' : List Attestation}
    (h : accepted.Perm accepted') (gap : GapAt required.toNat (accepted.map Attestation.timestamp)) :
    (quorum required accepted).Perm (quorum required accepted') := by
  have hranked : (newestFirst accepted).Perm accepted := sortBy_perm _ _
  have hranked' : (newestFirst accepted').Perm accepted' := sortBy_perm _ _
  rw [quorum, quorum, if_pos (by omega), if_pos (by omega)]
  refine take_perm_of_gap (hranked.trans (h.trans hranked'.symm)) (newestFirst_descending _) (newestFirst_descending _)
    (by omega) ?_
  obtain ⟨sorted, hperm, hgap⟩ := gap
  exact ⟨sorted, hperm.trans (hranked.map _).symm, hgap⟩

/-- Behind a gap, the same attestations in another order are reduced to the same prices up to their order, or they fail
    for the same cause. -/
theorem reduce_quorum_of_gap (codec : Codec) (assets : List Text) {required : Int} (hpos : 1 ≤ required)
    {accepted accepted' : List Attestation} (h : accepted.Perm accepted')
    (identified : ∀ a ∈ accepted, ∃ id, a.oracleId = some id)
    (own : ∀ a ∈ accepted, ∀ b ∈ accepted, a.oracleId = b.oracleId → a = b)
    (gap : GapAt required.toNat (accepted.map Attestation.timestamp)) :
    (∃ p p', reduce codec assets (quorum required accepted) = .ok p ∧
        reduce codec assets (quorum required accepted') = .ok p' ∧ p.SameUpToOrder p') ∨
      ∃ e, reduce codec assets (quorum required accepted) = .error e ∧
        reduce codec assets (quorum required accepted') = .error e := by
  have hchosen := quorum_of_perm hpos h gap
  have hreduce := reduce_of_perm codec assets hchosen (fun a ha => identified a (mem_of_mem_quorum ha))
    fun a ha b hb => own a (mem_of_mem_quorum ha) b (mem_of_mem_quorum hb)
  cases hresult : reduce codec assets (quorum required accepted) with
  | error e =>
    rw [hresult] at hreduce
    exact Or.inr ⟨e, rfl, hreduce⟩
  | ok p =>
    rw [hresult] at hreduce
    obtain ⟨-, -, -, hids⟩ := reduce_inv hresult
    exact Or.inl ⟨p, _, rfl, hreduce, rfl, rfl, rfl, hids ▸ hchosen.filterMap _⟩

theorem Reportable.of_perm {d : Deployment} {codec : Codec} {outcome : OracleSpec → FetchOutcome}
    {oracles oracles' : List OracleSpec} (h : Reportable d codec outcome oracles) (perm : oracles.Perm oracles') :
    Reportable d codec outcome oracles' :=
  ⟨h.encodable, fun oracle horacle => h.written oracle (perm.mem_iff.mpr horacle)⟩

section SingleEndpoint
variable {d : Deployment} {codec : Codec} {now : Int} (call : AggregationCall) {script : Script} {endpoint : Endpoint}
  (single : call.endpoints.getD d.feed.endpoints = [endpoint]) (untimed : call.timeout = none)
  (uncancelled : call.cancelAfter = none)
  (ordinary : ∀ oracle ∈ call.oracles.getD d.feed.oracles, script endpoint oracle.address ≠ .cancelled)
  (delays : Endpoint → Text → Nat)
include single untimed uncancelled ordinary

/-- Where each oracle is read from one endpoint and what comes of that can be reported, an aggregation reduces the quorum
    of the verified attestations, or it reports that they are too few. -/
theorem exists_outcome_of_verified (reportable : Reportable d codec (fun oracle => script endpoint oracle.address)
      (call.oracles.getD d.feed.oracles)) :
    let usable := verified codec d.assetIds.keys now d.feed.ttl (fun oracle => script endpoint oracle.address)
      (call.oracles.getD d.feed.oracles)
    ∃ last, (run d codec (script.after delays) (.whole now) call).outcome =
      some (if (usable.length : Int) < d.feed.minimalOracles then
          .error (.outdated usable.length d.feed.minimalOracles last)
        else reduce codec d.assetIds.keys (quorum d.feed.minimalOracles usable)) := by
  intro usable
  obtain ⟨s, hsift⟩ := exists_sift_verdicts codec d.assetIds.keys now d.feed.ttl ordinary reportable.written
  have haccepted : s.accepted = usable := sift_accepted hsift
  refine ⟨s.lastError, ?_⟩
  rw [outcome_of_script _ single untimed uncancelled delays, conclude_of_sift reportable.encodable hsift, haccepted]

/-- What cannot be reported gives neither prices nor a shortfall. -/
theorem exists_outcome_of_not_reportable (h : ¬Reportable d codec (fun oracle => script endpoint oracle.address)
      (call.oracles.getD d.feed.oracles)) :
    ∃ e, (run d codec (script.after delays) (.whole now) call).outcome = some (.error e) ∧
      ∀ accepted required lastError, e ≠ .outdated accepted required lastError := by
  obtain ⟨e, he, hother⟩ := conclude_of_not_reportable ordinary now h
  exact ⟨e, (outcome_of_script _ single untimed uncancelled delays).trans (congrArg some he), hother⟩

/-- Prices are those of a quorum of the verified attestations. -/
theorem outcome_eq_prices {p : AggregatedPrices} :
    let usable := verified codec d.assetIds.keys now d.feed.ttl (fun oracle => script endpoint oracle.address)
      (call.oracles.getD d.feed.oracles)
    (run d codec (script.after delays) (.whole now) call).outcome = some (.ok p) ↔
      Reportable d codec (fun oracle => script endpoint oracle.address) (call.oracles.getD d.feed.oracles) ∧
        d.feed.minimalOracles ≤ usable.length ∧
          reduce codec d.assetIds.keys (quorum d.feed.minimalOracles usable) = .ok p := by
  intro usable
  by_cases reportable : Reportable d codec (fun oracle => script endpoint oracle.address)
      (call.oracles.getD d.feed.oracles)
  · obtain ⟨last, houtcome⟩ := exists_outcome_of_verified call single untimed uncancelled ordinary delays reportable
    rw [houtcome, and_iff_right reportable]
    split
    · rename_i hfew
      exact iff_of_false (fun h => nomatch h) fun h => absurd h.1 (Int.not_le.mpr hfew)
    · rename_i henough
      rw [Option.some.injEq, and_iff_right (Int.not_lt.mp henough)]
  · obtain ⟨e, he, -⟩ := exists_outcome_of_not_reportable call single untimed uncancelled ordinary delays reportable
    exact iff_of_false (fun h => nomatch he.symm.trans h) fun h => reportable h.1

/-- Too few verified attestations are reported exactly where what comes of the oracles can be. -/
theorem exists_outdated_iff :
    let usable := verified codec d.assetIds.keys now d.feed.ttl (fun oracle => script endpoint oracle.address)
      (call.oracles.getD d.feed.oracles)
    (usable.length : Int) < d.feed.minimalOracles →
      ((∃ last, (run d codec (script.after delays) (.whole now) call).outcome =
          some (.error (.outdated usable.length d.feed.minimalOracles last))) ↔
        Reportable d codec (fun oracle => script endpoint oracle.address) (call.oracles.getD d.feed.oracles)) := by
  intro usable hfew
  constructor
  · rintro ⟨last, houtcome⟩
    by_contra h
    obtain ⟨e, he, hother⟩ := exists_outcome_of_not_reportable call single untimed uncancelled ordinary delays h
    exact hother _ _ _ (Except.error.inj (Option.some.inj (he.symm.trans houtcome)))
  · intro reportable
    obtain ⟨last, houtcome⟩ := exists_outcome_of_verified call single untimed uncancelled ordinary delays reportable
    exact ⟨last, houtcome.trans (congrArg some (if_pos hfew))⟩

end SingleEndpoint

/-- For a deployment whose oracles are each read from one endpoint, by a clock of whole seconds and with no fetch that
    hangs or is cancelled, let the oracles be listed in another order. If the verified attestations have a gap behind as
    many as are required, both orders give prices or neither does, and the prices are the same up to the order in which
    the oracles are counted. If there are too few verified attestations, both orders report as many, exactly if the
    assets have names that can be encoded and no oracle fails under an id that cannot be written. -/
theorem order_breaks_ties_only {d : Deployment} {codec : Codec} {now : Int} {endpoints : Option (List Endpoint)}
    {script : Script} {endpoint : Endpoint} {oracles : List OracleSpec} (valid : d.validate = .ok ())
    (permuted : oracles.Perm d.feed.oracles) (single : endpoints.getD d.feed.endpoints = [endpoint])
    (ordinary : ∀ oracle ∈ d.feed.oracles, script endpoint oracle.address ≠ .cancelled)
    (delays delays' : Endpoint → Text → Nat) :
    let answer (oracle : OracleSpec) := script endpoint oracle.address
    let usable := verified codec d.assetIds.keys now d.feed.ttl answer d.feed.oracles
    let outcome := (run d codec (script.after delays) (.whole now) { endpoints }).outcome
    let outcome' := (run d codec (script.after delays') (.whole now) { oracles := some oracles, endpoints }).outcome
    (GapAt d.feed.minimalOracles.toNat (usable.map Attestation.timestamp) →
      ((∃ p, outcome = some (.ok p)) ↔ ∃ p', outcome' = some (.ok p')) ∧
        ∀ p p', outcome = some (.ok p) → outcome' = some (.ok p') → p.SameUpToOrder p') ∧
    ((usable.length : Int) < d.feed.minimalOracles →
      ((∃ last, outcome = some (.error (.outdated usable.length d.feed.minimalOracles last))) ↔
          Reportable d codec answer d.feed.oracles) ∧
        ((∃ last', outcome' = some (.error (.outdated usable.length d.feed.minimalOracles last'))) ↔
          Reportable d codec answer d.feed.oracles)) := by
  intro answer usable outcome outcome'
  obtain ⟨-, hpos, -, distinct⟩ := Deployment.validate_inv valid
  let usable' := verified codec d.assetIds.keys now d.feed.ttl answer oracles
  have ordinary' : ∀ oracle ∈ oracles, answer oracle ≠ .cancelled := fun oracle horacle =>
    ordinary oracle (permuted.mem_iff.mp horacle)
  have hsame : usable.Perm usable' := verified_of_perm permuted.symm
  have hreportable : Reportable d codec answer oracles ↔ Reportable d codec answer d.feed.oracles :=
    ⟨fun h => h.of_perm permuted, fun h => h.of_perm permuted.symm⟩
  constructor
  · intro gap
    have hprices : ∀ p, outcome = some (.ok p) ↔ Reportable d codec answer d.feed.oracles ∧
        d.feed.minimalOracles ≤ usable.length ∧
          reduce codec d.assetIds.keys (quorum d.feed.minimalOracles usable) = .ok p :=
      fun p => outcome_eq_prices { endpoints } single rfl rfl ordinary delays
    have hprices' : ∀ p, outcome' = some (.ok p) ↔ Reportable d codec answer oracles ∧
        d.feed.minimalOracles ≤ usable'.length ∧
          reduce codec d.assetIds.keys (quorum d.feed.minimalOracles usable') = .ok p :=
      fun p => outcome_eq_prices { oracles := some oracles, endpoints } single rfl rfl ordinary' delays'
    simp only [hprices, hprices', hreportable, ← hsame.length_eq]
    have identified : ∀ a ∈ usable, ∃ id, a.oracleId = some id := fun a ha => by
      obtain ⟨oracle, -, -, hid⟩ := exists_oracle_of_verified ha
      exact ⟨oracle.id, hid⟩
    rcases reduce_quorum_of_gap codec d.assetIds.keys hpos hsame identified
      (fun a ha b hb => verified_own distinct ha hb) gap with ⟨p, p', hp, hp', hsame⟩ | ⟨e, he, he'⟩
    · rw [hp, hp']
      refine ⟨by simp, ?_⟩
      rintro q q' ⟨-, -, ⟨⟩⟩ ⟨-, -, ⟨⟩⟩
      exact hsame
    · simp [he, he']
  · intro hfew
    have hfew' : (usable'.length : Int) < d.feed.minimalOracles := hsame.length_eq ▸ hfew
    have houtdated' := exists_outdated_iff { oracles := some oracles, endpoints } single rfl rfl ordinary' delays' hfew'
    refine ⟨exists_outdated_iff { endpoints } single rfl rfl ordinary delays hfew, ?_⟩
    rw [hsame.length_eq, ← hreportable]
    exact houtdated'

/-- Three oracles that publish attestations, the last two at one time. -/
def tiedScript : Script := fun _ address =>
  if address = "a" then .text (Race.publication "01" "aa" (.integer 100))
  else if address = "b" then .text (Race.publication "02" "bb" (.integer 104))
  else .text (Race.publication "01" "cc" (.integer 104))

/-- The tie is inside the quorum of two, so that both orders of the tied oracles give the same prices. -/
theorem order_breaks_ties_only_tied :
    let endpoint := Document.ofText defaultEndpoint
    let oracles : List OracleSpec := [⟨3, "c"⟩, ⟨1, "a"⟩, ⟨2, "b"⟩]
    let usable := verified Race.tonCodec tonDeployment.assetIds.keys 110 tonDeployment.feed.ttl
      (fun oracle => tiedScript endpoint oracle.address) tonDeployment.feed.oracles
    let transport := tiedScript.after fun _ _ => 0
    tonDeployment.validate = .ok () ∧ oracles.Perm tonDeployment.feed.oracles ∧
      (none : Option (List Endpoint)).getD tonDeployment.feed.endpoints = [endpoint] ∧
      (∀ oracle ∈ tonDeployment.feed.oracles, tiedScript endpoint oracle.address ≠ .cancelled) ∧
      GapAt tonDeployment.feed.minimalOracles.toNat (usable.map Attestation.timestamp) ∧
      ∃ p p', (run tonDeployment Race.tonCodec transport (.whole 110) {}).outcome = some (.ok p) ∧
        (run tonDeployment Race.tonCodec transport (.whole 110) { oracles := some oracles }).outcome = some (.ok p') ∧
        p.SameUpToOrder p' := by
  intro endpoint oracles usable transport
  have permuted : oracles.Perm tonDeployment.feed.oracles := by decide
  have single : (none : Option (List Endpoint)).getD tonDeployment.feed.endpoints = [endpoint] := rfl
  have ordinary : ∀ oracle ∈ tonDeployment.feed.oracles, tiedScript endpoint oracle.address ≠ .cancelled := by
    decide +kernel
  have htimes : usable.map Attestation.timestamp = [100, 104, 104] := by decide +kernel
  have gap : GapAt tonDeployment.feed.minimalOracles.toNat (usable.map Attestation.timestamp) :=
    ⟨[104, 104, 100], by rw [htimes]; decide, by decide, by rintro _ _ ⟨⟩ ⟨⟩; decide⟩
  have hprices : ∃ p, (run tonDeployment Race.tonCodec transport (.whole 110) {}).outcome = some (.ok p) := by
    decide +kernel
  obtain ⟨hboth, hsame⟩ := (order_breaks_ties_only validate_tonDeployment permuted single ordinary (fun _ _ => 0)
    fun _ _ => 0).1 gap
  obtain ⟨p, hp⟩ := hprices
  obtain ⟨p', hp'⟩ := hboth.mp ⟨p, hp⟩
  exact ⟨validate_tonDeployment, permuted, single, ordinary, gap, p, p', hp, hp', hsame p p' hp hp'⟩

/-- A deployment in order reports no shortfall in either order of its oracles, although none of them answers. -/
theorem shortfall_reported_in_no_order :
    let refusal : Script := fun _ _ => .refused "gone"
    let oracles : List OracleSpec := [⟨2, "b"⟩, ⟨1, "a"⟩]
    let usable := verified Race.tonCodec surrogateDeployment.assetIds.keys 110 surrogateDeployment.feed.ttl
      (fun oracle => refusal (.ofText defaultEndpoint) oracle.address) surrogateDeployment.feed.oracles
    let transport := refusal.after fun _ _ => 0
    surrogateDeployment.validate = .ok () ∧ oracles.Perm surrogateDeployment.feed.oracles ∧
      surrogateDeployment.feed.endpoints = [.ofText defaultEndpoint] ∧
      (usable.length : Int) < surrogateDeployment.feed.minimalOracles ∧
      (run surrogateDeployment Race.tonCodec transport (.whole 110) {}).outcome = some (.error .assetName) ∧
      (run surrogateDeployment Race.tonCodec transport (.whole 110) { oracles := some oracles }).outcome =
        some (.error .assetName) := by
  intro refusal oracles usable transport
  exact ⟨by decide +kernel, by decide, rfl, by decide +kernel, by decide +kernel, by decide +kernel⟩

end Aggregation

end Solvency
