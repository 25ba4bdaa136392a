import Solvency.Proofs.Evidence
import Solvency.Proofs.Shortfalls

/-! Failures: which of the ways in which an aggregation fails its callers are told of. Four things escape a deployment
    that is in order: the name of an asset that cannot be encoded, an oracle that loses its race under an id that cannot
    be written, an oracle id of more than 32 bits, which the payload has no room for, and a time that cannot be compared
    with a clock that reads fractions. So do a timeout beyond the reach of every clock, and one that has passed and cannot
    be written. -/

namespace Solvency

/-- A failure that callers are told of: too few usable attestations, a transport that fails or is too slow, an
    attestation that cannot be proved, or a cancellation. -/
def AggregationError.Documented : AggregationError → Prop
  | .outdated .. | .transport _ | .cancelled | .packing (.missingOracleId _) | .packing (.unproved ..) => True
  | .assetName | .unreportable | .clock _ | .median _ | .packing _ => False

/-! ### Packing of oracles -/

section Packing
variable {codec : Codec}

/-- An attestation can be packed under an id: this fits, and there is a proof of what was signed. -/
def Packs (codec : Codec) (entry : Int × Attestation) : Prop :=
  (0 ≤ entry.1 ∧ entry.1 < Nat.pow 2 32) ∧ ∃ proof, entry.2.proof codec = .ok proof

theorem exists_packOracle {entry : Int × Attestation} (h : Packs codec entry) (next : Option Cell) :
    ∃ cell, packOracle codec entry next = .ok cell := by
  obtain ⟨hfits, proof, hproof⟩ := h
  exact ⟨_, packOracle_eq_ok.mpr ⟨proof, hproof, oracleCell_eq_ok.mpr ⟨hfits, rfl⟩⟩⟩

theorem packs_of_packOracle {entry : Int × Attestation} {next : Option Cell} {cell : Cell}
    (h : packOracle codec entry next = .ok cell) : Packs codec entry := by
  obtain ⟨proof, hproof, hcell⟩ := packOracle_eq_ok.mp h
  exact ⟨(oracleCell_eq_ok.mp hcell).1, proof, hproof⟩

/-- An attestation that is not proved is reported as that, whatever its id. -/
theorem packOracle_error {entry : Int × Attestation} {next : Option Cell} {e : PackError}
    (h : packOracle codec entry next = .error e) :
    ((¬∃ proof, entry.2.proof codec = .ok proof) ∧ ∃ cause, e = entry.2.unproved cause) ∨
      (e = .cell (.outOfRange entry.1 32) ∧ ¬(0 ≤ entry.1 ∧ entry.1 < Nat.pow 2 32) ∧
        ∃ proof, entry.2.proof codec = .ok proof) := by
  rcases bind_eq_error.mp h with hproof | ⟨proof, hproof, hcell⟩
  · obtain ⟨cause, -, rfl⟩ := mapError_eq_error.mp hproof
    exact Or.inl ⟨fun ⟨proof, h⟩ => (nomatch h.symm.trans hproof), cause, rfl⟩
  · obtain ⟨cause, hcause, rfl⟩ := mapError_eq_error.mp hcell
    unfold oracleCell at hcause
    rcases bind_eq_error.mp hcause with hwide | ⟨_, -, hrest⟩
    · unfold CellBuilder.uint at hwide
      split at hwide
      · cases hwide
      · rename_i hwidth
        cases hwide
        exact Or.inr ⟨rfl, hwidth, proof, hproof⟩
    · cases hrest

theorem Attestation.unproved_of_writable {a : Attestation} {id : Int} (identified : a.oracleId = some id)
    (writable : Text.isWritable id = true) (cause : CellError) : a.unproved cause = .unproved (some id) cause := by
  rw [unproved, identified, Option.all_some, if_pos writable]

theorem Attestation.unproved_of_wide {a : Attestation} {id : Int} (identified : a.oracleId = some id)
    (wide : ¬Text.isWritable id = true) (cause : CellError) : a.unproved cause = .unreportable := by
  rw [unproved, identified, Option.all_some, if_neg wide]

/-- Under an id that does not fit, an attestation fails over the id if it is proved, or if it is not and the id cannot be
    written. -/
theorem packOracle_of_wide (entry : Int × Attestation) (identified : entry.2.oracleId = some entry.1)
    (wide : ¬(0 ≤ entry.1 ∧ entry.1 < Nat.pow 2 32))
    (proved : (∃ proof, entry.2.proof codec = .ok proof) ∨ ¬Text.isWritable entry.1 = true) :
    ∃ e, (e = .cell (.outOfRange entry.1 32) ∨ e = .unreportable) ∧ ∀ next, packOracle codec entry next = .error e := by
  cases hproof : entry.2.proof codec with
  | ok proof =>
    have hcell : ∀ next, oracleCell entry.1 proof entry.2.signature next = .error (.outOfRange entry.1 32) :=
      fun next => bind_of_eq_error (by rw [CellBuilder.uint, if_neg wide]) _
    exact ⟨_, Or.inl rfl, fun next =>
      bind_eq_error.mpr (Or.inr ⟨proof, hproof, mapError_eq_error.mpr ⟨_, hcell next, rfl⟩⟩)⟩
  | error e =>
    have hwide : ¬Text.isWritable entry.1 = true :=
      proved.resolve_left fun ⟨proof, h⟩ => nomatch h.symm.trans hproof
    obtain ⟨cause, -, rfl⟩ := mapError_eq_error.mp hproof
    exact ⟨_, Or.inr (Attestation.unproved_of_wide identified hwide cause), fun next =>
      bind_eq_error.mpr (Or.inl hproof)⟩

end Packing

section Chains
variable {α : Type} {pack : α → Option Cell → Except PackError Cell}

/-- A chain fails as the first of its items does that cannot be packed. -/
theorem exists_of_foldlM_error {items : List α} {start : Option Cell} {e : PackError}
    (h : items.foldlM (fun chain item => some <$> pack item chain) start = .error e) :
    ∃ earlier item later next, items = earlier ++ item :: later ∧ pack item next = .error e ∧
      ∀ i ∈ earlier, ∃ next cell, pack i next = .ok cell := by
  induction items generalizing start with
  | nil => cases h
  | cons item items ih =>
    rw [List.foldlM_cons] at h
    cases hitem : pack item start with
    | error e' =>
      rw [hitem] at h
      cases h
      exact ⟨[], item, items, start, rfl, hitem, fun _ hi => nomatch hi⟩
    | ok cell =>
      rw [hitem] at h
      have hrest : items.foldlM (fun chain item => some <$> pack item chain) (some cell) = .error e := h
      obtain ⟨earlier, item', later, next, rfl, hfails, hpacked⟩ := ih hrest
      exact ⟨item :: earlier, item', later, next, rfl, hfails, List.forall_mem_cons.mpr ⟨⟨start, cell, hitem⟩, hpacked⟩⟩

theorem isSome_of_foldlM {items : List α} {start chain : Option Cell} (started : items ≠ [] ∨ start.isSome)
    (h : items.foldlM (fun chain item => some <$> pack item chain) start = .ok chain) : chain.isSome := by
  induction items generalizing start with
  | nil =>
    obtain rfl := pure_eq_ok.mp h
    exact started.resolve_left fun h => h rfl
  | cons item items ih =>
    rw [List.foldlM_cons] at h
    obtain ⟨_, hitem, h⟩ := bind_eq_ok.mp h
    obtain ⟨cell, -, rfl⟩ := map_eq_ok.mp hitem
    exact ih (Or.inr rfl) h

theorem foldlM_of_error {earlier later : List α} {item : α} {e : PackError}
    (packed : ∀ i ∈ earlier, ∀ next, ∃ cell, pack i next = .ok cell) (fails : ∀ next, pack item next = .error e)
    (start : Option Cell) :
    (earlier ++ item :: later).foldlM (fun chain item => some <$> pack item chain) start = .error e := by
  induction earlier generalizing start with
  | nil =>
    rw [List.nil_append, List.foldlM_cons, fails]
    rfl
  | cons i earlier ih =>
    obtain ⟨hi, hearlier⟩ := List.forall_mem_cons.mp packed
    obtain ⟨cell, hcell⟩ := hi start
    rw [List.cons_append, List.foldlM_cons, hcell]
    exact ih hearlier (some cell)

end Chains

namespace Aggregation

/-- The id of an oracle is what keeps ballots from being packed: it does not fit, although its attestation is proved, or
    it cannot even be written where this is not; and those of greater ids, which come first, are packed. -/
structure Misfit (codec : Codec) (chosen : List Ballot) (b : Ballot) : Prop where
  wide : ¬(0 ≤ b.1.id ∧ b.1.id < Nat.pow 2 32)
  proved : (∃ proof, b.2.proof codec = .ok proof) ∨ ¬Text.isWritable b.1.id = true
  packed : ∀ b' ∈ chosen, b.1.id < b'.1.id → Packs codec (entryOf b')

section Ballots
variable {codec : Codec} {chosen : List Ballot}

/-- The ballots as they are packed, from the greatest id on. -/
def descending (chosen : List Ballot) : List (Int × Attestation) :=
  sortBy (fun a b => decide (b.1 ≤ a.1)) (chosen.map entryOf)

theorem mem_descending {entry : Int × Attestation} : entry ∈ descending chosen ↔ ∃ b ∈ chosen, entryOf b = entry :=
  mem_sortBy.trans List.mem_map

theorem descending_sorted (distinct : (chosen.map fun b => b.1.id).Nodup) :
    (descending chosen).Pairwise fun e e' => e'.1 < e.1 := by
  have hle : (descending chosen).Pairwise fun e e' => e'.1 ≤ e.1 := sortBy_descending Prod.fst _
  have hids : ((descending chosen).map Prod.fst).Perm (chosen.map fun b => b.1.id) := by
    have hmap := (sortBy_perm (fun a b : Int × Attestation => decide (b.1 ≤ a.1)) (chosen.map entryOf)).map Prod.fst
    rwa [List.map_map] at hmap
  have hne := List.pairwise_map.mp (hids.nodup_iff.mpr distinct)
  exact (hle.and hne).imp fun h => by omega

/-- Identified ballots are packed exactly if the chain of them is. -/
theorem packOracles_eq_error (identified : ∀ b ∈ chosen, b.2.oracleId = some b.1.id) (nonempty : chosen ≠ [])
    {e : PackError} :
    packOracles codec (chosen.map Prod.snd) = .error e ↔
      packChain (packOracle codec) (descending chosen) = .error e := by
  have hentries : (chosen.map Prod.snd).mapM Attestation.identified = .ok (chosen.map entryOf) :=
    mapM_eq_ok.mpr (forall₂_map_map fun b hb => Attestation.identified_eq_ok.mpr ⟨identified b hb, rfl⟩)
  have hsome : descending chosen ≠ [] := by
    obtain ⟨b, hb⟩ := List.exists_mem_of_ne_nil _ nonempty
    exact List.ne_nil_of_mem (mem_descending.mpr ⟨b, hb, rfl⟩)
  rw [packOracles, bind_of_eq_ok hentries, bind_eq_error]
  refine or_iff_left ?_
  rintro ⟨chain, hchain, h⟩
  obtain ⟨cell, rfl⟩ := Option.isSome_iff_exists.mp (isSome_of_foldlM (Or.inl hsome) hchain)
  cases h

variable (identified : ∀ b ∈ chosen, b.2.oracleId = some b.1.id) (distinct : (chosen.map fun b => b.1.id).Nodup)
  (nonempty : chosen ≠ [])
include identified distinct nonempty

/-- Ballots cannot be packed for want of a proof, or since the id of an oracle is what keeps them from it. -/
theorem packOracles_error {e : PackError} (h : packOracles codec (chosen.map Prod.snd) = .error e) :
    (∃ id cause, e = .unproved id cause) ∨ ∃ b ∈ chosen, Misfit codec chosen b := by
  obtain ⟨earlier, entry, later, next, hsplit, hfails, hpacked⟩ :=
    exists_of_foldlM_error ((packOracles_eq_error identified nonempty).mp h)
  obtain ⟨b, hb, rfl⟩ := mem_descending.mp (hsplit ▸ List.mem_append_right _ List.mem_cons_self)
  have hpacks : ∀ b' ∈ chosen, b.1.id < b'.1.id → Packs codec (entryOf b') := by
    -- a ballot of a greater id stands in front of this one
    intro b' hb' hgreater
    have hsorted := hsplit ▸ descending_sorted distinct
    have hmem : entryOf b' ∈ earlier ++ entryOf b :: later := hsplit ▸ mem_descending.mpr ⟨b', hb', rfl⟩
    rcases List.mem_append.mp hmem with hearlier | hbehind
    · obtain ⟨_, _, hcell⟩ := hpacked _ hearlier
      exact packs_of_packOracle hcell
    · rcases List.mem_cons.mp hbehind with hsame | hlater
      · have hid : b'.1.id = b.1.id := congrArg Prod.fst hsame
        omega
      · have hsmaller : b'.1.id < b.1.id :=
          (List.pairwise_cons.mp (List.pairwise_append.mp hsorted).2.1).1 _ hlater
        omega
  rcases packOracle_error hfails with ⟨-, cause, rfl⟩ | ⟨-, hwide, hproved⟩
  · by_cases hwritable : Text.isWritable b.1.id = true
    · exact Or.inl ⟨_, cause, Attestation.unproved_of_writable (identified b hb) hwritable cause⟩
    · exact Or.inr ⟨b, hb, fun hfits => hwritable (Deployment.isWritable_of_fits hfits), Or.inr hwritable, hpacks⟩
  · exact Or.inr ⟨b, hb, hwide, Or.inl hproved, hpacks⟩

theorem packOracles_of_misfit {b : Ballot} (hb : b ∈ chosen) (misfit : Misfit codec chosen b) :
    ∃ e, (e = .cell (.outOfRange b.1.id 32) ∨ e = .unreportable) ∧
      packOracles codec (chosen.map Prod.snd) = .error e := by
  obtain ⟨earlier, later, hsplit⟩ := List.append_of_mem (mem_descending.mpr ⟨b, hb, rfl⟩)
  have hsorted := hsplit ▸ descending_sorted distinct
  obtain ⟨e, he, hfails⟩ := packOracle_of_wide (entryOf b) (identified b hb) misfit.wide misfit.proved
  refine ⟨e, he, ?_⟩
  rw [packOracles_eq_error identified nonempty, packChain, hsplit]
  refine foldlM_of_error (fun entry hentry => ?_) hfails none
  obtain ⟨b', hb', rfl⟩ := mem_descending.mp (hsplit ▸ List.mem_append_left _ hentry)
  have hgreater : b.1.id < b'.1.id := (List.pairwise_append.mp hsorted).2.2 _ hentry _ List.mem_cons_self
  exact exists_packOracle (misfit.packed b' hb' hgreater)

end Ballots

/-! ### Conclusions -/

section Conclusions
variable {d : Deployment} {codec : Codec} {transport : Transport} {endpoints : List Endpoint} {now : Instant}
  {results : List RaceResult}

/-- What keeps the results of a deployment's races from a documented conclusion. -/
inductive Escapes (d : Deployment) (codec : Codec) (transport : Transport) (endpoints : List Endpoint)
    (now : Instant) : Prop
  /-- The name of an asset cannot be encoded. -/
  | assetName (unencodable : ¬d.Encodable)
  | unreported {oracle : OracleSpec} (configured : oracle ∈ d.feed.oracles)
    (unreported : Race.Unreported codec transport endpoints oracle)
  /-- A delivered attestation cannot be compared with the time. -/
  | clock {oracle : OracleSpec} {a : Attestation} (configured : oracle ∈ d.feed.oracles)
    (delivers : Race.Delivers codec transport endpoints oracle a) (incomparable : a.Incomparable now)
  /-- Enough attestations are usable, but the id of an oracle keeps them from being packed. -/
  | misfit {b : Ballot} (enough : d.feed.minimalOracles ≤ (ballots d codec transport endpoints now).length)
    (chosen : b ∈ elected d codec transport endpoints now)
    (misfit : Misfit codec (elected d codec transport endpoints now) b)

/-- Elected ballots are reduced, or one of them is not proved, or the id of an oracle keeps them from being packed. -/
theorem reduce_elected_undocumented_iff (valid : d.validate = .ok ())
    (enough : d.feed.minimalOracles ≤ (ballots d codec transport endpoints now).length) :
    (∃ e, reduce codec d.assetIds.keys ((elected d codec transport endpoints now).map Prod.snd) = .error e ∧
        ¬e.Documented) ↔
      ∃ b ∈ elected d codec transport endpoints now, Misfit codec (elected d codec transport endpoints now) b := by
  obtain ⟨hassets, hpos, -, hids⟩ := Deployment.validate_inv valid
  have hne := elected_ne_nil (length_elected enough hpos) hpos
  have hidentified : ∀ b ∈ elected d codec transport endpoints now, b.2.oracleId = some b.1.id := fun b =>
    oracleId_of_elected
  have herror : ∀ e, reduce codec d.assetIds.keys ((elected d codec transport endpoints now).map Prod.snd) = .error e ↔
      ∃ cause, packOracles codec ((elected d codec transport endpoints now).map Prod.snd) = .error cause ∧
        e = .packing cause := fun e =>
    reduce_eq_error (Deployment.keys_assetIds_ne_nil hassets) (fun _ => Deployment.exists_number_of_key)
      (mt List.map_eq_nil_iff.mp hne) fun _ => prices_of_elected
  constructor
  · rintro ⟨e, he, hundocumented⟩
    obtain ⟨cause, hcause, rfl⟩ := (herror e).mp he
    rcases packOracles_error hidentified (elected_ids_nodup hids) hne hcause with ⟨id, cause, rfl⟩ | hmisfit
    · exact absurd trivial hundocumented
    · exact hmisfit
  · rintro ⟨b, hb, hmisfit⟩
    obtain ⟨e, he, hfails⟩ := packOracles_of_misfit hidentified (elected_ids_nodup hids) hne hb hmisfit
    refine ⟨_, (herror _).mpr ⟨_, hfails, rfl⟩, ?_⟩
    rcases he with rfl | rfl <;> exact id

/-- Where the results of the races are sifted, only the id of an oracle can keep the conclusion from being documented. -/
theorem escapes_iff_of_sift (encodable : d.Encodable)
    (hresults : (d.feed.oracles.map fun oracle => (Race.run codec transport endpoints oracle).result) =
      results.map some) {s : Sifted} (hsift : sift d.assetIds.keys now d.feed.ttl results = .ok s) :
    Escapes d codec transport endpoints now ↔
      d.feed.minimalOracles ≤ (ballots d codec transport endpoints now).length ∧
        ∃ b ∈ elected d codec transport endpoints now, Misfit codec (elected d codec transport endpoints now) b := by
  obtain ⟨hreported, hverified⟩ := exists_sift_iff.mp ⟨s, hsift⟩
  constructor
  · rintro (hunencodable | ⟨horacle, h⟩ | ⟨horacle, hdelivers, hincomparable⟩ | ⟨henough, hb, hmisfit⟩)
    · exact absurd encodable hunencodable
    · have hmem := (mem_iff_of_map_eq hresults).mpr ⟨_, horacle, Race.unreported_iff.mp h⟩
      exact absurd rfl (hreported _ hmem).2
    · obtain ⟨e, he⟩ := Attestation.exists_verify_error_iff.mpr hincomparable
      obtain ⟨rejection, hverify⟩ := hverified _ ((mem_iff_of_map_eq hresults).mpr ⟨_, horacle, hdelivers⟩)
      cases hverify.symm.trans he
    · exact ⟨henough, _, hb, hmisfit⟩
  · rintro ⟨henough, b, hb, hmisfit⟩
    exact .misfit henough hb hmisfit

/-- A deployment in order concludes from the results of its races with prices or with a documented failure, unless
    something escapes. -/
theorem conclude_undocumented_iff (valid : d.validate = .ok ())
    (hresults : (d.feed.oracles.map fun oracle => (Race.run codec transport endpoints oracle).result) =
      results.map some) (ordinary : ∀ result ∈ results, result ≠ .cancelled) :
    (∃ e, conclude d codec now results = .error e ∧ ¬e.Documented) ↔ Escapes d codec transport endpoints now := by
  obtain ⟨-, hpos, -, -⟩ := Deployment.validate_inv valid
  by_cases encodable : d.Encodable
  swap
  · exact iff_of_true ⟨_, conclude_of_not_encodable encodable, id⟩ (.assetName encodable)
  cases hsift : sift d.assetIds.keys now d.feed.ttl results with
  | error e =>
    have hconclude : conclude d codec now results = .error e := by
      rw [conclude_of_encodable encodable, bind_of_eq_error hsift]
    rcases sift_error hsift with ⟨-, hcancelled⟩ | ⟨rfl, hunreported⟩ | ⟨a, cause, hwon, hverify, rfl⟩
    · exact absurd rfl (ordinary _ hcancelled)
    · obtain ⟨oracle, horacle, h⟩ := (mem_iff_of_map_eq hresults).mp hunreported
      exact iff_of_true ⟨_, hconclude, id⟩ (.unreported horacle (Race.unreported_iff.mpr h))
    · obtain ⟨oracle, horacle, hdelivers⟩ := (mem_iff_of_map_eq hresults).mp hwon
      exact iff_of_true ⟨_, hconclude, id⟩
        (.clock horacle hdelivers (Attestation.exists_verify_error_iff.mp ⟨cause, hverify⟩))
  | ok s =>
    rw [escapes_iff_of_sift encodable hresults hsift]
    by_cases henough : d.feed.minimalOracles ≤ (ballots d codec transport endpoints now).length
    · rw [conclude_eq_reduce encodable hpos hresults hsift henough, and_iff_right henough]
      exact reduce_elected_undocumented_iff valid henough
    · have haccepted : s.accepted.length = (ballots d codec transport endpoints now).length := by
        rw [sift_accepted hsift, accepted_eq_ballots hresults, List.length_map]
      rw [conclude_of_sift encodable hsift, if_pos (by omega)]
      refine iff_of_false ?_ fun h => henough h.1
      rintro ⟨_, ⟨⟩, hundocumented⟩
      exact hundocumented trivial

end Conclusions

/-! ### Calls -/

section Calls
variable {d : Deployment} {codec : Codec} {transport : Transport} {now : Instant} {call : AggregationCall}

/-- A call concludes: it waits for its races, it is not cancelled before all of its fetches have started, and every race
    has a result. -/
structure Concludes (d : Deployment) (codec : Codec) (transport : Transport) (call : AggregationCall) : Prop where
  waits : call.Waits
  kept : ¬call.CancelledBy (fetchCount d call)
  decided : ∀ oracle ∈ oraclesOf d call, ∃ result,
    (Race.run codec transport (endpointsOf d call) oracle).result = some result

/-- The timeout of a call that is not cancelled at once cannot be reached by any clock, or it has passed and has too many
    digits to be written. -/
inductive Untimely (call : AggregationCall) : Prop
  | unreachable {timeout : Duration} (kept : ¬call.CancelledBy 0) (timed : call.timeout = some timeout)
    (beyond : timeout.deadline = .unreachable)
  | unwritten {timeout : Duration} (kept : ¬call.CancelledBy 0) (timed : call.timeout = some timeout)
    (ended : timeout.deadline = .passed) (wide : ¬timeout.isWritable = true)

theorem undocumented_of_untimely (h : Untimely call) :
    ∃ e, (run d codec transport now call).outcome = some (.error e) ∧ ¬e.Documented := by
  cases h with
  | unreachable kept timed beyond =>
    rw [run_of_unreachable kept timed beyond]
    exact ⟨_, rfl, id⟩
  | unwritten kept timed ended wide =>
    rw [run_of_passed kept timed ended, timeoutError, if_neg wide]
    exact ⟨_, rfl, id⟩

theorem not_untimely_of_concludes (h : Concludes d codec transport call) : ¬Untimely call := by
  rintro (⟨-, timed, beyond⟩ | ⟨-, timed, ended, -⟩)
  · cases (h.waits _ timed).symm.trans beyond
  · cases (h.waits _ timed).symm.trans ended

/-- What a call ends with that does not conclude: a documented failure, unless its timeout is untimely. Without a timeout,
    it may not end at all. -/
theorem outcome_of_not_concludes (now : Instant) (h : ¬Concludes d codec transport call) :
    (∃ e, (run d codec transport now call).outcome = some (.error e) ∧ e.Documented) ∨ Untimely call ∨
    ((run d codec transport now call).outcome = none ∧ call.timeout = none ∧
      ∃ oracle ∈ oraclesOf d call, (Race.run codec transport (endpointsOf d call) oracle).result = none) := by
  have hcourse := course_run d codec transport now call
  generalize run d codec transport now call = a at hcourse ⊢
  cases hcourse with
  | cancelled => exact Or.inl ⟨_, rfl, trivial⟩
  | @passed kept timeout timed ended =>
    by_cases hwritable : timeout.isWritable = true
    · exact Or.inl ⟨.transport (.timedOut timeout), by rw [timeoutError, if_pos hwritable]; rfl, trivial⟩
    · exact Or.inr (Or.inl (.unwritten kept timed ended hwritable))
  | unreachable kept timed beyond => exact Or.inr (Or.inl (.unreachable kept timed beyond))
  | immediate => exact Or.inl ⟨_, rfl, trivial⟩
  | brokenOff => exact Or.inl ⟨_, rfl, trivial⟩
  | settled waits kept =>
    obtain ⟨oracle, horacle, hundecided⟩ : ∃ oracle ∈ oraclesOf d call,
        (Race.run codec transport (endpointsOf d call) oracle).result = none := by
      by_contra hall
      refine h ⟨waits, kept, fun oracle horacle => Option.ne_none_iff_exists'.mp fun hnone => ?_⟩
      exact hall ⟨oracle, horacle, hnone⟩
    cases hresults : ((oraclesOf d call).map (Race.run codec transport (endpointsOf d call))).mapM Race.result with
    | some results =>
      have hmem : none ∈ ((oraclesOf d call).map (Race.run codec transport (endpointsOf d call))).map Race.result :=
        List.mem_map.mpr ⟨_, List.mem_map_of_mem horacle, hundecided⟩
      rw [mapM_eq_some.mp hresults] at hmem
      obtain ⟨_, -, hsome⟩ := List.mem_map.mp hmem
      cases hsome
    | none =>
      rw [settle, hresults]
      cases timed : call.timeout with
      | none => exact Or.inr (Or.inr ⟨rfl, rfl, oracle, horacle, hundecided⟩)
      | some timeout => exact Or.inl ⟨_, rfl, trivial⟩

theorem not_undocumented {a : Aggregation} {e : AggregationError} (h : a.outcome = some (.error e))
    (documented : e.Documented) : ¬∃ e', a.outcome = some (.error e') ∧ ¬e'.Documented := by
  rintro ⟨e', he', hundocumented⟩
  cases h.symm.trans he'
  exact hundocumented documented

/-- The call fails in a way that its callers are not told of: its timeout is untimely, or it concludes and something
    escapes. -/
def Breaks (d : Deployment) (codec : Codec) (transport : Transport) (now : Instant) (call : AggregationCall) : Prop :=
  Untimely call ∨ (Concludes d codec transport call ∧ Escapes d codec transport (endpointsOf d call) now)

/-- An aggregation over the configured oracles of a deployment in order, where no fetch is cancelled from outside, ends
    unless it has no timeout and waits for a fetch that hangs, and it fails as documented unless its timeout is untimely
    or something escapes: the name of an asset, an oracle that cannot be reported, an attestation that cannot be compared
    with the time, or an oracle id that does not fit the payload. -/
theorem undocumented_failure_iff {d : Deployment} {codec : Codec} {transport : Transport} {now : Instant}
    (call : AggregationCall) (valid : d.validate = .ok ()) (configured : call.oracles = none)
    (ordinary : ∀ endpoint ∈ call.endpoints.getD d.feed.endpoints, ∀ oracle ∈ d.feed.oracles, ∀ delay,
      transport endpoint oracle.address ≠ .settles delay .cancelled) :
    ((run d codec transport now call).outcome = none → call.timeout = none ∧
      ∃ endpoint ∈ call.endpoints.getD d.feed.endpoints, ∃ oracle ∈ d.feed.oracles,
        transport endpoint oracle.address = .hangs) ∧
    ((∃ e, (run d codec transport now call).outcome = some (.error e) ∧ ¬e.Documented) ↔
      Breaks d codec transport now call) := by
  have horacles : oraclesOf d call = d.feed.oracles := by rw [oraclesOf, configured, Option.getD_none]
  have hordinary : ∀ oracle ∈ d.feed.oracles, ∀ endpoint ∈ endpointsOf d call, ∀ delay,
      transport endpoint oracle.address ≠ .settles delay .cancelled := fun oracle horacle endpoint hendpoint =>
    ordinary endpoint hendpoint oracle horacle
  by_cases hconcludes : Concludes d codec transport call
  · obtain ⟨results, hresults⟩ := exists_forall₂ hconcludes.decided
    have hmap := Forall₂.map_eq hresults
    have houtcome : (run d codec transport now call).outcome = some (conclude d codec now results) :=
      outcome_of_waits hconcludes.waits hconcludes.kept hmap
    rw [horacles] at hresults hmap
    have hresult : ∀ result ∈ results, result ≠ .cancelled := by
      rintro _ hmem rfl
      obtain ⟨oracle, horacle, hcancelled⟩ := Forall₂.exists_left hresults hmem
      exact Race.result_ne_cancelled (hordinary oracle horacle) hcancelled
    rw [houtcome, Breaks, and_iff_right hconcludes, or_iff_right (not_untimely_of_concludes hconcludes),
      ← conclude_undocumented_iff valid hmap hresult]
    exact ⟨fun h => (nomatch h), exists_congr fun e => and_congr_left fun _ => by rw [Option.some.injEq]⟩
  · rw [Breaks, or_iff_left fun h => hconcludes h.1]
    have huntimely : Untimely call → ∃ e, (run d codec transport now call).outcome = some (.error e) ∧ ¬e.Documented :=
      undocumented_of_untimely
    rcases outcome_of_not_concludes now hconcludes with
      ⟨e, houtcome, hdocumented⟩ | hbreaks | ⟨houtcome, untimed, oracle, horacle, hundecided⟩
    · have hnot := not_undocumented houtcome hdocumented
      exact ⟨fun h => (nomatch houtcome.symm.trans h), iff_of_false hnot fun h => hnot (huntimely h)⟩
    · obtain ⟨e, houtcome, hundocumented⟩ := huntimely hbreaks
      exact ⟨fun h => (nomatch houtcome.symm.trans h), iff_of_true ⟨e, houtcome, hundocumented⟩ hbreaks⟩
    · have hnot : ¬∃ e, (run d codec transport now call).outcome = some (.error e) ∧ ¬e.Documented :=
        fun ⟨_, h, _⟩ => nomatch houtcome.symm.trans h
      refine ⟨fun _ => ⟨untimed, ?_⟩, iff_of_false hnot fun h => hnot (huntimely h)⟩
      rw [horacles] at horacle
      obtain ⟨endpoint, hendpoint, hhangs⟩ := Race.exists_hangs_of_undecided hundecided
      exact ⟨endpoint, hendpoint, oracle, horacle, hhangs⟩

end Calls

/-! ### An id of 33 bits -/

/-- A deployment of TON with one oracle, whose id has 33 bits. -/
def wideDeployment : Deployment where
  feed := { oracles := [⟨4294967296, "a"⟩], minimalOracles := 1 }
  assets := [{ name := "TON" }]

theorem validate_wideDeployment : wideDeployment.validate = .ok () := by decide +kernel

theorem outcome_of_wideDeployment :
    (run wideDeployment Race.tonCodec (tonOracles (.refused "gone")) (.whole 110) {}).outcome =
      some (.error (.packing (.cell (.outOfRange 4294967296 32)))) := by decide +kernel

theorem undocumented_failure_iff_wide :
    wideDeployment.validate = .ok () ∧
      (∀ endpoint ∈ wideDeployment.feed.endpoints, ∀ oracle ∈ wideDeployment.feed.oracles, ∀ delay,
        tonOracles (.refused "gone") endpoint oracle.address ≠ .settles delay .cancelled) ∧
      Breaks wideDeployment Race.tonCodec (tonOracles (.refused "gone")) (.whole 110) {} := by
  have ordinary : ∀ endpoint ∈ wideDeployment.feed.endpoints, ∀ oracle ∈ wideDeployment.feed.oracles, ∀ delay,
      tonOracles (.refused "gone") endpoint oracle.address ≠ .settles delay .cancelled := by
    intro endpoint _ oracle horacle delay
    obtain rfl := List.mem_singleton.mp horacle
    rintro ⟨⟩
  exact ⟨validate_wideDeployment, ordinary, (undocumented_failure_iff {} validate_wideDeployment rfl ordinary).2.mp
    ⟨_, outcome_of_wideDeployment, id⟩⟩

/-- The deployment is in order and its oracle answers, but what the aggregation fails with is none of the documented
    failures; nor is it if one answer is a time beyond all numbers and the clock reads fractions. -/
theorem undocumented_failures :
    wideDeployment.validate = .ok () ∧
      (∃ e, (run wideDeployment Race.tonCodec (tonOracles (.refused "gone")) (.whole 110) {}).outcome =
        some (.error e) ∧ ¬e.Documented) ∧
      tonDeployment.validate = .ok () ∧
      ∃ e, (run tonDeployment Race.tonCodec
        (tonOracles (.text (Race.publication "01" "cc" (.integer (Nat.pow 10 309)))))
        (.fractional (.ofInt 110)) {}).outcome = some (.error e) ∧ ¬e.Documented := by
  have hclock : (run tonDeployment Race.tonCodec
      (tonOracles (.text (Race.publication "01" "cc" (.integer (Nat.pow 10 309)))))
      (.fractional (.ofInt 110)) {}).outcome = some (.error (.clock .tooLarge)) := by decide +kernel
  exact ⟨validate_wideDeployment, ⟨_, outcome_of_wideDeployment, id⟩, validate_tonDeployment, _, hclock, id⟩

end Aggregation

end Solvency
