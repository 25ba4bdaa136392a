import Solvency.Proofs.Availability

/-! Shortfalls: when too few attestations are usable, and what is reported then. An oracle that is read from one endpoint
    runs its race alone, so that its answer decides the race whenever it comes: what an aggregation comes to depends on
    the answers only, and its report on the order in which the oracles are listed. There is no report if an asset has a
    name that cannot be encoded, or an oracle that fails an id that cannot be written. -/

namespace Solvency

/-- How the fetches of a transport end, without their delays. -/
abbrev Script := Endpoint → Text → FetchOutcome

/-- The transport that answers by a script, each fetch after its own delay. -/
def Script.after (script : Script) (delays : Endpoint → Text → Nat) : Transport := fun endpoint address =>
  .settles (delays endpoint address) (script endpoint address)

namespace FetchOutcome

/-- The failure of an oracle whose only fetch ends so; none if it brings an attestation or is cancelled. -/
def failure? (codec : Codec) (oracle : OracleSpec) : FetchOutcome → Option TransportError
  | .text raw =>
    match Attestation.read codec raw with
    | .ok _ => none
    | .error (.unreadable fault) => some (.unreadable oracle.id fault)
    | .error (.escaped escape) => some (.escaped oracle.id escape)
  | .refused message => some (.reported message)
  | .failed kind message => some (.failed oracle.id kind message)
  | .cancelled => none

/-- A fetch that ends so fails, and what is reported of that names the oracle. -/
inductive FailsByName (codec : Codec) : FetchOutcome → Prop
  | unread {raw : Text} {e : AttestationError} (unread : Attestation.read codec raw = .error e) :
    FailsByName codec (.text raw)
  | failed (kind message : Text) : FailsByName codec (.failed kind message)

/-- An oracle whose only fetch ends so cannot be reported: its id has too many digits. -/
def Unreportable (codec : Codec) (oracle : OracleSpec) (outcome : FetchOutcome) : Prop :=
  ¬Text.isWritable oracle.id = true ∧ outcome.FailsByName codec

/-- A fetch that ends so brings an attestation that is recent and has a positive price for every one of some assets. -/
def Usable (codec : Codec) (assets : List Text) (now ttl : Int) (outcome : FetchOutcome) : Prop :=
  ∃ raw a, outcome = .text raw ∧ Attestation.read codec raw = .ok a ∧ now - a.timestamp ≤ ttl ∧ a.Prices assets

instance {codec : Codec} {assets : List Text} {now ttl : Int} : DecidablePred (Usable codec assets now ttl)
  | .text raw =>
    match h : Attestation.read codec raw with
    | .ok a => decidable_of_iff (now - a.timestamp ≤ ttl ∧ a.Prices assets) (by simp [Usable, h])
    | .error _ => isFalse (by simp [Usable, h])
  | .refused _ | .failed .. | .cancelled => isFalse (by simp [Usable])

/-- What an oracle contributes whose only fetch ends so. -/
def verdict (codec : Codec) (oracle : OracleSpec) (outcome : FetchOutcome) : RaceResult :=
  match outcome.judge codec oracle with
  | .ok result => result
  | .error e => .lost e

section
variable {codec : Codec} {outcome : FetchOutcome}

/-- A failure whose report names the oracle loses the oracle the race, whether or not the report can be written. -/
theorem exists_lose_of_fails (oracle : OracleSpec) (fails : outcome.FailsByName codec) :
    ∃ e, outcome.failure? codec oracle = some e ∧ outcome.verdict codec oracle = oracle.lose e := by
  have report : ∀ e, outcome.judge codec oracle = oracle.report e → outcome.verdict codec oracle = oracle.lose e := by
    intro e h
    rw [verdict, h]
    by_cases hwritable : Text.isWritable oracle.id = true
    · rw [OracleSpec.report_of_writable hwritable, OracleSpec.lose_of_writable hwritable]
    · rw [OracleSpec.report_of_wide hwritable, OracleSpec.lose_of_wide hwritable]
  cases fails with
  | @unread raw e hread =>
    cases e with
    | unreadable fault => exact ⟨_, by rw [failure?, hread], report _ (judge_of_unreadable hread)⟩
    | escaped escape => exact ⟨_, by rw [failure?, hread], by rw [verdict, judge_of_escaped hread]⟩
  | failed kind message => exact ⟨_, rfl, report _ rfl⟩

/-- An ordinary answer is a failure, which is reported or cannot be, or it brings an attestation. -/
theorem verdict_cases (codec : Codec) (oracle : OracleSpec) (ordinary : outcome ≠ .cancelled) :
    (∃ e, outcome.failure? codec oracle = some e ∧ (∀ raw a, outcome = .text raw → Attestation.read codec raw ≠ .ok a) ∧
        ((¬outcome.Unreportable codec oracle ∧ outcome.verdict codec oracle = .lost e) ∨
          (outcome.Unreportable codec oracle ∧ outcome.verdict codec oracle = .unreportable))) ∨
      ∃ raw a, outcome = .text raw ∧ Attestation.read codec raw = .ok a ∧ outcome.failure? codec oracle = none ∧
        ¬outcome.Unreportable codec oracle ∧ outcome.verdict codec oracle = .won { a with oracleId := some oracle.id } := by
  have named : outcome.FailsByName codec → ∃ e, outcome.failure? codec oracle = some e ∧
      ((¬outcome.Unreportable codec oracle ∧ outcome.verdict codec oracle = .lost e) ∨
        (outcome.Unreportable codec oracle ∧ outcome.verdict codec oracle = .unreportable)) := by
    intro fails
    obtain ⟨e, hfailure, hverdict⟩ := exists_lose_of_fails oracle fails
    refine ⟨e, hfailure, ?_⟩
    by_cases hwritable : Text.isWritable oracle.id = true
    · exact Or.inl ⟨fun h => h.1 hwritable, hverdict.trans (OracleSpec.lose_of_writable hwritable)⟩
    · exact Or.inr ⟨⟨hwritable, fails⟩, hverdict.trans (OracleSpec.lose_of_wide hwritable)⟩
  cases outcome with
  | cancelled => exact absurd rfl ordinary
  | refused message => exact Or.inl ⟨_, rfl, fun _ _ h => (nomatch h), Or.inl ⟨fun h => (nomatch h.2), rfl⟩⟩
  | failed kind message =>
    obtain ⟨e, hfailure, hverdict⟩ := named (.failed kind message)
    exact Or.inl ⟨e, hfailure, fun _ _ h => (nomatch h), hverdict⟩
  | text raw =>
    cases hread : Attestation.read codec raw with
    | ok a =>
      refine Or.inr ⟨raw, a, rfl, hread, by rw [failure?, hread], ?_, by rw [verdict, judge_of_read hread]⟩
      rintro ⟨-, hunread⟩
      cases hunread with
      | unread hunread => cases hread.symm.trans hunread
    | error cause =>
      obtain ⟨e, hfailure, hverdict⟩ := named (.unread hread)
      refine Or.inl ⟨e, hfailure, ?_, hverdict⟩
      rintro _ a ⟨⟩ hok
      cases hok.symm.trans hread

theorem verdict_ne_cancelled (codec : Codec) (oracle : OracleSpec) (ordinary : outcome ≠ .cancelled) :
    outcome.verdict codec oracle ≠ .cancelled := by
  rcases verdict_cases codec oracle ordinary with ⟨e, -, -, ⟨-, h⟩ | ⟨-, h⟩⟩ | ⟨raw, a, -, -, -, -, h⟩ <;>
  · rw [h]
    exact fun h => nomatch h

theorem verdict_eq_unreportable (codec : Codec) (oracle : OracleSpec) (ordinary : outcome ≠ .cancelled) :
    outcome.verdict codec oracle = .unreportable ↔ outcome.Unreportable codec oracle := by
  rcases verdict_cases codec oracle ordinary with
    ⟨e, -, -, ⟨hreportable, h⟩ | ⟨hunreportable, h⟩⟩ | ⟨raw, a, -, -, -, hreportable, h⟩
  · rw [h]
    exact iff_of_false (fun h => nomatch h) hreportable
  · exact iff_of_true h hunreportable
  · rw [h]
    exact iff_of_false (fun h => nomatch h) hreportable

end

end FetchOutcome

/-- An oracle with one endpoint contributes what its answer is judged to be, whatever the delay of the answer. -/
theorem Race.result_of_script {codec : Codec} {script : Script} {delays : Endpoint → Text → Nat} {endpoint : Endpoint}
    {oracle : OracleSpec} : (Race.run codec (script.after delays) [endpoint] oracle).result =
      some ((script endpoint oracle.address).verdict codec oracle) := by
  have hanswer : (⟨oracle, endpoint, script.after delays endpoint oracle.address⟩ : Fetch).response =
      .settles (delays endpoint oracle.address) (script endpoint oracle.address) := rfl
  show (Race.runFrom codec oracle (oracle.lose (.noEndpoints oracle.id)) [⟨oracle, endpoint, _⟩]).result = _
  unfold FetchOutcome.verdict
  cases hjudge : (script endpoint oracle.address).judge codec oracle with
  | ok result => exact Race.runFrom_of_judge_ok hanswer hjudge
  | error e => exact (Race.runFrom_of_judge_error hanswer hjudge).trans rfl

namespace Aggregation

/-- The failure of the last oracle in a list that fails; none if no oracle in it does. -/
inductive LastFailure (failure? : OracleSpec → Option TransportError) :
    List OracleSpec → Option TransportError → Prop where
  | none {oracles : List OracleSpec} (sound : ∀ oracle ∈ oracles, failure? oracle = .none) :
    LastFailure failure? oracles .none
  | last (earlier : List OracleSpec) {oracle : OracleSpec} {later : List OracleSpec} {e : TransportError}
    (fails : failure? oracle = some e) (sound : ∀ oracle ∈ later, failure? oracle = .none) :
    LastFailure failure? (earlier ++ oracle :: later) (some e)

namespace LastFailure
variable {failure? : OracleSpec → Option TransportError} {oracles : List OracleSpec} {last : Option TransportError}
  {oracle : OracleSpec}

theorem cons_of_sound (h : LastFailure failure? oracles last) (sound : failure? oracle = .none) :
    LastFailure failure? (oracle :: oracles) last := by
  cases h with
  | none others => exact .none (List.forall_mem_cons.mpr ⟨sound, others⟩)
  | last earlier fails others => exact .last (oracle :: earlier) fails others

/-- An oracle that fails in front of the others is the last one to fail only if none of the others does. -/
theorem cons_of_fails (h : LastFailure failure? oracles last) {e : TransportError} (fails : failure? oracle = some e) :
    LastFailure failure? (oracle :: oracles) (last <|> some e) := by
  cases h with
  | none others => exact .last [] fails others
  | last earlier fails' others => exact .last (oracle :: earlier) fails' others

end LastFailure

theorem exists_lastFailure (failure? : OracleSpec → Option TransportError) (oracles : List OracleSpec) :
    ∃ last, LastFailure failure? oracles last := by
  induction oracles with
  | nil => exact ⟨none, .none fun _ hmem => nomatch hmem⟩
  | cons oracle oracles ih =>
    obtain ⟨last, h⟩ := ih
    cases hfails : failure? oracle with
    | none => exact ⟨last, h.cons_of_sound hfails⟩
    | some e => exact ⟨_, h.cons_of_fails hfails⟩

section Sifting
variable {codec : Codec} {assets : List Text} {now ttl : Int} {oracles : List OracleSpec}
  {outcome : OracleSpec → FetchOutcome}

/-- What the oracles contribute whose only fetches end so. -/
def verdicts (codec : Codec) (outcome : OracleSpec → FetchOutcome) (oracles : List OracleSpec) : List RaceResult :=
  oracles.map fun oracle => (outcome oracle).verdict codec oracle

theorem accept?_verdict (distinct : assets.Nodup) (oracle : OracleSpec) {outcome : FetchOutcome}
    (ordinary : outcome ≠ .cancelled) :
    (accept? assets (.whole now) ttl (outcome.verdict codec oracle)).isSome ↔ outcome.Usable codec assets now ttl := by
  rcases FetchOutcome.verdict_cases codec oracle ordinary with ⟨e, -, hunread, hloss⟩ | ⟨raw, a, rfl, hread, -, -, hwon⟩
  · have hnone : ∀ result, (¬outcome.Unreportable codec oracle ∧ result = .lost e) ∨
        (outcome.Unreportable codec oracle ∧ result = .unreportable) →
        accept? assets (.whole now) ttl result = none := by
      rintro _ (⟨-, rfl⟩ | ⟨-, rfl⟩) <;> rfl
    rw [hnone _ hloss]
    refine ⟨fun h => absurd h Bool.false_ne_true, ?_⟩
    rintro ⟨raw, a, hraw, hread, -⟩
    exact absurd hread (hunread raw a hraw)
  · have hsame : ({ a with oracleId := some oracle.id } : Attestation).verify assets (.whole now) ttl = .ok none ↔
        now - a.timestamp ≤ ttl ∧ a.Prices assets := Attestation.verify_whole_eq_none_iff distinct
    rw [hwon, Option.isSome_iff_exists]
    constructor
    · rintro ⟨b, hb⟩
      obtain ⟨hsource, hverify⟩ := accept?_eq_some.mp hb
      cases hsource
      exact ⟨raw, a, rfl, hread, hsame.mp hverify⟩
    · rintro ⟨raw', a', hraw, hread', husable⟩
      cases hraw
      cases hread.symm.trans hread'
      exact ⟨_, accept?_eq_some.mpr ⟨rfl, hsame.mpr husable⟩⟩

theorem length_accepted (distinct : assets.Nodup) (ordinary : ∀ oracle ∈ oracles, outcome oracle ≠ .cancelled) :
    ((verdicts codec outcome oracles).filterMap (accept? assets (.whole now) ttl)).length =
      oracles.countP fun oracle => (outcome oracle).Usable codec assets now ttl := by
  rw [verdicts, List.filterMap_map, List.length_filterMap_eq_countP]
  refine List.countP_congr fun oracle horacle => ?_
  rw [decide_eq_true_iff]
  exact accept?_verdict distinct oracle (ordinary oracle horacle)

theorem exists_sift_verdicts (codec : Codec) (assets : List Text) (now ttl : Int)
    (ordinary : ∀ oracle ∈ oracles, outcome oracle ≠ .cancelled)
    (reportable : ∀ oracle ∈ oracles, ¬(outcome oracle).Unreportable codec oracle) :
    ∃ s, sift assets (.whole now) ttl (verdicts codec outcome oracles) = .ok s := by
  refine exists_sift_iff.mpr ⟨fun result hresult => ?_, fun a _ => a.exists_verify_whole assets now ttl⟩
  obtain ⟨oracle, horacle, rfl⟩ := List.mem_map.mp hresult
  have hordinary := ordinary oracle horacle
  exact ⟨FetchOutcome.verdict_ne_cancelled codec oracle hordinary,
    mt (FetchOutcome.verdict_eq_unreportable codec oracle hordinary).mp (reportable oracle horacle)⟩

/-- An oracle that cannot be reported is the only thing that keeps the answers from being sifted. -/
theorem sift_of_unreportable (assets : List Text) (now ttl : Int)
    (ordinary : ∀ oracle ∈ oracles, outcome oracle ≠ .cancelled)
    (unreportable : ∃ oracle ∈ oracles, (outcome oracle).Unreportable codec oracle) :
    sift assets (.whole now) ttl (verdicts codec outcome oracles) = .error .unreportable := by
  obtain ⟨oracle, horacle, hunreportable⟩ := unreportable
  cases hsift : sift assets (.whole now) ttl (verdicts codec outcome oracles) with
  | ok s =>
    have hverdict := (FetchOutcome.verdict_eq_unreportable codec oracle (ordinary oracle horacle)).mpr hunreportable
    exact absurd hverdict ((exists_sift_iff.mp ⟨s, hsift⟩).1 _ (List.mem_map_of_mem horacle)).2
  | error e =>
    rcases sift_error hsift with ⟨-, hcancelled⟩ | ⟨rfl, -⟩ | ⟨a, cause, -, hverify, -⟩
    · obtain ⟨oracle', horacle', hverdict⟩ := List.mem_map.mp hcancelled
      exact absurd hverdict (FetchOutcome.verdict_ne_cancelled codec oracle' (ordinary oracle' horacle'))
    · rfl
    · obtain ⟨rejection, hrejection⟩ := a.exists_verify_whole assets now ttl
      cases hrejection.symm.trans hverify

theorem lastFailure_of_sift {s : Sifted} (ordinary : ∀ oracle ∈ oracles, outcome oracle ≠ .cancelled)
    (h : sift assets (.whole now) ttl (verdicts codec outcome oracles) = .ok s) :
    LastFailure (fun oracle => (outcome oracle).failure? codec oracle) oracles s.lastError := by
  induction oracles generalizing s with
  | nil =>
    cases h
    exact .none fun _ hmem => nomatch hmem
  | cons oracle oracles ih =>
    obtain ⟨hhead, htail⟩ := List.forall_mem_cons.mp ordinary
    rw [verdicts, List.map_cons] at h
    rcases FetchOutcome.verdict_cases codec oracle hhead with
      ⟨e, hfails, -, ⟨-, hlost⟩ | ⟨-, hunreportable⟩⟩ | ⟨raw, a, -, -, hnone, -, hwon⟩
    · rw [hlost] at h
      obtain ⟨later, hlater, hs⟩ := bind_eq_ok.mp h
      cases hs
      -- the error of this oracle stays only if the later ones leave none
      exact (ih htail hlater).cons_of_fails hfails
    · rw [hunreportable] at h
      cases h
    · rw [hwon] at h
      obtain ⟨rejection, -, h⟩ := bind_eq_ok.mp h
      obtain ⟨later, hlater, hs⟩ := bind_eq_ok.mp h
      -- a rejected attestation is dropped, which is no failure
      have hsame : s.lastError = later.lastError := by
        cases rejection <;> cases hs <;> rfl
      exact hsame ▸ (ih htail hlater).cons_of_sound hnone

end Sifting

theorem reduce_error {codec : Codec} {assets : List Text} {chosen : List Attestation} {e : AggregationError}
    (h : reduce codec assets chosen = .error e) : (∃ cause, e = .median cause) ∨ ∃ cause, e = .packing cause := by
  rcases bind_eq_error.mp h with hrows | ⟨_, -, h⟩
  · obtain ⟨_, -, hrow⟩ := exists_of_mapM_error hrows
    rcases bind_eq_error.mp hrow with hmedian | ⟨_, -, hrow⟩
    · obtain ⟨cause, -, rfl⟩ := mapError_eq_error.mp hmedian
      exact Or.inl ⟨cause, rfl⟩
    · cases hrow
  · rcases bind_eq_error.mp h with hpayload | ⟨_, -, h⟩
    · obtain ⟨cause, -, rfl⟩ := mapError_eq_error.mp hpayload
      exact Or.inr ⟨cause, rfl⟩
    · cases h

/-- What is reported as too few are the accepted attestations, with the error that sifting has left. -/
theorem conclude_eq_outdated {d : Deployment} {codec : Codec} {now : Instant} {results : List RaceResult} {s : Sifted}
    (encodable : d.Encodable) (hsift : sift d.assetIds.keys now d.feed.ttl results = .ok s) {accepted : Nat} {required : Int}
    {lastError : Option TransportError} :
    conclude d codec now results = .error (.outdated accepted required lastError) ↔
      (s.accepted.length : Int) < d.feed.minimalOracles ∧ accepted = s.accepted.length ∧
        required = d.feed.minimalOracles ∧ lastError = s.lastError := by
  rw [conclude_of_sift encodable hsift]
  split
  · rename_i hfew
    constructor
    · intro h
      cases h
      exact ⟨hfew, rfl, rfl, rfl⟩
    · rintro ⟨-, rfl, rfl, rfl⟩
      rfl
  · rename_i henough
    refine ⟨fun h => ?_, fun h => absurd h.1 henough⟩
    rcases reduce_error h with ⟨cause, hcause⟩ | ⟨cause, hcause⟩
    · cases hcause
    · cases hcause

/-- Where each oracle is read from one endpoint, an aggregation concludes from the verdicts on the answers, whatever
    their delays. -/
theorem outcome_of_script {d : Deployment} {codec : Codec} {now : Instant} (call : AggregationCall) {script : Script}
    {endpoint : Endpoint} (single : call.endpoints.getD d.feed.endpoints = [endpoint])
    (untimed : call.timeout = none) (uncancelled : call.cancelAfter = none) (delays : Endpoint → Text → Nat) :
    (run d codec (script.after delays) now call).outcome = some (conclude d codec now
      (verdicts codec (fun oracle => script endpoint oracle.address) (call.oracles.getD d.feed.oracles))) := by
  refine outcome_of_call untimed uncancelled ?_
  rw [single]
  exact (List.map_congr_left fun oracle _ => Race.result_of_script).trans List.map_map.symm

/-- What oracles come to whose only fetches end so can be reported: every asset has a name that can be encoded, and no
    oracle fails under an id that cannot be written. -/
structure Reportable (d : Deployment) (codec : Codec) (outcome : OracleSpec → FetchOutcome) (oracles : List OracleSpec) :
    Prop where
  encodable : d.Encodable
  written : ∀ oracle ∈ oracles, ¬(outcome oracle).Unreportable codec oracle

section Reportable
variable {d : Deployment} {codec : Codec} {outcome : OracleSpec → FetchOutcome} {oracles : List OracleSpec} {now : Int}
  (ordinary : ∀ oracle ∈ oracles, outcome oracle ≠ .cancelled)
include ordinary

theorem conclude_of_unwritten (encodable : d.Encodable) (h : ¬Reportable d codec outcome oracles) :
    conclude d codec (.whole now) (verdicts codec outcome oracles) = .error .unreportable := by
  have unreportable : ∃ oracle ∈ oracles, (outcome oracle).Unreportable codec oracle := by
    by_contra hwritten
    exact h ⟨encodable, fun oracle horacle hunreportable => hwritten ⟨oracle, horacle, hunreportable⟩⟩
  rw [conclude_of_encodable encodable, sift_of_unreportable d.assetIds.keys now d.feed.ttl ordinary unreportable]
  rfl

/-- What cannot be reported is no shortfall for its caller. -/
theorem conclude_of_not_reportable (now : Int) (h : ¬Reportable d codec outcome oracles) :
    ∃ e, conclude d codec (.whole now) (verdicts codec outcome oracles) = .error e ∧
      ∀ accepted required lastError, e ≠ .outdated accepted required lastError := by
  by_cases encodable : d.Encodable
  · exact ⟨_, conclude_of_unwritten ordinary encodable h, fun _ _ _ he => nomatch he⟩
  · exact ⟨_, conclude_of_not_encodable encodable, fun _ _ _ he => nomatch he⟩

end Reportable

/-- Too few usable attestations are reported exactly if there are fewer than are required, with their number and the
    last failure. -/
def ReportsShortfall (outcome : Option (Except AggregationError AggregatedPrices)) (usable : Nat) (required : Int)
    (last : Option TransportError) : Prop :=
  ∀ accepted required' lastError, outcome = some (.error (.outdated accepted required' lastError)) ↔
    (usable : Int) < required ∧ accepted = usable ∧ required' = required ∧ lastError = last

/-- Where something else is reported, a shortfall is reported correctly only if there is none. -/
theorem reportsShortfall_of_other {e : AggregationError} {usable : Nat} {required : Int} {last : Option TransportError}
    (other : ∀ accepted required' lastError, e ≠ .outdated accepted required' lastError) :
    ReportsShortfall (some (.error e)) usable required last ↔ ¬(usable : Int) < required := by
  have hne : ∀ accepted required' lastError,
      (some (.error e) : Option (Except AggregationError AggregatedPrices)) ≠
        some (.error (.outdated accepted required' lastError)) := fun accepted required' lastError h =>
    other accepted required' lastError (Except.error.inj (Option.some.inj h))
  constructor
  · exact fun reports hfew => hne _ _ _ ((reports usable required last).mpr ⟨hfew, rfl, rfl, rfl⟩)
  · exact fun henough accepted required' lastError => iff_of_false (hne _ _ _) fun h => henough h.1

/-- Where each oracle is read from one endpoint by a clock of whole seconds, and no fetch hangs or is cancelled, the
    outcome is the same after any delays. That fewer oracles than are required have a usable answer is reported, with
    their number and the failure of the last oracle in the list that fails, exactly if the assets have names that can be
    encoded and no oracle fails under an id that cannot be written; otherwise the first of these that is not so is all
    that the outcome shows. -/
theorem outdated_iff_few_usable (d : Deployment) (codec : Codec) (now : Int) (call : AggregationCall) {script : Script}
    {endpoint : Endpoint} (single : call.endpoints.getD d.feed.endpoints = [endpoint])
    (untimed : call.timeout = none) (uncancelled : call.cancelAfter = none)
    (ordinary : ∀ oracle ∈ call.oracles.getD d.feed.oracles, script endpoint oracle.address ≠ .cancelled) :
    let oracles := call.oracles.getD d.feed.oracles
    let answer (oracle : OracleSpec) := script endpoint oracle.address
    let usable := oracles.countP fun oracle => (answer oracle).Usable codec d.assetIds.keys now d.feed.ttl
    let outcome delays := (run d codec (script.after delays) (.whole now) call).outcome
    (∀ delays delays', outcome delays = outcome delays') ∧
    (∃ last, LastFailure (fun oracle => (answer oracle).failure? codec oracle) oracles last ∧
      ∀ delays, ReportsShortfall (outcome delays) usable d.feed.minimalOracles last ↔
        ((usable : Int) < d.feed.minimalOracles → Reportable d codec answer oracles)) ∧
    ∀ delays, (¬d.Encodable → outcome delays = some (.error .assetName)) ∧
      (d.Encodable → ¬Reportable d codec answer oracles → outcome delays = some (.error .unreportable)) := by
  intro oracles answer usable outcome
  have houtcome : ∀ delays, outcome delays = some (conclude d codec (.whole now) (verdicts codec answer oracles)) :=
    outcome_of_script _ single untimed uncancelled
  refine ⟨fun delays delays' => (houtcome delays).trans (houtcome delays').symm, ?_, fun delays => ⟨fun h => ?_,
    fun encodable h => ?_⟩⟩
  · by_cases reportable : Reportable d codec answer oracles
    · obtain ⟨s, hsift⟩ := exists_sift_verdicts codec d.assetIds.keys now d.feed.ttl ordinary reportable.written
      have hcount : s.accepted.length = usable := by
        rw [sift_accepted hsift]
        exact length_accepted d.assetIds.distinct ordinary
      refine ⟨s.lastError, lastFailure_of_sift ordinary hsift, fun delays =>
        iff_of_true (fun accepted required lastError => ?_) fun _ => reportable⟩
      rw [houtcome delays, Option.some.injEq, conclude_eq_outdated reportable.encodable hsift, hcount]
    · obtain ⟨last, hlast⟩ := exists_lastFailure (fun oracle => (answer oracle).failure? codec oracle) oracles
      obtain ⟨e, he, hother⟩ := conclude_of_not_reportable ordinary now reportable
      refine ⟨last, hlast, fun delays => ?_⟩
      rw [houtcome delays, he, reportsShortfall_of_other hother]
      exact ⟨fun henough hfew => absurd hfew henough, fun h hfew => reportable (h hfew)⟩
  · rw [houtcome delays, conclude_of_not_encodable h]
  · rw [houtcome delays, conclude_of_unwritten ordinary encodable h]

/-- One oracle answers with an attestation, one is refused, and one answers what cannot be read. -/
def sparseScript : Script := fun _ address =>
  if address = "a" then .text (Race.publication "01" "aa" (.integer 100))
  else if address = "b" then .refused "gone"
  else .text "0xzz"

/-- The unreadable answer is reported, however early it came. -/
theorem outdated_iff_few_usable_sparse :
    let endpoint := Document.ofText defaultEndpoint
    tonDeployment.feed.endpoints = [endpoint] ∧
      (∀ oracle ∈ tonDeployment.feed.oracles, sparseScript endpoint oracle.address ≠ .cancelled) ∧
      LastFailure (fun oracle => (sparseScript endpoint oracle.address).failure? Race.tonCodec oracle)
        tonDeployment.feed.oracles (some (.unreadable 3 .unescaped)) ∧
      ∀ delays, (run tonDeployment Race.tonCodec (sparseScript.after delays) (.whole 110) {}).outcome =
        some (.error (.outdated 1 2 (some (.unreadable 3 .unescaped)))) := by
  intro endpoint
  have single : tonDeployment.feed.endpoints = [endpoint] := rfl
  have ordinary : ∀ oracle ∈ tonDeployment.feed.oracles, sparseScript endpoint oracle.address ≠ .cancelled := by
    decide +kernel
  have encodable : tonDeployment.Encodable := by decide +kernel
  have writable : ∀ oracle ∈ tonDeployment.feed.oracles, Text.isWritable oracle.id = true := by decide +kernel
  obtain ⟨hsame, ⟨last, hlast, hreports⟩, -⟩ := outdated_iff_few_usable tonDeployment Race.tonCodec 110 {} single rfl rfl
    ordinary
  have hreported := fun delays => (hreports delays).mpr fun _ =>
    ⟨encodable, fun oracle horacle h => h.1 (writable oracle horacle)⟩
  have hone : (run tonDeployment Race.tonCodec (sparseScript.after fun _ _ => 0) (.whole 110) {}).outcome =
      some (.error (.outdated 1 2 (some (.unreadable 3 .unescaped)))) := by decide +kernel
  obtain ⟨-, -, -, rfl⟩ := (hreported _ _ _ _).mp hone
  exact ⟨single, ordinary, hlast, fun delays => (hsame delays _).trans hone⟩

/-- A deployment of one asset, whose name is a surrogate. -/
def surrogateDeployment : Deployment where
  feed := { oracles := [⟨1, "a"⟩, ⟨2, "b"⟩], minimalOracles := 2 }
  assets := [{ name := [.surrogate 0] }]

/-- The deployment is in order and none of its oracles answers, but this is not reported. -/
theorem shortfall_not_reported :
    let refusal : Script := fun _ _ => .refused "gone"
    surrogateDeployment.validate = .ok () ∧ surrogateDeployment.feed.endpoints = [.ofText defaultEndpoint] ∧
      (surrogateDeployment.feed.oracles.countP fun oracle => (refusal (.ofText defaultEndpoint) oracle.address).Usable
        Race.tonCodec surrogateDeployment.assetIds.keys 110 surrogateDeployment.feed.ttl) = 0 ∧
      ¬ReportsShortfall (run surrogateDeployment Race.tonCodec (refusal.after fun _ _ => 0) (.whole 110) {}).outcome 0
        surrogateDeployment.feed.minimalOracles (some (.reported "gone")) := by
  intro refusal
  refine ⟨by decide +kernel, rfl, by decide +kernel, fun reports => ?_⟩
  have hname : (run surrogateDeployment Race.tonCodec (refusal.after fun _ _ => 0) (.whole 110) {}).outcome =
      some (.error .assetName) := by decide +kernel
  cases hname.symm.trans ((reports 0 2 (some (.reported "gone"))).mpr ⟨by decide, rfl, rfl, rfl⟩)

end Aggregation

end Solvency
