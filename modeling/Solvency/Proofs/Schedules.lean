import Solvency.Proofs.Tasks

/-! Schedules: what an aggregation comes to is what one schedule of its tasks comes to, with the same fetches started
    and the same ones cancelled. Every runner follows its race: it looks at the fetches in the order in which they
    settle, and it cancels what has not settled by then. -/

namespace Solvency

open Aggregation

namespace Runner

section
variable {codec : Codec} {transport : Transport} {endpoints : List Endpoint} {givenUp : Bool} {oracle : OracleSpec}

abbrev Steps (codec : Codec) (transport : Transport) (endpoints : List Endpoint) (givenUp : Bool) :
    Runner → Runner → Prop := Relation.ReflTransGen (Step codec transport endpoints givenUp)

/-- What one task can do, any number of tasks do one after another. -/
theorem steps_each {phase : RunnerPhase} {place place' : TaskPhase}
    (moves : ∀ fetch others, Step codec transport endpoints givenUp ⟨oracle, phase, ⟨fetch, place⟩ ::ₘ others⟩
      ⟨oracle, phase, ⟨fetch, place'⟩ ::ₘ others⟩) (fetches : List Fetch) (others : Multiset Task) :
    Steps codec transport endpoints givenUp ⟨oracle, phase, Task.all place fetches + others⟩
      ⟨oracle, phase, Task.all place' fetches + others⟩ := by
  induction fetches generalizing others with
  | nil => exact .refl
  | cons fetch fetches ih =>
    rw [Task.all_cons, Task.all_cons, Multiset.cons_add, Multiset.cons_add]
    refine .head (moves fetch _) ?_
    rw [← Multiset.add_cons, ← Multiset.add_cons]
    exact ih _

/-- A runner with a result cancels what still runs and closes. -/
theorem steps_clean (result : RaceResult) (fetches : List Fetch) {others : Multiset Task}
    (ended : ∀ task ∈ others, task.Ended) :
    Steps codec transport endpoints givenUp ⟨oracle, .closing result, Task.all .running fetches + others⟩
      ⟨oracle, .closed result, Task.all .cancelled fetches + others⟩ := by
  refine (steps_each (fun _ _ => .cancel) fetches others).tail (.close fun task htask => ?_)
  rcases Multiset.mem_add.mp htask with hcancelled | hother
  · have hphase := Task.phase_of_mem_all hcancelled
    exact ⟨fun h => (nomatch hphase.symm.trans h), fun h => nomatch hphase.symm.trans h⟩
  · exact ended task hother

theorem steps_look {fetch : Fetch} {others : Multiset Task} {delay : Nat} {outcome : FetchOutcome}
    (last : RaceResult) (ends : fetch.response = .settles delay outcome)
    (launched : ∀ task ∈ others, task.phase ≠ .created) :
    Steps codec transport endpoints givenUp ⟨oracle, .racing last, ⟨fetch, .running⟩ ::ₘ others⟩
      ⟨oracle, judged (outcome.judge codec oracle), ⟨fetch, .seen⟩ ::ₘ others⟩ :=
  .tail (.single (.settle ⟨delay, outcome, ends⟩)) (.look ends launched)

theorem steps_start (going : givenUp = false) :
    Steps codec transport endpoints givenUp ⟨oracle, .waiting, 0⟩
      ⟨oracle, .racing (oracle.lose (.noEndpoints oracle.id)), Task.all .running (Race.fetches transport endpoints oracle)⟩ := by
  refine .head (.start going) ?_
  rw [← add_zero (Task.all .created _), ← add_zero (Task.all .running _)]
  exact steps_each (fun _ _ => .launch) _ 0

/-- Where a race leaves its runner: closed if it has a result, with what did not settle cancelled, and otherwise still
    racing. Other tasks, which have been looked at before, stay as they are. -/
inductive LeftBy (oracle : OracleSpec) (others : Multiset Task) : Race → Runner → Prop where
  | decided {result : RaceResult} {settled unsettled : List Fetch} :
    LeftBy oracle others ⟨some result, settled, unsettled⟩
      ⟨oracle, .closed result, Task.all .cancelled unsettled + (Task.all .seen settled + others)⟩
  | undecided (last : RaceResult) {settled unsettled : List Fetch} :
    LeftBy oracle others ⟨none, settled, unsettled⟩
      ⟨oracle, .racing last, Task.all .running unsettled + (Task.all .seen settled + others)⟩

theorem LeftBy.look {others : Multiset Task} {fetch : Fetch} {race : Race} {r : Runner}
    (h : LeftBy oracle (⟨fetch, .seen⟩ ::ₘ others) race r) :
    LeftBy oracle others { race with settled := fetch :: race.settled } r := by
  have hseen : ∀ settled, Task.all .seen settled + ⟨fetch, .seen⟩ ::ₘ others =
      Task.all .seen (fetch :: settled) + others := fun settled => by
    rw [Task.all_cons, Multiset.cons_add, Multiset.add_cons]
  cases h with
  | decided => rw [hseen]; exact .decided
  | undecided last => rw [hseen]; exact .undecided last

/-- A runner whose fetches settle in an order goes the way of its race. The others are those that it has looked at. -/
theorem steps_runFrom (codec : Codec) (transport : Transport) (endpoints : List Endpoint) (givenUp : Bool)
    (oracle : OracleSpec) (order : List Fetch) (last : RaceResult) {others : Multiset Task}
    (seen : ∀ task ∈ others, task.phase = .seen) :
    ∃ r, LeftBy oracle others (Race.runFrom codec oracle last order) r ∧
      Steps codec transport endpoints givenUp ⟨oracle, .racing last, Task.all .running order + others⟩ r := by
  induction order generalizing last others with
  | nil =>
    refine ⟨_, .decided, ?_⟩
    rw [Task.all_nil, Task.all_nil, Task.all_nil, zero_add, zero_add]
    exact .tail (.single (.exhaust seen)) (.close fun task htask => Task.ended_of_seen (seen task htask))
  | cons fetch order ih =>
    have hlook : ∀ task ∈ ⟨fetch, .seen⟩ ::ₘ others, task.phase = .seen := Multiset.forall_mem_cons.mpr ⟨rfl, seen⟩
    have hlaunched : ∀ task ∈ Task.all .running order + others, task.phase ≠ .created := fun task htask hcreated => by
      rcases Multiset.mem_add.mp htask with hrunning | hother
      · cases (Task.phase_of_mem_all hrunning).symm.trans hcreated
      · cases (seen task hother).symm.trans hcreated
    cases hf : fetch.response with
    | hangs =>
      rw [Race.runFrom_cons_of_hangs hf]
      refine ⟨_, .undecided last, ?_⟩
      rw [Task.all_nil, zero_add]
    | settles delay outcome =>
      rw [Task.all_cons, Multiset.cons_add]
      have hsteps : Steps codec transport endpoints givenUp
          ⟨oracle, .racing last, ⟨fetch, .running⟩ ::ₘ (Task.all .running order + others)⟩
          ⟨oracle, judged (outcome.judge codec oracle), Task.all .running order + ⟨fetch, .seen⟩ ::ₘ others⟩ := by
        rw [Multiset.add_cons]
        exact steps_look last hf hlaunched
      cases hj : outcome.judge codec oracle with
      | ok result =>
        rw [hj] at hsteps
        rw [Race.runFrom_cons_of_ok hf hj]
        refine ⟨_, .decided, hsteps.trans ?_⟩
        rw [Task.all_cons, Task.all_nil, Multiset.cons_add, zero_add]
        exact steps_clean result order fun task htask => Task.ended_of_seen (hlook task htask)
      | error e =>
        -- the fetch joins those that have been looked at, and the race goes on with the others
        rw [hj] at hsteps
        rw [Race.runFrom_cons_of_error hf hj]
        obtain ⟨r, hleft, hrest⟩ := ih (.lost e) hlook
        exact ⟨r, hleft.look, hsteps.trans hrest⟩

theorem steps_run (codec : Codec) (transport : Transport) (endpoints : List Endpoint) (oracle : OracleSpec) :
    ∃ r, LeftBy oracle 0 (Race.run codec transport endpoints oracle) r ∧
      Steps codec transport endpoints false ⟨oracle, .waiting, 0⟩ r := by
  have hnone : ∀ task ∈ (0 : Multiset Task), task.phase = .seen := fun _ h => absurd h (Multiset.notMem_zero _)
  obtain ⟨r, hleft, hsteps⟩ := steps_runFrom codec transport endpoints false oracle
    (Race.settlementOrder transport endpoints oracle) (oracle.lose (.noEndpoints oracle.id)) hnone
  have horder : Task.all .running (Race.settlementOrder transport endpoints oracle) =
      Task.all .running (Race.fetches transport endpoints oracle) :=
    Multiset.coe_eq_coe.mpr ((sortBy_perm _ _).map _)
  rw [add_zero, horder] at hsteps
  exact ⟨r, hleft, (steps_start rfl).trans hsteps⟩

/-- The race that is broken off is where a runner stands that has only started its fetches. -/
theorem steps_brokenOff (codec : Codec) (transport : Transport) (endpoints : List Endpoint) (oracle : OracleSpec) :
    ∃ r, LeftBy oracle 0 (Race.brokenOff transport endpoints oracle) r ∧
      Steps codec transport endpoints false ⟨oracle, .waiting, 0⟩ r := by
  refine ⟨_, .undecided (oracle.lose (.noEndpoints oracle.id)), ?_⟩
  rw [Task.all_nil, add_zero, add_zero]
  exact steps_start rfl

theorem steps_interrupt (last : RaceResult) (fetches : List Fetch) {others : Multiset Task}
    (ended : ∀ task ∈ others, task.Ended) :
    Steps codec transport endpoints true ⟨oracle, .racing last, Task.all .running fetches + others⟩
      ⟨oracle, .closed .cancelled, Task.all .cancelled fetches + others⟩ :=
  .head (.interrupt rfl (Or.inl ⟨last, rfl⟩)) (steps_clean .cancelled fetches ended)

/-- A runner is closed with the fetches of a race: all of them were started, and those that have not settled have been
    cancelled. -/
structure Matches (race : Race) (r : Runner) : Prop where
  closed : ∃ result, r.phase = .closed result
  started : r.started = race.settled ++ race.unsettled
  settled : r.settled = race.settled
  cancelled : r.cancelled = race.unsettled

theorem matches_of_tasks (result : RaceResult) (race : Race) :
    Matches race ⟨oracle, .closed result, Task.all .cancelled race.unsettled + (Task.all .seen race.settled + 0)⟩ where
  closed := ⟨result, rfl⟩
  started := by
    have hcancelled : ∀ fetch, (Task.mk fetch .cancelled).Started := fun fetch => by simp [Task.Started]
    have hseen : ∀ fetch, (Task.mk fetch .seen).Started := fun fetch => by simp [Task.Started]
    rw [started, add_zero, Multiset.filter_add, Task.filter_all hcancelled, Task.filter_all hseen, Multiset.map_add,
      Task.map_fetch_all, Task.map_fetch_all, add_comm, Multiset.coe_add]
  settled := by
    have hcancelled : ∀ fetch, ¬(Task.mk fetch .cancelled).Settled := fun fetch => by simp [Task.Settled]
    have hseen : ∀ fetch, (Task.mk fetch .seen).Settled := fun _ => Or.inr rfl
    rw [settled, add_zero, Multiset.filter_add, Task.filter_all_none hcancelled, Task.filter_all hseen, zero_add,
      Task.map_fetch_all]
  cancelled := by
    have hseen : ∀ fetch, (Task.mk fetch .seen).phase ≠ .cancelled := fun fetch => by simp
    rw [cancelled, add_zero, Multiset.filter_add, Task.filter_all fun _ => rfl, Task.filter_all_none hseen, add_zero,
      Task.map_fetch_all]

/-- A runner that has gone the way of its race closes when its call is given up. -/
theorem LeftBy.giveUp {race : Race} {r : Runner} (h : LeftBy oracle 0 race r) :
    ∃ r', Steps codec transport endpoints true r r' ∧ Matches race r' := by
  cases h with
  | decided => exact ⟨_, .refl, matches_of_tasks _ _⟩
  | undecided last =>
    refine ⟨_, steps_interrupt last _ fun task htask => ?_, matches_of_tasks .cancelled _⟩
    rw [add_zero] at htask
    exact Task.ended_of_seen (Task.phase_of_mem_all htask)

theorem LeftBy.phase_eq {others : Multiset Task} {race : Race} {r : Runner} (h : LeftBy oracle others race r)
    {result : RaceResult} (decided : race.result = some result) : r.phase = .closed result := by
  cases h with
  | decided => exact congrArg RunnerPhase.closed (Option.some.inj decided)
  | undecided => cases decided

theorem LeftBy.matches {race : Race} {r : Runner} (h : LeftBy oracle 0 race r) {result : RaceResult}
    (decided : race.result = some result) : Matches race r := by
  cases h with
  | decided => exact matches_of_tasks _ _
  | undecided => cases decided

theorem steps_skip : Steps codec transport endpoints true ⟨oracle, .waiting, 0⟩ ⟨oracle, .closed .cancelled, 0⟩ :=
  .single (.skip rfl)

theorem matches_skipped : Matches ⟨none, [], []⟩ ⟨oracle, .closed .cancelled, 0⟩ :=
  ⟨⟨_, rfl⟩, rfl, rfl, rfl⟩

end

end Runner

namespace CallState

section
variable {d : Deployment} {codec : Codec} {transport : Transport} {now : Instant} {call : AggregationCall}

abbrev Steps (d : Deployment) (codec : Codec) (transport : Transport) (now : Instant) (call : AggregationCall) :
    CallState → CallState → Prop := Relation.ReflTransGen (Step d codec transport now call)

theorem steps_of_runner {stop : Option AggregationError} {runner runner' : Runner} (earlier later : List Runner)
    (h : Runner.Steps codec transport (endpointsOf d call) stop.isSome runner runner') :
    Steps d codec transport now call ⟨earlier ++ runner :: later, stop, none⟩
      ⟨earlier ++ runner' :: later, stop, none⟩ := by
  induction h with
  | refl => exact .refl
  | tail _ moves ih => exact ih.tail (.move moves)

/-- Runners that each move on their own move one after another. -/
theorem steps_of_runners {stop : Option AggregationError} {runners runners' : List Runner}
    (h : List.Forall₂ (Runner.Steps codec transport (endpointsOf d call) stop.isSome) runners runners')
    (earlier : List Runner) :
    Steps d codec transport now call ⟨earlier ++ runners, stop, none⟩ ⟨earlier ++ runners', stop, none⟩ := by
  induction h generalizing earlier with
  | nil => exact .refl
  | @cons runner runner' runners runners' hrunner _ ih =>
    refine (steps_of_runner earlier runners hrunner).trans ?_
    -- the runner that has moved joins the earlier ones
    have hrest := ih (earlier ++ [runner'])
    rwa [List.append_assoc, List.append_assoc] at hrest

theorem steps_from_start {runner : OracleSpec → Runner}
    (h : ∀ oracle, Runner.Steps codec transport (endpointsOf d call) false ⟨oracle, .waiting, 0⟩ (runner oracle)) :
    Steps d codec transport now call (start (oraclesOf d call)) ⟨(oraclesOf d call).map runner, none, none⟩ :=
  steps_of_runners (forall₂_map_map fun oracle _ => h oracle) []

/-- A schedule has come to what an aggregation comes to: the same outcome, by the same fetches, of which the same ones
    have settled and the same ones have been cancelled. -/
structure Agrees (s : CallState) (a : Aggregation) : Prop where
  outcome : s.outcome = a.outcome
  started : s.started = a.started
  settled : s.settled = a.races.flatMap Race.settled
  cancelled : s.cancelled = a.cancelled

theorem agrees_of_matches {races : List Race} {runners : List Runner} (h : List.Forall₂ Runner.Matches races runners)
    (stop : Option AggregationError) (o : Except AggregationError AggregatedPrices) :
    Agrees ⟨runners, stop, some o⟩ ⟨some o, races⟩ where
  outcome := rfl
  started := bind_of_forall₂ (h.imp fun _ _ hmatch => hmatch.started)
  settled := bind_of_forall₂ (h.imp fun _ _ hmatch => hmatch.settled)
  cancelled := bind_of_forall₂ (h.imp fun _ _ hmatch => hmatch.cancelled)

/-- A call is given up while its runners go the way of some races, and ends once they have closed. -/
theorem exists_givenUp {e : AggregationError} (stops : call.Stops e) (race : OracleSpec → Race)
    (h : ∀ oracle, ∃ r r', Runner.Steps codec transport (endpointsOf d call) false ⟨oracle, .waiting, 0⟩ r ∧
      Runner.Steps codec transport (endpointsOf d call) true r r' ∧ Runner.Matches (race oracle) r') :
    ∃ s, Reached d codec transport now call s ∧ s.Agrees (brokenOff e ((oraclesOf d call).map race)) := by
  choose mid final hmid hfinal hmatch using h
  have hclose : Steps d codec transport now call ⟨(oraclesOf d call).map mid, some e, none⟩
      ⟨(oraclesOf d call).map final, some e, none⟩ :=
    steps_of_runners (forall₂_map_map fun oracle _ => hfinal oracle) []
  have hsteps := ((steps_from_start hmid).tail (.giveUp stops)).trans hclose
  refine ⟨_, hsteps.tail (.fail fun runner hrunner => ?_), agrees_of_matches (forall₂_map_map fun oracle _ => ?_) _ _⟩
  · obtain ⟨oracle, -, rfl⟩ := List.mem_map.mp hrunner
    exact (hmatch oracle).closed
  · exact hmatch oracle

theorem phases_of_decided {races : List Race} {runners : List Runner} {results : List RaceResult}
    (h : List.Forall₂ (fun race (r : Runner) => ∀ result, race.result = some result → r.phase = .closed result)
      races runners) (decided : races.map Race.result = results.map some) :
    runners.map Runner.phase = results.map .closed := by
  induction h generalizing results with
  | nil => rw [List.map_eq_nil_iff.mp decided.symm]; rfl
  | cons hclosed _ ih =>
    obtain ⟨result, results, rfl, hresult, hresults⟩ := List.map_eq_cons_iff.mp decided.symm
    rw [List.map_cons, List.map_cons, hclosed result hresult.symm, ih hresults.symm]

/-- A call whose races all have results concludes from them. -/
theorem exists_concluded {results : List RaceResult}
    (h : ((oraclesOf d call).map (Race.run codec transport (endpointsOf d call))).mapM Race.result = some results) :
    ∃ s, Reached d codec transport now call s ∧ s.Agrees ⟨some (Aggregation.conclude d codec now results),
      (oraclesOf d call).map (Race.run codec transport (endpointsOf d call))⟩ := by
  choose final hleft hsteps using Runner.steps_run codec transport (endpointsOf d call)
  have hresults := mapM_eq_some.mp h
  have hclosed : ((oraclesOf d call).map final).map Runner.phase = results.map .closed :=
    phases_of_decided (forall₂_map_map fun oracle _ _ => (hleft oracle).phase_eq) hresults
  refine ⟨_, (steps_from_start hsteps).tail (.conclude hclosed),
    agrees_of_matches (forall₂_map_map fun oracle horacle => ?_) none _⟩
  obtain ⟨result, -, hresult⟩ := List.mem_map.mp (hresults ▸ List.mem_map_of_mem (List.mem_map_of_mem horacle))
  exact (hleft oracle).matches hresult.symm

/-- A call whose runners go the way of some races can be given up then. -/
theorem exists_givenUp_of_leftBy {e : AggregationError} (stops : call.Stops e) {race : OracleSpec → Race}
    (h : ∀ oracle, ∃ r, Runner.LeftBy oracle 0 (race oracle) r ∧
      Runner.Steps codec transport (endpointsOf d call) false ⟨oracle, .waiting, 0⟩ r) :
    ∃ s, Reached d codec transport now call s ∧ s.Agrees (brokenOff e ((oraclesOf d call).map race)) :=
  exists_givenUp stops race fun oracle => by
    obtain ⟨r, hleft, hsteps⟩ := h oracle
    obtain ⟨r', hclose, hmatch⟩ := hleft.giveUp
    exact ⟨r, r', hsteps, hclose, hmatch⟩

/-- A call that is given up while all of its runners are in line starts nothing. -/
theorem exists_refused {e : AggregationError} (stops : call.Stops e) :
    ∃ s, Reached d codec transport now call s ∧ s.Agrees (refused e) := by
  obtain ⟨s, hs, houtcome, hstarted, hsettled, hcancelled⟩ : ∃ s, Reached d codec transport now call s ∧
      s.Agrees (brokenOff e ((oraclesOf d call).map fun _ => ⟨none, [], []⟩)) :=
    exists_givenUp stops (fun _ => ⟨none, [], []⟩) fun _ => ⟨_, _, .refl, Runner.steps_skip, Runner.matches_skipped⟩
  have hnone : ∀ {f : Race → List Fetch}, f ⟨none, [], []⟩ = [] →
      ((oraclesOf d call).map fun _ => (⟨none, [], []⟩ : Race)).flatMap f = [] := fun hf =>
    List.flatMap_eq_nil_iff.mpr fun race hrace => by
      obtain ⟨_, -, rfl⟩ := List.mem_map.mp hrace
      exact hf
  exact ⟨s, hs, houtcome, hstarted.trans (congrArg _ (hnone rfl)), hsettled.trans (congrArg _ (hnone rfl)),
    hcancelled.trans (congrArg _ (hnone rfl))⟩

theorem stops_timeoutError {timeout : Duration} (timed : call.timeout = some timeout) :
    call.Stops (timeoutError timeout) := by
  by_cases hwritable : timeout.isWritable = true
  · rw [timeoutError, if_pos hwritable]
    exact .timedOut timed
  · rw [timeoutError, if_neg hwritable]
    exact .unwritten timed hwritable

/-- What an aggregation comes to, a schedule of its tasks comes to. -/
theorem exists_agrees {o : Except AggregationError AggregatedPrices}
    (h : (run d codec transport now call).outcome = some o) :
    ∃ s, Reached d codec transport now call s ∧ s.Agrees (run d codec transport now call) := by
  have hcourse := course_run d codec transport now call
  generalize run d codec transport now call = a at hcourse h ⊢
  cases hcourse with
  | cancelled early =>
    obtain ⟨count, hcount, -⟩ := early
    exact exists_refused (.cancelled hcount)
  | passed _ timed _ => exact exists_refused (stops_timeoutError timed)
  | unreachable _ timed beyond => exact exists_refused (.unreachable timed beyond)
  | immediate _ timed _ =>
    exact exists_givenUp_of_leftBy (.timedOut timed) (Runner.steps_brokenOff codec transport (endpointsOf d call))
  | brokenOff _ _ late =>
    obtain ⟨count, hcount, -⟩ := late
    exact exists_givenUp_of_leftBy (.cancelled hcount) (Runner.steps_brokenOff codec transport (endpointsOf d call))
  | settled =>
    unfold settle at h ⊢
    split at h
    · rename_i results hresults
      exact exists_concluded hresults
    · obtain ⟨timeout, htimeout, -⟩ := Option.map_eq_some_iff.mp h
      rw [htimeout]
      exact exists_givenUp_of_leftBy (.timedOut htimeout) (Runner.steps_run codec transport (endpointsOf d call))

end

end CallState

namespace Aggregation

/-- Whatever schedule a call takes, once it has an outcome it has left no fetch behind; and an aggregation that ends has
    taken such a schedule. -/
theorem no_fetch_left_behind (d : Deployment) (codec : Codec) (transport : Transport) (now : Instant)
    (call : AggregationCall) :
    (∀ s o, CallState.Reached d codec transport now call s → s.outcome = some o → s.Tidy d transport call o) ∧
      ∀ o, (run d codec transport now call).outcome = some o →
        ∃ s, CallState.Reached d codec transport now call s ∧ s.Agrees (run d codec transport now call) ∧
          s.Tidy d transport call o := by
  refine ⟨fun s o hs houtcome => hs.sound.tidy houtcome, fun o h => ?_⟩
  obtain ⟨s, hs, hagrees⟩ := CallState.exists_agrees h
  exact ⟨s, hs, hagrees, hs.sound.tidy (hagrees.outcome.trans h)⟩

/-- Oracles that publish attestations at a near node, while fetches from any other node hang. -/
def tonNode : Transport := fun endpoint address =>
  if endpoint.display = "near" then tonOracles (.text (Race.publication "01" "cc" (.integer 100))) endpoint address
  else .hangs

/-- What is asked of the near node and of one that hangs. -/
def nearAndStalled : AggregationCall := { endpoints := some [.ofText "near", .ofText "far"] }

/-- The near node brings prices, so that the fetches from the far one are cancelled. -/
theorem no_fetch_left_behind_stalled :
    ∃ p, (run tonDeployment Race.tonCodec tonNode (.whole 110) nearAndStalled).outcome = some (.ok p) ∧
      (run tonDeployment Race.tonCodec tonNode (.whole 110) nearAndStalled).cancelled.map
        (fun fetch => fetch.endpoint.display) = ["far", "far", "far"] ∧
      ∃ s, CallState.Reached tonDeployment Race.tonCodec tonNode (.whole 110) nearAndStalled s ∧
        s.Agrees (run tonDeployment Race.tonCodec tonNode (.whole 110) nearAndStalled) ∧
        s.Tidy tonDeployment tonNode nearAndStalled (.ok p) := by
  obtain ⟨p, hp⟩ : ∃ p, (run tonDeployment Race.tonCodec tonNode (.whole 110) nearAndStalled).outcome =
      some (.ok p) := by decide +kernel
  have hcancelled : (run tonDeployment Race.tonCodec tonNode (.whole 110) nearAndStalled).cancelled.map
      (fun fetch => fetch.endpoint.display) = ["far", "far", "far"] := by decide +kernel
  exact ⟨p, hp, hcancelled,
    (no_fetch_left_behind tonDeployment Race.tonCodec tonNode (.whole 110) nearAndStalled).2 _ hp⟩

end Aggregation

end Solvency
