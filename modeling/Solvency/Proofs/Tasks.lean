import Mathlib.Data.Multiset.Bind
import Mathlib.Logic.Relation
import Solvency.Proofs.Quorums

/-! Tasks: the steps in which an aggregation is run. Each oracle has a runner, which creates a task for every endpoint,
    looks at the fetches that have settled, in whatever order they do, and cleans up after itself: it is not closed
    before every task that it created has ended. A call that is given up interrupts its runners and waits for them.
    Whatever schedule is taken, no fetch is left behind. -/

namespace Solvency

open Aggregation

/-- Where a task stands. -/
inductive TaskPhase where
  /-- In line to run; nothing has been fetched. -/
  | created
  | running
  | settled
  /-- Its runner has looked at what its fetch settled with. -/
  | seen
  /-- Its fetch was started and has been cancelled. -/
  | cancelled
  /-- It was cancelled in line. -/
  | dropped
  deriving DecidableEq, Repr

structure Task where
  fetch : Fetch
  phase : TaskPhase

namespace Task

/-- The fetch of the task has been started. -/
def Started (t : Task) : Prop := t.phase ≠ .created ∧ t.phase ≠ .dropped

/-- The fetch of the task has been started and has settled. -/
def Settled (t : Task) : Prop := t.phase = .settled ∨ t.phase = .seen

/-- The task neither runs nor is in line to run. -/
def Ended (t : Task) : Prop := t.phase ≠ .created ∧ t.phase ≠ .running

instance : DecidablePred Started := fun _ => inferInstanceAs (Decidable (_ ∧ _))

instance : DecidablePred Settled := fun _ => inferInstanceAs (Decidable (_ ∨ _))

/-- The tasks of fetches that stand in one place. -/
def all (phase : TaskPhase) (fetches : List Fetch) : Multiset Task := ↑(fetches.map fun fetch => Task.mk fetch phase)

theorem all_nil (phase : TaskPhase) : all phase [] = 0 := rfl

theorem all_cons (phase : TaskPhase) (fetch : Fetch) (fetches : List Fetch) :
    all phase (fetch :: fetches) = ⟨fetch, phase⟩ ::ₘ all phase fetches := rfl

theorem phase_of_mem_all {phase : TaskPhase} {fetches : List Fetch} {task : Task} (h : task ∈ all phase fetches) :
    task.phase = phase := by
  obtain ⟨fetch, -, rfl⟩ := List.mem_map.mp (Multiset.mem_coe.mp h)
  rfl

theorem ended_of_seen {task : Task} (h : task.phase = .seen) : task.Ended :=
  ⟨fun h' => (nomatch h.symm.trans h'), fun h' => nomatch h.symm.trans h'⟩

theorem filter_all {p : Task → Prop} [DecidablePred p] {phase : TaskPhase} (h : ∀ fetch, p ⟨fetch, phase⟩)
    (fetches : List Fetch) : (all phase fetches).filter p = all phase fetches :=
  Multiset.filter_eq_self.mpr fun task htask => by
    obtain ⟨fetch, -, rfl⟩ := List.mem_map.mp (Multiset.mem_coe.mp htask)
    exact h fetch

theorem filter_all_none {p : Task → Prop} [DecidablePred p] {phase : TaskPhase} (h : ∀ fetch, ¬p ⟨fetch, phase⟩)
    (fetches : List Fetch) : (all phase fetches).filter p = 0 :=
  Multiset.filter_eq_nil.mpr fun task htask => by
    obtain ⟨fetch, -, rfl⟩ := List.mem_map.mp (Multiset.mem_coe.mp htask)
    exact h fetch

theorem map_fetch_all (phase : TaskPhase) (fetches : List Fetch) : (all phase fetches).map fetch = fetches := by
  rw [all, Multiset.map_coe, List.map_map]
  exact congrArg _ (List.map_id fetches)

end Task

/-- Where a runner stands. -/
inductive RunnerPhase where
  /-- In line to run. -/
  | waiting
  /-- Looking for an attestation, with the result that stands if none is found. -/
  | racing (last : RaceResult)
  /-- With a result, but with tasks to clean up. -/
  | closing (result : RaceResult)
  | closed (result : RaceResult)

/-- The runner of an oracle with the tasks that it has created. -/
structure Runner where
  oracle : OracleSpec
  phase : RunnerPhase
  tasks : Multiset Task

namespace Runner

/-- The fetches that the runner has started. -/
def started (r : Runner) : Multiset Fetch := (r.tasks.filter Task.Started).map Task.fetch

/-- The fetches of the runner that have settled. -/
def settled (r : Runner) : Multiset Fetch := (r.tasks.filter Task.Settled).map Task.fetch

/-- The fetches that the runner has cancelled after they were started. -/
def cancelled (r : Runner) : Multiset Fetch := (r.tasks.filter (·.phase = .cancelled)).map Task.fetch

/-- Where what a fetch settled with leaves its runner. -/
def judged : Except TransportError RaceResult → RunnerPhase
  | .ok result => .closing result
  | .error e => .racing (.lost e)

/-- One step of a runner, of a call that has been given up or not. A fetch is looked at after all tasks have been
    started, since these stand in line before their runner. -/
inductive Step (codec : Codec) (transport : Transport) (endpoints : List Endpoint) (givenUp : Bool) :
    Runner → Runner → Prop where
  | start {oracle : OracleSpec} (going : givenUp = false) :
    Step codec transport endpoints givenUp ⟨oracle, .waiting, 0⟩
      ⟨oracle, .racing (oracle.lose (.noEndpoints oracle.id)), Task.all .created (Race.fetches transport endpoints oracle)⟩
  | launch {oracle : OracleSpec} {last : RaceResult} {fetch : Fetch} {others : Multiset Task} :
    Step codec transport endpoints givenUp ⟨oracle, .racing last, ⟨fetch, .created⟩ ::ₘ others⟩
      ⟨oracle, .racing last, ⟨fetch, .running⟩ ::ₘ others⟩
  | settle {oracle : OracleSpec} {phase : RunnerPhase} {fetch : Fetch} {others : Multiset Task}
    (settles : fetch.Settles) :
    Step codec transport endpoints givenUp ⟨oracle, phase, ⟨fetch, .running⟩ ::ₘ others⟩
      ⟨oracle, phase, ⟨fetch, .settled⟩ ::ₘ others⟩
  | look {oracle : OracleSpec} {last : RaceResult} {fetch : Fetch} {others : Multiset Task} {delay : Nat}
    {outcome : FetchOutcome} (ends : fetch.response = .settles delay outcome)
    (launched : ∀ task ∈ others, task.phase ≠ .created) :
    Step codec transport endpoints givenUp ⟨oracle, .racing last, ⟨fetch, .settled⟩ ::ₘ others⟩
      ⟨oracle, judged (outcome.judge codec oracle), ⟨fetch, .seen⟩ ::ₘ others⟩
  | exhaust {oracle : OracleSpec} {last : RaceResult} {tasks : Multiset Task}
    (seen : ∀ task ∈ tasks, task.phase = .seen) :
    Step codec transport endpoints givenUp ⟨oracle, .racing last, tasks⟩ ⟨oracle, .closing last, tasks⟩
  | skip {oracle : OracleSpec} (stopped : givenUp = true) :
    Step codec transport endpoints givenUp ⟨oracle, .waiting, 0⟩ ⟨oracle, .closed .cancelled, 0⟩
  | interrupt {oracle : OracleSpec} {phase : RunnerPhase} {tasks : Multiset Task} (stopped : givenUp = true)
    (unclosed : (∃ last, phase = .racing last) ∨ ∃ result, phase = .closing result) :
    Step codec transport endpoints givenUp ⟨oracle, phase, tasks⟩ ⟨oracle, .closing .cancelled, tasks⟩
  | cancel {oracle : OracleSpec} {result : RaceResult} {fetch : Fetch} {others : Multiset Task} :
    Step codec transport endpoints givenUp ⟨oracle, .closing result, ⟨fetch, .running⟩ ::ₘ others⟩
      ⟨oracle, .closing result, ⟨fetch, .cancelled⟩ ::ₘ others⟩
  | drop {oracle : OracleSpec} {result : RaceResult} {fetch : Fetch} {others : Multiset Task} :
    Step codec transport endpoints givenUp ⟨oracle, .closing result, ⟨fetch, .created⟩ ::ₘ others⟩
      ⟨oracle, .closing result, ⟨fetch, .dropped⟩ ::ₘ others⟩
  | close {oracle : OracleSpec} {result : RaceResult} {tasks : Multiset Task} (ended : ∀ task ∈ tasks, task.Ended) :
    Step codec transport endpoints givenUp ⟨oracle, .closing result, tasks⟩ ⟨oracle, .closed result, tasks⟩

/-- What holds of a runner in every schedule. -/
structure Sound (codec : Codec) (transport : Transport) (endpoints : List Endpoint) (givenUp : Bool) (r : Runner) :
    Prop where
  fetches : r.tasks.map Task.fetch = Race.fetches transport endpoints r.oracle ∨
    (r.tasks = 0 ∧ (r.phase = .waiting ∨ givenUp = true))
  settles : ∀ task ∈ r.tasks, task.Settled → task.fetch.Settles
  undropped : givenUp = false → ∀ task ∈ r.tasks, task.phase ≠ .dropped
  launched : givenUp = false → ∀ task ∈ r.tasks, task.phase = .created → ∃ last, r.phase = .racing last
  ended : ∀ result, r.phase = .closed result → ∀ task ∈ r.tasks, task.Ended
  losing : ∀ last, r.phase = .racing last → last.IsLoss
  won : ∀ a, r.phase = .closing (.won a) ∨ r.phase = .closed (.won a) → ∃ task ∈ r.tasks, task.phase = .seen ∧
    ∃ b, task.fetch.attestation? codec = some b ∧ a = { b with oracleId := some r.oracle.id }

section
variable {codec : Codec} {transport : Transport} {endpoints : List Endpoint} {givenUp : Bool}

/-- A task moves on, and its runner with it unless this is closed. -/
theorem Sound.move {oracle : OracleSpec} {phase phase' : RunnerPhase} {fetch : Fetch} {place place' : TaskPhase}
    {others : Multiset Task}
    (sound : Sound codec transport endpoints givenUp ⟨oracle, phase, ⟨fetch, place⟩ ::ₘ others⟩)
    (settles : (Task.mk fetch place').Settled → fetch.Settles) (undropped : givenUp = false → place' ≠ .dropped)
    (launched : givenUp = false → place' ≠ .created ∧
      ∀ task ∈ others, task.phase = .created → ∃ last, phase' = .racing last)
    (unclosed : ∀ result, phase' ≠ .closed result) (losing : ∀ last, phase' = .racing last → last.IsLoss)
    (won : ∀ a, phase' = .closing (.won a) → ∃ task ∈ ⟨fetch, place'⟩ ::ₘ others, task.phase = .seen ∧
      ∃ b, task.fetch.attestation? codec = some b ∧ a = { b with oracleId := some oracle.id }) :
    Sound codec transport endpoints givenUp ⟨oracle, phase', ⟨fetch, place'⟩ ::ₘ others⟩ where
  fetches := by
    left
    have hfetches := sound.fetches.resolve_right fun h => Multiset.cons_ne_zero h.1
    rwa [Multiset.map_cons] at hfetches ⊢
  settles := by
    refine Multiset.forall_mem_cons.mpr ⟨settles, fun task htask => ?_⟩
    exact sound.settles task (Multiset.mem_cons_of_mem htask)
  undropped := fun going => Multiset.forall_mem_cons.mpr
    ⟨undropped going, fun task htask => sound.undropped going task (Multiset.mem_cons_of_mem htask)⟩
  launched := fun going => Multiset.forall_mem_cons.mpr
    ⟨fun hcreated => absurd hcreated (launched going).1, (launched going).2⟩
  ended := fun result hclosed => absurd hclosed (unclosed result)
  losing := losing
  won := fun a hwon => won a (hwon.resolve_right (unclosed _))

/-- What has been won was brought by a task that has been looked at, whatever the other tasks do. -/
theorem Sound.brought {oracle : OracleSpec} {phase : RunnerPhase} {fetch : Fetch} {place place' : TaskPhase}
    {others : Multiset Task} {a : Attestation}
    (sound : Sound codec transport endpoints givenUp ⟨oracle, phase, ⟨fetch, place⟩ ::ₘ others⟩)
    (unseen : place ≠ .seen) (won : phase = .closing (.won a)) :
    ∃ task ∈ ⟨fetch, place'⟩ ::ₘ others, task.phase = .seen ∧
      ∃ b, task.fetch.attestation? codec = some b ∧ a = { b with oracleId := some oracle.id } := by
  obtain ⟨task, htask, hseen, hbrings⟩ := sound.won a (Or.inl won)
  rcases Multiset.mem_cons.mp htask with rfl | hother
  · exact absurd hseen unseen
  · exact ⟨task, Multiset.mem_cons_of_mem hother, hseen, hbrings⟩

theorem Sound.turn {oracle : OracleSpec} {phase phase' : RunnerPhase} {tasks : Multiset Task}
    (sound : Sound codec transport endpoints givenUp ⟨oracle, phase, tasks⟩) (begun : phase ≠ .waiting ∨ givenUp = true)
    (launched : givenUp = false → ∀ task ∈ tasks, task.phase ≠ .created)
    (ended : ∀ result, phase' = .closed result → ∀ task ∈ tasks, task.Ended) (idle : ∀ last, phase' ≠ .racing last)
    (won : ∀ a, phase' = .closing (.won a) ∨ phase' = .closed (.won a) → phase = .closing (.won a)) :
    Sound codec transport endpoints givenUp ⟨oracle, phase', tasks⟩ where
  fetches := by
    refine sound.fetches.imp_right fun h => ⟨h.1, Or.inr ?_⟩
    rcases h.2 with hwaiting | hstopped
    · exact begun.resolve_left fun hbegun => hbegun hwaiting
    · exact hstopped
  settles := sound.settles
  undropped := sound.undropped
  launched := fun going task htask hcreated => absurd hcreated (launched going task htask)
  ended := ended
  losing := fun last hracing => absurd hracing (idle last)
  won := fun a hwon => sound.won a (Or.inl (won a hwon))

theorem sound_of_idle {oracle : OracleSpec} {phase : RunnerPhase}
    (idle : phase = .waiting ∨ (phase = .closed .cancelled ∧ givenUp = true)) :
    Sound codec transport endpoints givenUp ⟨oracle, phase, 0⟩ where
  fetches := Or.inr ⟨rfl, idle.imp_right And.right⟩
  settles := fun _ h => absurd h (Multiset.notMem_zero _)
  undropped := fun _ _ h => absurd h (Multiset.notMem_zero _)
  launched := fun _ _ h => absurd h (Multiset.notMem_zero _)
  ended := fun _ _ _ h => absurd h (Multiset.notMem_zero _)
  losing := by
    rcases idle with rfl | ⟨rfl, -⟩
    · exact fun _ h => nomatch h
    · exact fun _ h => nomatch h
  won := by
    rcases idle with rfl | ⟨rfl, -⟩
    · exact fun _ h => h.elim (fun h => nomatch h) fun h => nomatch h
    · exact fun _ h => h.elim (fun h => nomatch h) fun h => nomatch h

theorem judged_eq_racing {last : RaceResult} {decision : Except TransportError RaceResult}
    (h : judged decision = .racing last) : last.IsLoss := by
  cases decision with
  | error e =>
    cases h
    exact .lost e
  | ok result => cases h

theorem judged_eq_closing {result : RaceResult} {decision : Except TransportError RaceResult}
    (h : judged decision = .closing result) : decision = .ok result := by
  cases decision with
  | error e => cases h
  | ok result' => cases h; rfl

theorem Step.sound {r r' : Runner} (h : Step codec transport endpoints givenUp r r')
    (sound : Sound codec transport endpoints givenUp r) : Sound codec transport endpoints givenUp r' := by
  cases h with
  | start going =>
    rename_i oracle
    have hcreated : ∀ task ∈ Task.all .created (Race.fetches transport endpoints oracle), task.phase = .created :=
      fun _ => Task.phase_of_mem_all
    exact {
      fetches := Or.inl (Task.map_fetch_all _ _)
      settles := fun task htask hsettled => by
        rcases hsettled with h | h <;> cases (hcreated task htask).symm.trans h
      undropped := fun _ task htask h => nomatch (hcreated task htask).symm.trans h
      launched := fun _ _ _ _ => ⟨_, rfl⟩
      ended := fun _ h => nomatch h
      losing := fun _ h => RunnerPhase.racing.inj h ▸ OracleSpec.isLoss_lose
      won := fun _ h => h.elim (fun h => nomatch h) fun h => nomatch h }
  | launch =>
    refine sound.move (fun h => ?_) (fun _ h => nomatch h) (fun _ => ⟨fun h => (nomatch h), fun _ _ _ => ⟨_, rfl⟩⟩)
      (fun _ h => nomatch h) sound.losing fun _ h => nomatch h
    rcases h with h | h <;> cases h
  | settle settles =>
    refine sound.move (fun _ => settles) (fun _ h => nomatch h) (fun going => ⟨fun h => (nomatch h), ?_⟩) ?_
      sound.losing ?_
    · exact fun task htask => sound.launched going task (Multiset.mem_cons_of_mem htask)
    · exact fun result hclosed => (sound.ended result hclosed _ (Multiset.mem_cons_self _ _)).2 rfl
    · exact fun a => sound.brought (fun h => nomatch h)
  | look ends launched =>
    refine sound.move (fun _ => ⟨_, _, ends⟩) (fun _ h => nomatch h)
      (fun _ => ⟨fun h => (nomatch h), fun task htask h => absurd h (launched task htask)⟩) ?_
      (fun _ h => judged_eq_racing h) ?_
    · intro result hclosed
      unfold judged at hclosed
      split at hclosed <;> cases hclosed
    · intro a hwon
      obtain ⟨raw, b, rfl, hread, ha⟩ := FetchOutcome.judge_eq_won.mp (judged_eq_closing hwon)
      exact ⟨_, Multiset.mem_cons_self _ _, rfl, b, Fetch.attestation?_eq_some.mpr ⟨_, raw, ends, hread⟩, ha⟩
  | exhaust seen =>
    refine sound.turn (Or.inl fun h => nomatch h) (fun _ task htask h => ?_) (fun _ h => nomatch h)
      (fun _ h => nomatch h) fun a h => ?_
    · cases (seen task htask).symm.trans h
    · rcases h with h | h
      · exact absurd (RunnerPhase.closing.inj h) ((sound.losing _ rfl).ne_won a)
      · cases h
  | skip stopped => exact sound_of_idle (Or.inr ⟨rfl, stopped⟩)
  | interrupt stopped =>
    refine sound.turn (Or.inr stopped) (fun going => ?_) (fun _ h => nomatch h) (fun _ h => nomatch h) fun _ h => ?_
    · cases going.symm.trans stopped
    · rcases h with h | h <;> cases h
  | cancel =>
    refine sound.move (fun h => ?_) (fun _ h => nomatch h) (fun going => ⟨fun h => (nomatch h), ?_⟩)
      (fun _ h => nomatch h) (fun _ h => nomatch h) ?_
    · rcases h with h | h <;> cases h
    · exact fun task htask => sound.launched going task (Multiset.mem_cons_of_mem htask)
    · exact fun a => sound.brought (fun h => nomatch h)
  | drop =>
    -- before the call is given up, no task is in line when its runner closes
    have hstopped : givenUp ≠ false := fun going => by
      obtain ⟨_, hracing⟩ := sound.launched going _ (Multiset.mem_cons_self _ _) rfl
      cases hracing
    refine sound.move (fun h => ?_) (fun going => absurd going hstopped) (fun going => absurd going hstopped)
      (fun _ h => nomatch h) (fun _ h => nomatch h) ?_
    · rcases h with h | h <;> cases h
    · exact fun a => sound.brought (fun h => nomatch h)
  | close ended =>
    refine sound.turn (Or.inl fun h => nomatch h) (fun _ task htask => (ended task htask).1) (fun _ _ => ended)
      (fun _ h => nomatch h) ?_
    rintro a (h | h)
    · cases h
    · cases h
      rfl

theorem Step.oracle_eq {r r' : Runner} (h : Step codec transport endpoints givenUp r r') : r'.oracle = r.oracle := by
  cases h <;> rfl

theorem Sound.giveUp {r : Runner} (sound : Sound codec transport endpoints false r) :
    Sound codec transport endpoints true r where
  fetches := sound.fetches.imp_right fun h => ⟨h.1, Or.inr rfl⟩
  settles := sound.settles
  undropped := fun h => nomatch h
  launched := fun h => nomatch h
  ended := sound.ended
  losing := sound.losing
  won := sound.won

theorem Sound.started_le {r : Runner} (sound : Sound codec transport endpoints givenUp r) :
    r.started ≤ Race.fetches transport endpoints r.oracle := by
  rcases sound.fetches with hfetches | ⟨htasks, -⟩
  · rw [← hfetches]
    exact Multiset.map_le_map (Multiset.filter_le _ _)
  · rw [started, htasks]
    exact Multiset.zero_le _

/-- A closed runner of a call that has not been given up has started every fetch once. -/
theorem Sound.started_eq {r : Runner} {result : RaceResult} (sound : Sound codec transport endpoints false r)
    (closed : r.phase = .closed result) : r.started = Race.fetches transport endpoints r.oracle := by
  have hstarted : ∀ task ∈ r.tasks, task.Started := fun task htask => by
    refine ⟨fun hcreated => ?_, sound.undropped rfl task htask⟩
    obtain ⟨last, hracing⟩ := sound.launched rfl task htask hcreated
    cases hracing.symm.trans closed
  rw [started, Multiset.filter_eq_self.mpr hstarted]
  refine sound.fetches.resolve_right fun h => ?_
  rcases h.2 with hwaiting | hstopped
  · cases hwaiting.symm.trans closed
  · cases hstopped

end

end Runner

/-! ### Calls under way -/

/-- What ends a call before it concludes: its timeout, one that cannot be written or cannot be kept, or its caller. -/
inductive AggregationCall.Stops (call : AggregationCall) : AggregationError → Prop where
  | timedOut {timeout : Duration} (timed : call.timeout = some timeout) : Stops call (.transport (.timedOut timeout))
  | unwritten {timeout : Duration} (timed : call.timeout = some timeout) (wide : ¬timeout.isWritable = true) :
    Stops call .unreportable
  | unreachable {timeout : Duration} (timed : call.timeout = some timeout) (beyond : timeout.deadline = .unreachable) :
    Stops call (.clock .tooLarge)
  | cancelled {count : Int} (counted : call.cancelAfter = some count) : Stops call .cancelled

/-- A call under way: its runners in the order of their oracles, why it has been given up if it has, and its outcome
    once there is one. -/
structure CallState where
  runners : List Runner
  stop : Option AggregationError
  outcome : Option (Except AggregationError AggregatedPrices)

namespace CallState

/-- A call that has a runner for each oracle, all in line. -/
def start (oracles : List OracleSpec) : CallState := ⟨oracles.map fun oracle => ⟨oracle, .waiting, 0⟩, none, none⟩

def started (s : CallState) : Multiset Fetch := (s.runners : Multiset Runner).bind Runner.started

def settled (s : CallState) : Multiset Fetch := (s.runners : Multiset Runner).bind Runner.settled

def cancelled (s : CallState) : Multiset Fetch := (s.runners : Multiset Runner).bind Runner.cancelled

section
variable (d : Deployment) (codec : Codec) (transport : Transport) (now : Instant) (call : AggregationCall)

/-- One step of a call: a runner moves, the call is given up, or it ends once all of its runners are closed. -/
inductive Step : CallState → CallState → Prop where
  | move {earlier later : List Runner} {runner runner' : Runner} {stop : Option AggregationError}
    (moves : Runner.Step codec transport (endpointsOf d call) stop.isSome runner runner') :
    Step ⟨earlier ++ runner :: later, stop, none⟩ ⟨earlier ++ runner' :: later, stop, none⟩
  | giveUp {runners : List Runner} {e : AggregationError} (stops : call.Stops e) :
    Step ⟨runners, none, none⟩ ⟨runners, some e, none⟩
  | conclude {runners : List Runner} {results : List RaceResult}
    (closed : runners.map Runner.phase = results.map .closed) :
    Step ⟨runners, none, none⟩ ⟨runners, none, some (conclude d codec now results)⟩
  | fail {runners : List Runner} {e : AggregationError}
    (closed : ∀ runner ∈ runners, ∃ result, runner.phase = .closed result) :
    Step ⟨runners, some e, none⟩ ⟨runners, some e, some (.error e)⟩

/-- The states that some schedule of a call leads to. -/
def Reached : CallState → Prop :=
  Relation.ReflTransGen (Step d codec transport now call) (start (oraclesOf d call))

/-- What holds of a call in every schedule. -/
structure Sound (s : CallState) : Prop where
  runners : List.Forall₂ (fun oracle runner => runner.oracle = oracle ∧
    runner.Sound codec transport (endpointsOf d call) s.stop.isSome) (oraclesOf d call) s.runners
  stopped : ∀ e, s.stop = some e → call.Stops e
  closed : ∀ o, s.outcome = some o → ∀ runner ∈ s.runners, ∃ result, runner.phase = .closed result
  concluded : ∀ o, s.outcome = some o → (∃ e, o = .error e) ∨
    ∃ results, s.runners.map Runner.phase = results.map .closed ∧ o = Aggregation.conclude d codec now results

variable {d codec transport now call} {s s' : CallState}

theorem sound_start : Sound d codec transport now call (start (oraclesOf d call)) where
  runners := List.forall₂_map_right_iff.mpr (List.forall₂_same.mpr fun _ _ => ⟨rfl, Runner.sound_of_idle (Or.inl rfl)⟩)
  stopped := fun _ h => nomatch h
  closed := fun _ h => nomatch h
  concluded := fun _ h => nomatch h

theorem Step.sound (h : Step d codec transport now call s s') (sound : Sound d codec transport now call s) :
    Sound d codec transport now call s' := by
  cases h with
  | move moves =>
    exact {
      runners := Forall₂.replace sound.runners fun oracle h => ⟨moves.oracle_eq.trans h.1, moves.sound h.2⟩
      stopped := sound.stopped
      closed := fun _ h => nomatch h
      concluded := fun _ h => nomatch h }
  | giveUp stops =>
    exact {
      runners := sound.runners.imp fun _ _ h => ⟨h.1, h.2.giveUp⟩
      stopped := fun e h => Option.some.inj h ▸ stops
      closed := fun _ h => nomatch h
      concluded := fun _ h => nomatch h }
  | conclude closed =>
    exact {
      runners := sound.runners
      stopped := sound.stopped
      closed := fun _ _ runner hrunner => by
        obtain ⟨result, -, hresult⟩ := List.mem_map.mp (closed ▸ List.mem_map_of_mem hrunner)
        exact ⟨result, hresult.symm⟩
      concluded := fun o h => Or.inr ⟨_, closed, (Option.some.inj h).symm⟩ }
  | fail closed =>
    exact {
      runners := sound.runners
      stopped := sound.stopped
      closed := fun _ _ => closed
      concluded := fun o h => Or.inl ⟨_, (Option.some.inj h).symm⟩ }

theorem Reached.sound (h : Reached d codec transport now call s) : Sound d codec transport now call s := by
  induction h with
  | refl => exact sound_start
  | tail _ step ih => exact step.sound ih

/-- A call has left no fetch behind and repeated none: whatever it has started has settled or been cancelled, and a
    fetch that hangs has been cancelled. It has started each fetch at most once, and exactly once if nothing gives it
    up. Prices come from one attestation of each oracle at most. -/
structure Tidy (d : Deployment) (transport : Transport) (call : AggregationCall) (s : CallState)
    (outcome : Except AggregationError AggregatedPrices) : Prop where
  ended : ∀ runner ∈ s.runners, ∀ task ∈ runner.tasks, task.Started →
    (task.Settled ∧ task.fetch.Settles) ∨ task.phase = .cancelled
  hanging : ∀ runner ∈ s.runners, ∀ task ∈ runner.tasks, task.Started → task.fetch.response = .hangs →
    task.phase = .cancelled
  unrepeated : s.started ≤ (oraclesOf d call).flatMap (Race.fetches transport (endpointsOf d call))
  complete : call.timeout = none → call.cancelAfter = none →
    s.started = (oraclesOf d call).flatMap (Race.fetches transport (endpointsOf d call))
  once : ∀ p, outcome = .ok p → p.oracleIds.Subperm ((oraclesOf d call).map OracleSpec.id)

theorem bind_of_forall₂ {α : Type} {f : α → List Fetch} {g : Runner → Multiset Fetch} {xs : List α}
    {runners : List Runner} (h : List.Forall₂ (fun x runner => g runner = f x) xs runners) :
    (runners : Multiset Runner).bind g = xs.flatMap f := by
  induction h with
  | nil => rfl
  | cons hx _ ih =>
    rw [← Multiset.cons_coe, Multiset.cons_bind, hx, ih, List.flatMap_cons]
    rfl

theorem bind_le_of_forall₂ {α : Type} {f : α → List Fetch} {g : Runner → Multiset Fetch} {xs : List α}
    {runners : List Runner} (h : List.Forall₂ (fun x runner => g runner ≤ f x) xs runners) :
    (runners : Multiset Runner).bind g ≤ xs.flatMap f := by
  induction h with
  | nil => exact Multiset.zero_le _
  | cons hx _ ih =>
    rw [← Multiset.cons_coe, Multiset.cons_bind, List.flatMap_cons, ← Multiset.coe_add]
    exact add_le_add hx ih

/-- What closed runners have won is under the ids of their oracles, so that each oracle is counted once at most. -/
theorem ids_sublist_of_closed {assets : List Text} {ttl : Int} {oracles : List OracleSpec} {runners : List Runner}
    {results : List RaceResult}
    (won : List.Forall₂ (fun oracle runner => ∀ a, runner.phase = .closed (.won a) → a.oracleId = some oracle.id)
      oracles runners) (closed : runners.map Runner.phase = results.map .closed) :
    ((results.filterMap (accept? assets now ttl)).filterMap Attestation.oracleId).Sublist
      (oracles.map OracleSpec.id) := by
  induction won generalizing results with
  | nil =>
    obtain rfl := List.map_eq_nil_iff.mp closed.symm
    exact .slnil
  | @cons oracle runner oracles runners hwon _ ih =>
    obtain ⟨result, results, rfl, hphase, hphases⟩ := List.map_eq_cons_iff.mp closed.symm
    cases haccept : accept? assets now ttl result with
    | none =>
      rw [List.filterMap_cons_none haccept, List.map_cons]
      exact (ih hphases.symm).cons _
    | some a =>
      have hid : a.oracleId = some oracle.id := hwon a (by rw [← hphase, (accept?_eq_some.mp haccept).1])
      rw [List.filterMap_cons_some haccept, List.filterMap_cons_some hid, List.map_cons]
      exact (ih hphases.symm).cons_cons _

theorem Sound.once (sound : Sound d codec transport now call s) {p : AggregatedPrices}
    (h : s.outcome = some (.ok p)) : p.oracleIds.Subperm ((oraclesOf d call).map OracleSpec.id) := by
  rcases sound.concluded _ h with ⟨e, he⟩ | ⟨results, hclosed, hp⟩
  · cases he
  · obtain ⟨-, -, hreduce⟩ := conclude_inv hp.symm
    obtain ⟨-, -, -, hids⟩ := reduce_inv hreduce
    have hwon : List.Forall₂ (fun oracle runner => ∀ a, runner.phase = .closed (.won a) →
        a.oracleId = some oracle.id) (oraclesOf d call) s.runners :=
      sound.runners.imp fun oracle runner hrunner a hwon => by
        obtain ⟨_, -, -, _, -, rfl⟩ := hrunner.2.won a (Or.inr hwon)
        exact congrArg some (congrArg OracleSpec.id hrunner.1)
    have hchosen : ∀ accepted : List Attestation,
        ((quorum d.feed.minimalOracles accepted).filterMap Attestation.oracleId).Subperm
          (accepted.filterMap Attestation.oracleId) := fun accepted =>
      ((List.take_sublist _ _).filterMap _).subperm.trans ((sortBy_perm _ _).filterMap _).subperm
    rw [hids]
    exact (hchosen _).trans (ids_sublist_of_closed hwon hclosed).subperm

/-- Once it has an outcome, a call has left no fetch behind. -/
theorem Sound.tidy (sound : Sound d codec transport now call s) {o : Except AggregationError AggregatedPrices}
    (h : s.outcome = some o) : Tidy d transport call s o := by
  have hended : ∀ runner ∈ s.runners, ∀ task ∈ runner.tasks, task.Started →
      (task.Settled ∧ task.fetch.Settles) ∨ task.phase = .cancelled := by
    intro runner hrunner task htask hstarted
    obtain ⟨result, hclosed⟩ := sound.closed o h runner hrunner
    obtain ⟨_, -, -, hsound⟩ := Forall₂.exists_left sound.runners hrunner
    have hend := hsound.ended result hclosed task htask
    cases hphase : task.phase with
    | created => exact absurd hphase hstarted.1
    | running => exact absurd hphase hend.2
    | settled => exact Or.inl ⟨Or.inl hphase, hsound.settles task htask (Or.inl hphase)⟩
    | seen => exact Or.inl ⟨Or.inr hphase, hsound.settles task htask (Or.inr hphase)⟩
    | cancelled => exact Or.inr rfl
    | dropped => exact absurd hphase hstarted.2
  refine ⟨hended, fun runner hrunner task htask hstarted hhangs => ?_, bind_le_of_forall₂ ?_,
    fun untimed uncancelled => ?_, fun p hp => sound.once (hp ▸ h)⟩
  · refine (hended runner hrunner task htask hstarted).resolve_left ?_
    rintro ⟨-, delay, outcome, hsettles⟩
    cases hhangs.symm.trans hsettles
  · exact sound.runners.imp fun _ _ hrunner => hrunner.1 ▸ hrunner.2.started_le
  · have hgoing : s.stop = none := Option.eq_none_iff_forall_ne_some.mpr fun e he => by
      cases sound.stopped e he with
      | timedOut timed | unwritten timed => cases untimed.symm.trans timed
      | unreachable timed => cases untimed.symm.trans timed
      | cancelled counted => cases uncancelled.symm.trans counted
    refine bind_of_forall₂ (Forall₂.imp_mem sound.runners.flip fun runner hrunner oracle hsound => ?_).flip
    obtain ⟨rfl, hsound⟩ := hsound
    obtain ⟨result, hclosed⟩ := sound.closed o h runner hrunner
    rw [hgoing] at hsound
    exact hsound.started_eq hclosed

end

end CallState

end Solvency
