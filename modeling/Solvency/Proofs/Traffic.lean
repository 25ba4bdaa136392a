import Mathlib.Logic.Relation
import Solvency.Proofs.Crowds
import Solvency.Proofs.Stores

/-! Traffic: what calls of store operations do at the lock of their store. Every call goes from one access to the next,
    and whatever ends it, it has left the lock by then: what fails inside is let out first, and what fails while waiting
    gives up its turn. So the threads at the lock are those of calls under way, and there is no other way in or out. -/

namespace Solvency

/-- The accesses that a request makes to the tables of its store, one after another. Snapshots are read before the
    tables are replaced, and the clock before they are looked at, so that a failure there makes none. -/
def StoreFamily.accesses (f : StoreFamily) (store : AssetStore) : StoreRequest → List Access
  | .setClock _ | .ids => []
  | .decode states terms =>
    match store.decode states terms with
    | .ok _ => [.write]
    | .error _ => []
  | .terms _ | .state _ | .project _ _ => [.read]
  | .contents => store.ids.keys.flatMap fun _ => [.read, .read]
  | .currentRates _ | .updateCurrentRates _ =>
    match f.now with
    | .ok _ => [.read]
    | .error _ => []

namespace StoreFamily

/-- The lock covers a request: the store is changed by a writer only, and the answer does not depend on its tables
    unless they are accessed. -/
structure Covers (f : StoreFamily) (place : Nat) (store : AssetStore) (request : StoreRequest) : Prop where
  changes : (f.step place request).1.stores[place]? ≠ some store → f.accesses store request = [.write]
  answers : f.accesses store request = [] → ∀ other : AssetStore, other.ids = store.ids →
    (f.stepAt place other request).2 = (f.stepAt place store request).2

section
variable {f : StoreFamily} {place : Nat} {store other : AssetStore} {request : StoreRequest}

theorem accesses_of_changed (h : f.stores[place]? = some store)
    (hchanged : (f.step place request).1.stores[place]? ≠ some store) : f.accesses store request = [.write] := by
  rcases stores_step request h with hsame | ⟨states, terms, decoded, rfl, hdecoded, -⟩ | ⟨_, accrued, -, hadd⟩
  · rw [hsame] at hchanged
    exact absurd h hchanged
  · rw [accesses, hdecoded]
  · rw [hadd, List.getElem?_append_left (List.getElem?_eq_some_iff.mp h).1] at hchanged
    exact absurd h hchanged

theorem answer_of_no_access (h : f.accesses store request = []) (hids : other.ids = store.ids) :
    (f.stepAt place other request).2 = (f.stepAt place store request).2 := by
  cases request with
  | setClock now => rfl
  | ids => simp only [stepAt, hids]
  | decode states terms =>
    cases hdecode : store.decode states terms with
    | ok decoded => simp [accesses, hdecode] at h
    | error e => simp only [stepAt, hdecode, AssetStore.decode_error_congr hdecode hids]
  | terms key | state key | project key target => simp [accesses] at h
  | contents =>
    cases hkeys : store.ids.keys with
    | nil => simp only [stepAt, AssetStore.contents, hids, hkeys, List.map_nil]
    | cons key keys => simp [accesses, hkeys] at h
  | currentRates key | updateCurrentRates forward =>
    -- The clock fails before any table is looked at.
    cases hnow : f.now with
    | ok now => simp [accesses, hnow] at h
    | error e =>
      simp only [stepAt, hnow]
      rfl

end

end StoreFamily

/-- A call of a store operation: where its thread stands at the lock, if it is there, and the accesses that it has yet
    to make. -/
structure StoreCall where
  phase : Option ThreadPhase
  rest : List Access
  deriving DecidableEq, Repr

/-- The call has returned or failed. -/
def StoreCall.Ended (call : StoreCall) : Prop := call.phase = none ∧ call.rest = []

/-- The calls of operations on one store, and the threads at its lock. -/
structure Traffic where
  crowd : Crowd := {}
  calls : List StoreCall := []

namespace Traffic

/-- Where the threads of calls stand that are at the lock. -/
def standing (calls : List StoreCall) : List ThreadPhase := calls.filterMap StoreCall.phase

/-- One step of one thread. Coming to the lock and entering it, or starting to wait, is one step, as is every other turn
    that the thread has there. -/
inductive Step : Traffic → Traffic → Prop where
  | call {crowd : Crowd} {calls : List StoreCall} (f : StoreFamily) (store : AssetStore) (request : StoreRequest) :
    Step ⟨crowd, calls⟩ ⟨crowd, calls ++ [⟨none, f.accesses store request⟩]⟩
  | come {crowd : Crowd} {calls : List StoreCall} {i : Nat} {access : Access} {rest : List Access} {phase : ThreadPhase}
    (outside : calls[i]? = some ⟨none, access :: rest⟩)
    (stands : (crowd.come access).threads[crowd.threads.length]? = some phase) :
    Step ⟨crowd, calls⟩ ⟨crowd.come access, calls.set i ⟨some phase, rest⟩⟩
  | wake {crowd : Crowd} {calls : List StoreCall} {i place : Nat} {access : Access} {rest : List Access}
    {phase : ThreadPhase} (waits : calls[i]? = some ⟨some (.waiting access), rest⟩)
    (its : crowd.threads[place]? = some (.waiting access))
    (stands : (crowd.move (.enter place)).threads[place]? = some phase) :
    Step ⟨crowd, calls⟩ ⟨crowd.move (.enter place), calls.set i ⟨some phase, rest⟩⟩
  | leave {crowd : Crowd} {calls : List StoreCall} {i place : Nat} {access : Access} {rest : List Access}
    (inside : calls[i]? = some ⟨some (.inside access), rest⟩) (its : crowd.threads[place]? = some (.inside access)) :
    Step ⟨crowd, calls⟩ ⟨crowd.move (.leave place), calls.set i ⟨none, rest⟩⟩
  | failInside {crowd : Crowd} {calls : List StoreCall} {i place : Nat} {access : Access} {rest : List Access}
    (inside : calls[i]? = some ⟨some (.inside access), rest⟩) (its : crowd.threads[place]? = some (.inside access)) :
    Step ⟨crowd, calls⟩ ⟨crowd.move (.leave place), calls.set i ⟨none, []⟩⟩
  | failWaiting {crowd : Crowd} {calls : List StoreCall} {i place : Nat} {access : Access} {rest : List Access}
    (waits : calls[i]? = some ⟨some (.waiting access), rest⟩)
    (its : crowd.threads[place]? = some (.waiting access)) :
    Step ⟨crowd, calls⟩ ⟨crowd.move (.abandon place), calls.set i ⟨none, []⟩⟩
  | failOutside {crowd : Crowd} {calls : List StoreCall} {i : Nat} {rest : List Access}
    (outside : calls[i]? = some ⟨none, rest⟩) :
    Step ⟨crowd, calls⟩ ⟨crowd, calls.set i ⟨none, []⟩⟩

/-- The traffic that some schedule leads to. -/
def Reached : Traffic → Prop := Relation.ReflTransGen Step {}

/-- The threads at the lock are those of the calls, and the counts of the lock are theirs. -/
structure Sound (t : Traffic) : Prop where
  guards : t.crowd.lock.Guards t.crowd.threads
  threads : t.crowd.threads.Perm (standing t.calls)

section
variable {t t' : Traffic} {crowd : Crowd} {calls : List StoreCall} {call : StoreCall} {i place : Nat}
  {access : Access} {phase : ThreadPhase}

theorem standing_perm (h : calls[i]? = some call) :
    (standing calls).Perm (call.phase.toList ++ standing (calls.eraseIdx i)) := by
  refine ((perm_cons_eraseIdx h).filterMap _).trans ?_
  cases hphase : call.phase <;> simp [standing, hphase]

theorem standing_set_perm (h : calls[i]? = some call) (other : StoreCall) :
    (other.phase.toList ++ standing (calls.eraseIdx i)).Perm (standing (calls.set i other)) := by
  refine .trans ?_ ((set_perm_cons h other).filterMap _).symm
  cases hphase : other.phase <;> simp [standing, hphase]

/-- Apart from the thread of one call, the threads at the lock are those of the other calls. -/
theorem others_perm (h : crowd.threads.Perm (standing calls)) {rest : List Access}
    (hcall : calls[i]? = some ⟨some phase, rest⟩) (hplace : crowd.threads[place]? = some phase) :
    (crowd.threads.eraseIdx place).Perm (standing (calls.eraseIdx i)) :=
  List.perm_cons phase |>.mp ((perm_cons_eraseIdx hplace).symm.trans (h.trans (standing_perm hcall)))

theorem Step.threads (step : Step t t') (h : t.crowd.threads.Perm (standing t.calls)) :
    t'.crowd.threads.Perm (standing t'.calls) := by
  cases step with
  | call f store request => simpa [standing] using h
  | @come crowd calls i access rest phase outside stands =>
    have hothers : crowd.threads.Perm (standing (calls.eraseIdx i)) := h.trans (standing_perm outside)
    have hset := standing_set_perm outside ⟨some phase, rest⟩
    rw [Crowd.threads_come stands]
    exact (List.perm_append_singleton _ _).trans ((hothers.cons phase).trans hset)
  | @wake crowd calls i place access rest phase waits its stands =>
    have hset := standing_set_perm waits ⟨some phase, rest⟩
    rw [Crowd.threads_move_enter stands]
    exact (set_perm_cons its phase).trans (((others_perm h waits its).cons phase).trans hset)
  | @leave crowd calls i place access rest inside its =>
    simp only [Crowd.move, its]
    exact (others_perm h inside its).trans (standing_set_perm inside ⟨none, rest⟩)
  | failInside inside its =>
    simp only [Crowd.move, its]
    exact (others_perm h inside its).trans (standing_set_perm inside ⟨none, []⟩)
  | failWaiting waits its =>
    simp only [Crowd.move, its]
    exact (others_perm h waits its).trans (standing_set_perm waits ⟨none, []⟩)
  | failOutside outside => exact h.trans ((standing_perm outside).trans (standing_set_perm outside ⟨none, []⟩))

theorem Step.sound (step : Step t t') (sound : t.Sound) : t'.Sound := by
  refine ⟨?_, step.threads sound.threads⟩
  have guards := sound.guards
  cases step with
  | call | failOutside => exact guards
  | come => exact Crowd.guards_move (Crowd.guards_move guards _) _
  | wake | leave | failInside | failWaiting => exact Crowd.guards_move guards _

theorem Reached.sound (h : Reached t) : t.Sound := by
  induction h with
  | refl => exact ⟨Lock.guards_nil, .nil⟩
  | tail _ step ih => exact step.sound ih

/-- A thread gets inside only where the others let it in. -/
theorem Step.admits (step : Step t t') (guards : t.crowd.lock.Guards t.crowd.threads)
    (hmore : t.crowd.count (.inside access) < t'.crowd.count (.inside access)) : t.crowd.Admits access := by
  cases step with
  | call | failOutside => exact absurd hmore (Nat.lt_irrefl _)
  | wake | leave | failInside | failWaiting => exact Crowd.admits_of_move guards hmore
  | @come crowd calls i other =>
    have hcount : crowd.count (.inside access) = (crowd.move (.arrive other)).count (.inside access) := by
      simp [Crowd.count, Crowd.move]
    exact Crowd.admits_of_arrive (Crowd.admits_of_move (Crowd.guards_move guards (.arrive other)) (hcount ▸ hmore))

end

/-- The threads at the lock are those of calls under way, they and the lock agree, a thread gets inside only where the
    others let it in, and calls that have ended leave the lock as it was in the beginning. -/
structure Orderly (t : Traffic) : Prop where
  crowd : t.crowd.Orderly
  threads : t.crowd.threads.Perm (standing t.calls)
  admitted : ∀ t' access, Step t t' → t.crowd.count (.inside access) < t'.crowd.count (.inside access) →
    t.crowd.Admits access
  free : (∀ call ∈ t.calls, call.Ended) → t.crowd.lock = {}

theorem Sound.orderly {t : Traffic} (sound : t.Sound) : t.Orderly where
  crowd := Crowd.orderly_of_guards sound.guards
  threads := sound.threads
  admitted := fun _ _ step => step.admits sound.guards
  free := fun hended => by
    have hnone : standing t.calls = [] := List.filterMap_eq_nil_iff.mpr fun call hcall => (hended call hcall).1
    exact (Crowd.orderly_of_guards sound.guards).free (hnone ▸ sound.threads).eq_nil

/-- Whatever threads come to a lock and in whatever order they move, it is in order, and so is the traffic at the lock
    of a store, whose operations it covers. -/
theorem lock_orderly :
    (∀ moves : List LockMove, (Crowd.run {} moves).Orderly) ∧ (∀ t : Traffic, Reached t → t.Orderly) ∧
      ∀ (f : StoreFamily) (place : Nat) (store : AssetStore) (request : StoreRequest),
        f.stores[place]? = some store → f.Covers place store request :=
  ⟨fun moves => Crowd.orderly_of_guards (Crowd.guards_run Lock.guards_nil moves), fun _ h => h.sound.orderly,
    fun _ _ _ _ h => ⟨StoreFamily.accesses_of_changed h, fun hnone _ => StoreFamily.answer_of_no_access hnone⟩⟩

/-- A reader inside, a writer that waits for it, and a reader behind the writer. -/
def queued : Traffic where
  crowd := ⟨⟨1, false, 1⟩, [.inside .read, .waiting .write, .waiting .read]⟩
  calls := [⟨some (.inside .read), []⟩, ⟨some (.waiting .write), []⟩, ⟨some (.waiting .read), []⟩]

theorem reached_queued : Reached queued := by
  let f : StoreFamily := .ofStore (.whole 0) (.ofIds [1])
  have hcalls : Reached ⟨{}, [⟨none, [.read]⟩, ⟨none, [.write]⟩, ⟨none, [.read]⟩]⟩ :=
    ((Relation.ReflTransGen.refl.tail (.call f (.ofIds [1]) (.terms "1"))).tail
      (.call f (.ofIds [1]) (.decode none none))).tail (.call f (.ofIds [1]) (.state "1"))
  exact ((hcalls.tail (@Step.come _ _ 0 .read [] (.inside .read) rfl rfl)).tail
    (@Step.come _ _ 1 .write [] (.waiting .write) rfl rfl)).tail
    (@Step.come _ _ 2 .read [] (.waiting .read) rfl rfl)

/-- The reader behind the writer gets inside once the other reader has failed and the writer has given up, and the lock
    is free when it has left. -/
theorem lock_orderly_queued :
    queued.Orderly ∧ ¬queued.crowd.Admits .read ∧
      (∃ t, Reached t ∧ t.calls.length = 3 ∧ (∀ call ∈ t.calls, call.Ended) ∧ t.crowd.lock = {}) ∧
      StoreFamily.Covers (.ofStore (.whole 0) (.ofIds [1])) 0 (.ofIds [1]) (.decode (some .empty) none) := by
  have hleft : Reached ⟨{}, [⟨none, []⟩, ⟨none, []⟩, ⟨none, []⟩]⟩ :=
    (((reached_queued.tail (@Step.failInside _ _ 0 0 .read [] rfl rfl)).tail
      (@Step.failWaiting _ _ 1 0 .write [] rfl rfl)).tail
      (@Step.wake _ _ 2 0 .read [] (.inside .read) rfl rfl rfl)).tail (@Step.leave _ _ 2 0 .read [] rfl rfl)
  have hended : ∀ call ∈ [StoreCall.mk none [], ⟨none, []⟩, ⟨none, []⟩], call.Ended := by
    simp [StoreCall.Ended]
  obtain ⟨-, htraffic, hcovers⟩ := lock_orderly
  exact ⟨htraffic _ reached_queued, fun h => h.1 (by simp [queued]),
    ⟨_, hleft, rfl, hended, (htraffic _ hleft).free hended⟩, hcovers _ 0 _ _ rfl⟩

end Traffic

end Solvency
