import Solvency.Asset.Store

/-!
Families of stores under one clock. A family starts with one store, and accruing a store adds a new one; a request
speaks to one store of the family, and whether it is granted or refused, the other stores stay as they are.
-/

namespace Solvency

/-- Stores that read the same clock. -/
structure StoreFamily where
  clock : Instant
  stores : List AssetStore

/-- What a family can be asked for. -/
inductive StoreRequest where
  | setClock (now : Instant)
  | decode (states terms : Option Dictionary)
  | ids
  | terms (key : Text)
  | state (key : Text)
  | contents
  | project (key : Text) (target : Int)
  | currentRates (key : Text)
  | updateCurrentRates (forward : Int)

/-- What a family answers. -/
inductive StoreAnswer where
  | done
  | ids (ids : Table Text Int)
  | terms (terms : Option AssetTerms)
  | state (state : Option AssetState)
  | contents (rows : List (Text × Option AssetTerms × Option AssetState))
  | projection (projection : Projection)

namespace StoreFamily

def ofStore (clock : Instant) (store : AssetStore) : StoreFamily := ⟨clock, [store]⟩

/-- The present time in whole seconds. -/
def now (f : StoreFamily) : Except StoreError Int := f.clock.seconds.mapError .clock

/-- A request to the store at a place, which exists: the family after it, and the answer. -/
def stepAt (f : StoreFamily) (place : Nat) (store : AssetStore) :
    StoreRequest → StoreFamily × Except StoreError StoreAnswer
  | .setClock now => ({ f with clock := now }, .ok .done)
  | .decode states terms =>
    match store.decode states terms with
    | .ok store => ({ f with stores := f.stores.set place store }, .ok .done)
    | .error e => (f, .error e)
  | .ids => (f, .ok (.ids store.ids))
  | .terms key => (f, .ok (.terms (store.terms.get? key)))
  | .state key => (f, .ok (.state (store.states.get? key)))
  | .contents => (f, .ok (.contents store.contents))
  | .project key target => (f, (store.project key target).map .projection)
  | .currentRates key => (f, (f.now >>= store.project key).map .projection)
  | .updateCurrentRates forward =>
    match f.now >>= fun now => store.accrue (now + forward) with
    | .ok accrued => ({ f with stores := f.stores ++ [accrued] }, .ok (.contents accrued.contents))
    | .error e => (f, .error e)

/-- A request to the store at a place; there is no answer where there is no store. -/
def step (f : StoreFamily) (place : Nat) (request : StoreRequest) :
    StoreFamily × Option (Except StoreError StoreAnswer) :=
  match f.stores[place]? with
  | some store => let (f, answer) := f.stepAt place store request; (f, some answer)
  | none => (f, none)

/-- The family after requests that were made one after another, each to the store at its place. -/
def after (f : StoreFamily) (requests : List (Nat × StoreRequest)) : StoreFamily :=
  requests.foldl (fun f request => (f.step request.1 request.2).1) f

end StoreFamily

end Solvency
