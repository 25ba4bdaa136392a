import Solvency.Asset.Accrual
import Solvency.Asset.Record
import Solvency.Cell.Dictionary
import Solvency.Instant
import Solvency.Table

/-!
Asset stores: the decoded terms and states of a fixed set of assets. Each of the two tables is empty or covers every
asset, because it is replaced as a whole or not at all.
-/

namespace Solvency

/-- The two kinds of snapshots that a chain offers of its assets. -/
inductive SnapshotKind where
  | terms
  | states
  deriving DecidableEq, Repr

def SnapshotKind.name : SnapshotKind → Text
  | .terms => "config"
  | .states => "data"

/-- Why a store could not do what it was asked for. -/
inductive StoreError where
  | missingEntry (kind : SnapshotKind) (key : Text)
  | malformedEntry (kind : SnapshotKind) (key : Text) (cause : CellError)
  /-- The asset that was asked for has no terms or no state. -/
  | notDecoded (key : Text)
  /-- An asset that has to be accrued along with the others has no terms or no state. -/
  | cannotAccrue (key : Text)
  /-- The present time cannot be told. -/
  | clock (fault : ClockFault)
  deriving DecidableEq, Repr

def StoreError.message : StoreError → Text
  | .missingEntry kind key => "asset " ++ key ++ " missing from " ++ kind.name ++ " snapshot"
  | .malformedEntry kind key cause =>
    "failed to decode " ++ kind.name ++ " of asset " ++ key ++ ": " ++ cause.message
  | .notDecoded key => "asset " ++ key ++ " has not been decoded"
  | .cannotAccrue key => key
  | .clock fault => fault.message

/-- What is known about the assets. -/
structure AssetStore where
  ids : Table Text Int
  terms : Table Text AssetTerms
  states : Table Text AssetState

namespace AssetStore

/-- The store of some assets of which nothing is known yet. -/
def ofIds (ids : List Int) : AssetStore where
  ids := .ofList (ids.map fun id => (Text.decimal id, id))
  terms := .empty
  states := .empty

/-- The entry of every asset in a snapshot, as `reader` finds it; the first asset without one is reported. -/
def decodeEach {α : Type} (ids : Table Text Int) (kind : SnapshotKind) (reader : CellReader α) (d : Dictionary) :
    Except StoreError (Table Text α) := do
  let rows ← ids.rows.mapM fun row =>
    match d.get? row.2 with
    | none => .error (.missingEntry kind row.1)
    | some entry =>
      match entry.parse reader with
      | .ok value => .ok (row.1, value)
      | .error cause => .error (.malformedEntry kind row.1 cause)
  return .ofList rows

/-- The store with the tables of the given snapshots; a snapshot that is left out changes nothing. -/
def decode (s : AssetStore) (states terms : Option Dictionary) : Except StoreError AssetStore := do
  let states ← match states with
    | some d => decodeEach s.ids .states AssetState.reader d
    | none => pure s.states
  let terms ← match terms with
    | some d => decodeEach s.ids .terms AssetTerms.reader d
    | none => pure s.terms
  return { s with terms, states }

/-- The terms and the state of an asset, if both are known. -/
def decoded? (s : AssetStore) (key : Text) : Option (AssetTerms × AssetState) :=
  match s.terms.get? key, s.states.get? key with
  | some terms, some state => some (terms, state)
  | _, _ => none

/-- An asset accrued up to `target`; the store does not change. -/
def project (s : AssetStore) (key : Text) (target : Int) : Except StoreError Projection :=
  match s.decoded? key with
  | some (terms, state) => .ok (terms.project state target)
  | none => .error (.notDecoded key)

/-- The store with every asset accrued up to `target`. -/
def accrue (s : AssetStore) (target : Int) : Except StoreError AssetStore := do
  let rows ← s.ids.rows.mapM fun row =>
    match s.decoded? row.1 with
    | some (terms, state) => .ok (row.1, (terms.project state target).state)
    | none => .error (.cannotAccrue row.1)
  return { s with states := .ofList rows }

/-- Every asset with what is known about it. -/
def contents (s : AssetStore) : List (Text × Option AssetTerms × Option AssetState) :=
  s.ids.keys.map fun key => (key, s.terms.get? key, s.states.get? key)

end AssetStore

end Solvency
