import Solvency.Asset.Store
import Solvency.Text.Integer

/-!
Where assets and prices come from. An asset source lists keys and may know the terms and the state of a key; the id of
an asset is the integer that its key stands for. A price source may know the price of a key.
-/

namespace Solvency

/-- The assets that a position is judged by. -/
structure AssetSource where
  keys : List Text
  terms : Text → Option AssetTerms
  state : Text → Option AssetState

/-- A price per key, for what has one. -/
abbrev PriceSource := Text → Option Int

/-- The assets in their order, each under its key with its id; none if a key is no integer. -/
def AssetSource.assets? (source : AssetSource) : Option (List (Text × Int)) :=
  source.keys.mapM fun key => (Text.readInteger key).map fun id => (key, id)

/-- The assets of a store, with what it has decoded of them. -/
def AssetStore.source (store : AssetStore) : AssetSource where
  keys := store.ids.keys
  terms := store.terms.get?
  state := store.states.get?

/-- A row of an asset source. -/
structure AssetRow where
  terms : Option AssetTerms
  state : Option AssetState

def AssetSource.ofTable (rows : Table Text AssetRow) : AssetSource where
  keys := rows.keys
  terms key := (rows.get? key).bind AssetRow.terms
  state key := (rows.get? key).bind AssetRow.state

end Solvency
