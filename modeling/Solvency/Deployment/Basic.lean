import Solvency.Digest
import Solvency.Document.Basic
import Solvency.Health.Params
import Solvency.Table
import Solvency.Text.Utf8

/-!
Deployments: a lending master with its parameters, the assets it lends, and the feed of its prices. An asset is known
by the digest of its name, and the key of an asset is that number in decimal digits. A name may hold a surrogate, which
nothing refuses before the digest is asked for.
-/

namespace Solvency

/-- The number that an asset of a name is known by; there is none for a name that cannot be encoded. -/
def assetId? (name : Text) : Option Int := (Text.utf8? name).map fun bytes => (Digest.digestNumber bytes : Int)

/-- An asset of a deployment. -/
structure AssetSpec where
  name : Text := ""
  decimals : Int := 9
  deriving DecidableEq, Repr

namespace AssetSpec

/-- Whether there is a number for the asset. -/
def hasId (asset : AssetSpec) : Bool := (assetId? asset.name).isSome

/-- The number of the asset, zero if there is none. -/
def id (asset : AssetSpec) : Int := (assetId? asset.name).getD 0

def key (asset : AssetSpec) : Text := Text.decimal asset.id

end AssetSpec

/-- An oracle that attests prices. -/
structure OracleSpec where
  id : Int := 0
  address : Text := ""
  deriving DecidableEq, Repr

/-- The node that oracles are read from where none is configured. -/
def defaultEndpoint : Text := "https://api.stardust-mainnet.iotaledger.net"

/-- Where prices come from and how many oracles have to agree. Endpoints are kept as they are configured. -/
structure PriceFeed where
  endpoints : List Document := [.ofText defaultEndpoint]
  oracles : List OracleSpec := []
  minimalOracles : Int := 3
  ttl : Int := 120
  requestTimeout : Int := 30

/-- A lending deployment. -/
structure Deployment where
  masterAddress : Text := ""
  masterVersion : Int := 0
  params : MasterParams := {}
  feed : PriceFeed := {}
  assets : List AssetSpec := []

namespace Deployment

/-- The numbers of the assets under their keys, where each asset has one. -/
def assetIds (d : Deployment) : Table Text Int := .ofList (d.assets.map fun asset => (asset.key, asset.id))

/-- The numbers of the assets under their keys, unless a name cannot be encoded. -/
def assetIds? (d : Deployment) : Option (Table Text Int) :=
  if d.assets.all AssetSpec.hasId then some d.assetIds else none

def assetByName? (d : Deployment) (name : Text) : Option AssetSpec := d.assets.find? (·.name = name)

end Deployment

end Solvency
