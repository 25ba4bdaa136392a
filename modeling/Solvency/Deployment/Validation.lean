import Solvency.Deployment.Basic

/-!
Validation of deployments. Assets are looked at first, then the oracles, then the endpoints; the first fault that is
found is the one that is reported.
-/

namespace Solvency

/-- What is wrong with a deployment. -/
inductive DeploymentError where
  | noAssets
  | repeatedAssetName
  | unnamedAsset
  | decimalsOutOfRange (name : Text) (decimals : Int)
  | quorumTooSmall
  | tooFewOracles (configured : Nat) (required : Int)
  | repeatedOracleId
  | oracleWithoutAddress (id : Int)
  | noEndpoints
  deriving DecidableEq, Repr

/-- The text that reports the fault. There is none if a number in it has too many digits to be written. -/
def DeploymentError.message? : DeploymentError → Option Text
  | .noAssets => some "At least one asset must be configured"
  | .repeatedAssetName => some "Asset names must be unique"
  | .unnamedAsset => some "Asset has no name"
  | .decimalsOutOfRange name decimals =>
    (Text.decimal? decimals).map fun digits => "Asset '" ++ name ++ "' has invalid decimals " ++ digits
  | .quorumTooSmall => some "minimal_oracles must be at least 1"
  | .tooFewOracles configured required =>
    (Text.decimal? required).map fun digits =>
      Text.decimal configured ++ " oracles configured, fewer than minimal_oracles=" ++ digits
  | .repeatedOracleId => some "Oracle ids must be unique"
  | .oracleWithoutAddress id => (Text.decimal? id).map fun digits => "Oracle " ++ digits ++ " has no address"
  | .noEndpoints => some "At least one price endpoint must be configured"

/-- The asset has a name, and its decimals fit a byte. -/
def AssetSpec.check (asset : AssetSpec) : Except DeploymentError Unit :=
  if asset.name.isEmpty then .error .unnamedAsset
  else if 0 ≤ asset.decimals ∧ asset.decimals < 256 then .ok ()
  else .error (.decimalsOutOfRange asset.name asset.decimals)

def OracleSpec.check (oracle : OracleSpec) : Except DeploymentError Unit :=
  if oracle.address.isEmpty then .error (.oracleWithoutAddress oracle.id) else .ok ()

namespace Deployment

/-- There are assets, under names that differ, and each is in order. -/
def checkAssets (d : Deployment) : Except DeploymentError Unit :=
  if d.assets.isEmpty then .error .noAssets
  else if (d.assets.map AssetSpec.name).Nodup then d.assets.forM AssetSpec.check
  else .error .repeatedAssetName

/-- The quorum is positive and can be reached by oracles whose ids differ, and each is in order. -/
def checkOracles (d : Deployment) : Except DeploymentError Unit :=
  if d.feed.minimalOracles < 1 then .error .quorumTooSmall
  else if d.feed.oracles.length < d.feed.minimalOracles then
    .error (.tooFewOracles d.feed.oracles.length d.feed.minimalOracles)
  else if (d.feed.oracles.map OracleSpec.id).Nodup then d.feed.oracles.forM OracleSpec.check
  else .error .repeatedOracleId

/-- The deployment can be used; the first fault if it cannot. -/
def validate (d : Deployment) : Except DeploymentError Unit := do
  d.checkAssets
  d.checkOracles
  if d.feed.endpoints.isEmpty then throw .noEndpoints

end Deployment

end Solvency
