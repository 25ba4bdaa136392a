import Solvency.Deployment.Preset
import Solvency.Deployment.Validation
import Solvency.Document.Integer
import Solvency.Environment.Assignment
import Solvency.Yaml.Reader

/-!
Loading of deployments from configuration files. The sections of the file override a preset, or the defaults where no
preset is named; references to variables are replaced first, and the deployment that comes out is validated.
-/

namespace Solvency

/-- Why no deployment could be loaded. -/
inductive LoadError where
  /-- There is no file at the path, or none in the default place. -/
  | missing (path : Option Text)
  | assignment (cause : AssignmentError)
  /-- The file stands for no document. -/
  | file (fault : Yaml.Fault)
  /-- The references of the document cannot be replaced. -/
  | unresolved (fault : ResolveFault)
  /-- A map is needed where something else stands. -/
  | notMap
  /-- Parts are needed where something without parts stands. -/
  | withoutParts
  /-- A list or a map where the name of a preset is needed. -/
  | compoundPreset
  | unknownPreset (name : Text)
  | integer (cause : IntegerError)
  /-- An integer with too many digits where a text is needed. -/
  | tooLong
  | invalid (cause : DeploymentError)
  deriving DecidableEq, Repr

/-- A path as it is reported: without repeated separators and without steps that stay in place. -/
def displayPath (path : Text) : Text :=
  let steps := (path.splitOn (.char '/')).filter fun step => !step.isEmpty && step ≠ ([.char '.'] : Text)
  let separators := (path.takeWhile (· = .char '/')).length
  let root : Text := if separators = 0 then "" else if separators = 2 then "//" else "/"
  if separators = 0 ∧ steps.isEmpty then "." else root ++ Text.intercalate "/" steps

/-- The text that reports the error, for the errors that have one. -/
def LoadError.message? : LoadError → Option Text
  | .missing (some path) => some ("Config file not found: " ++ displayPath path)
  | .assignment cause => some cause.message
  | .unresolved (.name fault) => some fault.message
  | .unknownPreset name => some ("Unknown preset '" ++ name ++ "'")
  | .file fault => fault.message?
  | .invalid cause => cause.message?
  | _ => none

/-- Settings under their names. -/
abbrev Settings := List (Scalar × Document)

namespace Document

/-- The settings that a map holds. -/
def settings : Document → Except LoadError Settings
  | .map entries => .ok entries
  | _ => .error .notMap

/-- The parts of a document one after another: the items of a list, the keys of a map, the characters of a text. -/
def parts : Document → Except LoadError (List Document)
  | .list items => .ok items
  | .map entries => .ok (entries.map fun entry => .scalar entry.1)
  | .scalar (.text value) => .ok (value.map fun point => .ofText [point])
  | .scalar _ => .error .withoutParts

end Document

namespace Settings

/-- The text of a setting, or `base` if it is not set. -/
def text (s : Settings) (name base : Text) : Except LoadError Text :=
  match Document.lookup name s with
  | some value => if value.hasDisplay then .ok value.display else .error .tooLong
  | none => .ok base

/-- The integer of a setting, or `base` if it is not set. -/
def integer (s : Settings) (name : Text) (base : Int) : Except LoadError Int :=
  match Document.lookup name s with
  | some value => value.toInteger.mapError .integer
  | none => .ok base

/-- The settings under a name, none if it is not set. -/
def nested (s : Settings) (name : Text) : Except LoadError Settings :=
  match Document.lookup name s with
  | some value => value.settings
  | none => .ok []

/-- The parts of a setting, each read from settings of its own, or `base` if it is not set. -/
def each {α : Type} (s : Settings) (name : Text) (base : List α) (read : Settings → Except LoadError α) :
    Except LoadError (List α) :=
  match Document.lookup name s with
  | some value => do (← value.parts).mapM fun part => do read (← part.settings)
  | none => .ok base

def preset (s : Settings) : Except LoadError Deployment :=
  match Document.lookup "preset" s with
  | none => .ok {}
  | some name =>
    if name.isVacant then .ok {}
    else
      match name with
      | .scalar value =>
        match Deployment.preset? value.display with
        | some preset => .ok preset
        | none => if value.hasDisplay then .error (.unknownPreset value.display) else .error .tooLong
      | _ => .error .compoundPreset

end Settings

def OracleSpec.ofSettings (s : Settings) : Except LoadError OracleSpec := do
  let base : OracleSpec := {}
  let id ← s.integer "id" base.id
  let address ← s.text "address" base.address
  return { id, address }

def AssetSpec.ofSettings (s : Settings) : Except LoadError AssetSpec := do
  let base : AssetSpec := {}
  let name ← s.text "name" base.name
  let decimals ← s.integer "decimals" base.decimals
  return { name, decimals }

/-- The feed that settings describe, on top of another one. -/
def PriceFeed.override (base : PriceFeed) (s : Settings) : Except LoadError PriceFeed := do
  let endpoints ← match Document.lookup "endpoints" s with
    | some value => value.parts
    | none => pure base.endpoints
  let oracles ← s.each "oracles" base.oracles OracleSpec.ofSettings
  let minimalOracles ← s.integer "minimal_oracles" base.minimalOracles
  let ttl ← s.integer "ttl_seconds" base.ttl
  let requestTimeout ← s.integer "request_timeout" base.requestTimeout
  return { endpoints, oracles, minimalOracles, ttl, requestTimeout }

namespace Deployment

def ofSettings (s : Settings) : Except LoadError Deployment := do
  let base ← s.preset
  let master ← s.nested "master"
  let masterAddress ← master.text "address" base.masterAddress
  let masterVersion ← master.integer "version" base.masterVersion
  let scales ← s.nested "params"
  let params ← MasterParams.readFields scales.integer
  let feed ← base.feed.override (← s.nested "price_feed")
  let assets ← s.each "assets" base.assets AssetSpec.ofSettings
  return { masterAddress, masterVersion, params, feed, assets }

/-- The valid deployment that a document describes in an environment, where references are replaced down to a depth; a
    vacant document has no settings. -/
def ofDocument (depth : Nat) (env : Environment) (document : Document) : Except LoadError Deployment := do
  let settings ← if document.isVacant then pure []
    else (← (env.resolve depth document).mapError .unresolved).settings
  let deployment ← ofSettings settings
  deployment.validate.mapError .invalid
  return deployment

/-- The valid deployment that a configuration file describes in an environment. -/
def ofText (depth : Nat) (env : Environment) (text : String) : Except LoadError Deployment :=
  match Yaml.read text with
  | .ok document => ofDocument depth env document
  | .error fault => .error (.file fault)

end Deployment

end Solvency
