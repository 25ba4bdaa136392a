import Solvency.Health.Snapshot
import Solvency.Health.Units
import Solvency.Position.Basic

/-!
Assessment of a position against assets and prices. Every listed asset with a principal gives a line, in the order of
the source; an asset that is not known or has no price ends the assessment. Totals are sums over the lines.
-/

namespace Solvency

/-- A position with the assets and prices that it is judged by. -/
structure Assessment where
  position : Position
  source : AssetSource
  prices : PriceSource
  params : MasterParams := {}

/-- The assessment of a position against a store, with the default parameters of a master. -/
def AssetStore.assess (store : AssetStore) (position : Position) (prices : PriceSource) : Assessment :=
  { position, source := store.source, prices }

/-- What one asset adds to the totals: a supply with the debt that it allows, a debt, or nothing. -/
inductive HealthLine where
  | nothing
  | supply (asset worth limit : Int)
  | debt (asset worth : Int)
  deriving DecidableEq, Repr

namespace HealthLine

def supplyWorth : HealthLine → Int
  | .supply _ worth _ => worth
  | _ => 0

def debtWorth : HealthLine → Int
  | .debt _ worth => worth
  | _ => 0

/-- The debt that a supply allows. -/
def limit : HealthLine → Int
  | .supply _ _ limit => limit
  | _ => 0

/-- The asset and worth of a supply. -/
def collateral? : HealthLine → Option (Int × Int)
  | .supply asset worth _ => some (asset, worth)
  | _ => none

/-- The asset and worth of a debt. -/
def loan? : HealthLine → Option (Int × Int)
  | .debt asset worth => some (asset, worth)
  | _ => none

/-- What lines add up to, by an amount of each. -/
def total (amount : HealthLine → Int) : List HealthLine → Int
  | [] => 0
  | line :: lines => amount line + total amount lines

end HealthLine

/-- The first asset of the greatest worth above that of `best`. -/
def greatest (best : Option Int × Int) : List (Int × Int) → Option Int × Int
  | [] => best
  | (asset, worth) :: rest => greatest (if best.2 < worth then (some asset, worth) else best) rest

namespace Assessment

def converter (a : Assessment) : Converter := ⟨a.source, a.prices, a.params⟩

/-- The terms and state of an asset, which must both be known. -/
def decoded (a : Assessment) (asset : Text) : Except HealthError (AssetTerms × AssetState) :=
  match a.source.terms asset, a.source.state asset with
  | some terms, some state => .ok (terms, state)
  | _, _ => .error (.undecoded asset)

/-- The line of an asset, whose supplies allow debt in proportion to `weight`. -/
def line (a : Assessment) (weight : AssetTerms → Int) (scale : Int) (asset : Text × Int) :
    Except HealthError HealthLine := do
  if a.position.principal asset.1 = 0 then return .nothing
  let (terms, state) ← a.decoded asset.1
  let balance := a.position.balance asset.1 state
  if 0 < balance then
    let worth ← a.converter.valueOfBalance asset.1 balance
    let limit ← proportion worth (weight terms) scale
    return .supply asset.2 worth limit
  else if balance < 0 then
    let worth ← a.converter.valueOfBalance asset.1 (-balance)
    return .debt asset.2 worth
  else return .nothing

/-- The lines of all listed assets, whose keys must be integers. -/
def lines (a : Assessment) (weight : AssetTerms → Int) (scale : Int) : Except HealthError (List HealthLine) :=
  match a.source.assets? with
  | some assets => assets.mapM (a.line weight scale)
  | none => .error .malformedKey

def summarize (lines : List HealthLine) : HealthSnapshot :=
  let collateral := greatest (none, 0) (lines.filterMap HealthLine.collateral?)
  let loan := greatest (none, 0) (lines.filterMap HealthLine.loan?)
  { totalSupply := HealthLine.total HealthLine.supplyWorth lines
    totalDebt := HealthLine.total HealthLine.debtWorth lines
    totalLimit := HealthLine.total HealthLine.limit lines
    greatestCollateralAsset := collateral.1
    greatestCollateralValue := collateral.2
    greatestLoanAsset := loan.1
    greatestLoanValue := loan.2 }

/-- The health of the position: supplies allow debt up to their liquidation threshold. -/
def health (a : Assessment) : Except HealthError HealthSnapshot := do
  return summarize (← a.lines AssetTerms.liquidationThreshold a.params.liquidationThresholdScale)

def totals (a : Assessment) : Except HealthError (Int × Int) := do
  let health ← a.health
  return (health.totalSupply, health.totalDebt)

/-- The health factor of a snapshot, as part of an assessment. -/
def factor (health : HealthSnapshot) : Except HealthError Binary64 := health.healthFactor.mapError .arithmetic

/-- The health factor after a change of one principal; a change of nothing changes nothing. -/
def factorAfter (a : Assessment) (change : Option (Text × Int)) : Except HealthError Binary64 := do
  let position := match change with
    | some (asset, delta) => if delta = 0 then a.position else a.position.change asset delta
    | none => a.position
  factor (← { a with position }.health)

/-- The value that may still be borrowed: supplies allow debt up to their collateral factor. It is negative beyond
    that. -/
def borrowable (a : Assessment) : Except HealthError Int := do
  let lines ← a.lines AssetTerms.collateralFactor a.params.coefficientScale
  return HealthLine.total HealthLine.limit lines - HealthLine.total HealthLine.debtWorth lines

end Assessment

end Solvency
