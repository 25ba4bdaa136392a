import Solvency.Health.Params
import Solvency.Health.Source

/-!
Conversion between the units of an asset: a principal is what a position records, a balance is the principal times
the index on its side, and a value is the balance at the price of the asset.
-/

namespace Solvency

/-- What an amount stands for. -/
inductive AmountUnit where
  | principal
  | balance
  | value
  deriving DecidableEq, Repr

def AmountUnit.name : AmountUnit → Text
  | .principal => "principal"
  | .balance => "balance"
  | .value => "value"

/-- Why a position cannot be judged. -/
inductive HealthError where
  | arithmetic (cause : ArithmeticError)
  | noState (asset : Text)
  | noTerms (asset : Text)
  | noPrice (asset : Text)
  | missingAmount (unit : AmountUnit)
  /-- An asset with a principal whose terms or state are not known. -/
  | undecoded (asset : Text)
  /-- A key of an asset source that is no integer. -/
  | malformedKey
  | noCollateral
  deriving DecidableEq, Repr

/-- The text that reports the error, for the errors that have one. -/
def HealthError.message? : HealthError → Option Text
  | .arithmetic cause => some cause.message
  | .noState asset => some ("asset " ++ asset ++ " has no decoded data")
  | .noTerms asset => some ("asset " ++ asset ++ " has no decoded config")
  | .noPrice asset => some ("no price for asset " ++ asset)
  | .missingAmount unit => some (unit.name ++ " must not be None")
  | .undecoded asset => some ("asset " ++ asset ++ " has not been decoded")
  | .malformedKey => none
  | .noCollateral => some "liquidatable position has no collateral to seize"

/-- The part `y / z` of an amount, cut toward zero. -/
def proportion (amount y z : Int) : Except HealthError Int := (mulDiv amount y z).mapError .arithmetic

/-- The conversions of the assets of a source at given prices. -/
structure Converter where
  source : AssetSource
  prices : PriceSource
  params : MasterParams

namespace Converter

/-- The state of an asset, which must be known. -/
def state (c : Converter) (asset : Text) : Except HealthError AssetState :=
  match c.source.state asset with
  | some state => .ok state
  | none => .error (.noState asset)

/-- The terms of an asset, which must be known. -/
def terms (c : Converter) (asset : Text) : Except HealthError AssetTerms :=
  match c.source.terms asset with
  | some terms => .ok terms
  | none => .error (.noTerms asset)

/-- The price of an asset, which must be known. -/
def price (c : Converter) (asset : Text) : Except HealthError Int :=
  match c.prices asset with
  | some price => .ok price
  | none => .error (.noPrice asset)

/-- The index on the side of an amount. -/
def index (state : AssetState) (amount : Int) : Int :=
  if 0 < amount then state.supplyIndex else state.borrowIndex

def balanceOfPrincipal (c : Converter) (asset : Text) (principal : Int) : Except HealthError Int := do
  if principal = 0 then return 0
  proportion principal (index (← c.state asset) principal) c.params.factorScale

def principalOfBalance (c : Converter) (asset : Text) (balance : Int) : Except HealthError Int := do
  if balance = 0 then return 0
  proportion balance c.params.factorScale (index (← c.state asset) balance)

def valueOfBalance (c : Converter) (asset : Text) (balance : Int) : Except HealthError Int := do
  if balance = 0 then return 0
  let price ← c.price asset
  let terms ← c.terms asset
  proportion balance price terms.unitScale

def balanceOfValue (c : Converter) (asset : Text) (value : Int) : Except HealthError Int := do
  if value = 0 then return 0
  let terms ← c.terms asset
  let price ← c.price asset
  proportion value terms.unitScale price

def valueOfPrincipal (c : Converter) (asset : Text) (principal : Int) : Except HealthError Int := do
  c.valueOfBalance asset (← c.balanceOfPrincipal asset principal)

def principalOfValue (c : Converter) (asset : Text) (value : Int) : Except HealthError Int := do
  c.principalOfBalance asset (← c.balanceOfValue asset value)

def required (unit : AmountUnit) : Option Int → Except HealthError Int
  | some amount => .ok amount
  | none => .error (.missingAmount unit)

/-- The conversion of an amount from one unit into another. -/
def convert (c : Converter) (source target : AmountUnit) (asset : Text) (amount : Option Int) :
    Except HealthError Int := do
  let amount ← required source amount
  match source, target with
  | .principal, .balance => c.balanceOfPrincipal asset amount
  | .principal, .value => c.valueOfPrincipal asset amount
  | .balance, .principal => c.principalOfBalance asset amount
  | .balance, .value => c.valueOfBalance asset amount
  | .value, .balance => c.balanceOfValue asset amount
  | .value, .principal => c.principalOfValue asset amount
  | _, _ => return amount

end Converter

end Solvency
