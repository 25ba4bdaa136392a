import Solvency.Instant
import Solvency.Oracle.Attestation

/-!
Verification of attestations. An attestation is usable if it is recent and has a positive price for every asset;
otherwise the first of the causes below that applies is the one that is given.
-/

namespace Solvency

/-- Why an attestation is left out. -/
inductive Rejection where
  | stale
  | incomplete
  | nonPositivePrice
  deriving DecidableEq, Repr

def Rejection.name : Rejection → Text
  | .stale => "stale"
  | .incomplete => "incomplete"
  | .nonPositivePrice => "non_positive_price"

/-- The seconds for which an attestation is recent where nothing else is configured. -/
def defaultTtl : Int := 120

namespace Attestation

/-- The cause for which the price of one asset, or its absence, rules the attestation out. -/
def judgePrice (a : Attestation) (asset : Text) : Option Rejection :=
  match a.prices.get? asset with
  | none => some .incomplete
  | some price => if price ≤ 0 then some .nonPositivePrice else none

/-- The cause for which the prices of some assets rule the attestation out. -/
def judgePrices (a : Attestation) (assets : List Text) : Option Rejection :=
  if a.prices.size < assets.length then some .incomplete else assets.findSome? a.judgePrice

/-- The cause for which the attestation is left out, if there is one. -/
def verify (a : Attestation) (assets : List Text) (now : Instant) (ttl : Int) :
    Except ArithmeticError (Option Rejection) := do
  if ← now.isLaterBy a.timestamp ttl then return some .stale
  return a.judgePrices assets

end Attestation

end Solvency
