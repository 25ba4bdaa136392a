import Solvency.Oracle.Attestation
import Solvency.Ratio
import Solvency.Sorting

/-!
Medians of prices: the middle one of an odd number, and of an even number the mean of the middle pair, rounded down.
-/

namespace Solvency

/-- Why there is no median. -/
inductive MedianError where
  | empty
  | missingPrice (asset : Text)
  deriving DecidableEq, Repr

/-- The numbers in ascending order. -/
def ascending (ns : List Int) : List Int := sortBy (fun a b => decide (a ≤ b)) ns

/-- The middle of numbers, of which there is none without numbers. -/
def median? (ns : List Int) : Option Int :=
  let sorted := ascending ns
  let middle := sorted.length / 2
  if sorted.length % 2 = 1 then sorted[middle]?
  else
    match sorted[middle - 1]?, sorted[middle]? with
    | some low, some high => some (floorMean low high)
    | _, _ => none

/-- The price of an asset in an attestation. -/
def Attestation.price (asset : Text) (a : Attestation) : Except MedianError Int :=
  match a.prices.get? asset with
  | some price => .ok price
  | none => .error (.missingPrice asset)

/-- The median of the prices of an asset. -/
def medianPrice (quorum : List Attestation) (asset : Text) : Except MedianError Int := do
  match median? (← quorum.mapM (Attestation.price asset)) with
  | some price => return price
  | none => throw .empty

end Solvency
