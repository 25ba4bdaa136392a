import Solvency.Asset.Basic
import Solvency.Cell.Dictionary
import Solvency.Table

/-!
Positions: a signed principal per asset, positive for a supply and negative for a debt. The balance of an asset is the
principal times the index on its side.
-/

namespace Solvency

/-- What a borrower holds and owes, with what else the account records. -/
structure Position where
  principals : Table Text Int := .empty
  address : Option Text := none
  ownerAddress : Option Text := none
  masterAddress : Option Text := none
  codeVersion : Int := 0
  userState : Int := 0
  rewards : Option Dictionary := none
  firstBackup : Option Cell := none
  secondBackup : Option Cell := none

namespace Position

/-- The principal in an asset; zero if the position does not name it. -/
def principal (position : Position) (asset : Text) : Int := (position.principals.get? asset).getD 0

def balanceOf (principal : Int) (state : AssetState) : Int :=
  if principal = 0 then 0
  else if 0 < principal then scaled principal state.supplyIndex indexScale
  else scaled principal state.borrowIndex indexScale

def balance (position : Position) (asset : Text) (state : AssetState) : Int :=
  balanceOf (position.principal asset) state

/-- The balance in an asset, where a supply below the dust of its terms counts as nothing. -/
def balanceWithoutDust (position : Position) (asset : Text) (state : AssetState) (terms : AssetTerms) : Int :=
  let principal := position.principal asset
  if 0 < principal ∧ principal < terms.dust then 0 else balanceOf principal state

/-- The position with `delta` more principal in an asset. Rewards and backups are not carried over. -/
def change (position : Position) (asset : Text) (delta : Int) : Position :=
  { position with
    principals := position.principals.insert asset (position.principal asset + delta)
    rewards := none
    firstBackup := none
    secondBackup := none }

def hasNoDebt (position : Position) : Bool := position.principals.values.all fun principal => 0 ≤ principal

end Position

end Solvency
