import Solvency.Cell.Builder
import Solvency.Cell.Reader
import Solvency.Position.Basic

/-!
Account cells. The account of a borrower stores the code version, the addresses of the master and of the owner, a
dictionary of 64-bit principals under asset ids, the user state, a dictionary of rewards and two optional backups.
-/

namespace Solvency

/-- The width of the asset ids that principals are stored under. -/
def principalKeyBits : Nat := 256

def principalBits : Nat := 64

/-- Why an account cell is no position. -/
structure AccountError where
  cause : CellError
  deriving DecidableEq, Repr

def AccountError.message (e : AccountError) : Text := "failed to decode user account data: " ++ e.cause.message

namespace Position

/-- The principals of a dictionary, keyed by the decimal text of the asset's id. -/
def principalsOf (d : Dictionary) : Except CellError (Table Text Int) := do
  let rows ← d.entries.mapM fun entry => do
    let principal ← entry.2.parse (.int principalBits)
    return (Text.decimal entry.1, principal)
  return .ofList rows

/-- The fields of an account, without the address that it was found at. -/
def reader : CellReader Position := do
  let codeVersion ← CellReader.coins
  let masterAddress ← CellReader.address
  let ownerAddress ← CellReader.address
  let principals ← principalsOf (← CellReader.dictionary principalKeyBits)
  let userState ← CellReader.int 64
  let rewards ← CellReader.dictionary principalKeyBits
  let firstBackup ← CellReader.maybeRef
  let secondBackup ← CellReader.maybeRef
  return { principals, codeVersion, userState, firstBackup, secondBackup, rewards := some rewards,
           masterAddress := some masterAddress, ownerAddress := some ownerAddress }

def ofAccount (cell : Cell) (address : Option Text) : Except AccountError Position :=
  match cell.parse reader with
  | .ok position => .ok { position with address }
  | .error cause => .error ⟨cause⟩

/-- The cell of an account with given fields, whose principals are given by asset id. -/
def accountCell (codeVersion : Int) (masterAddress ownerAddress : Text) (principals : List (Int × Int))
    (userState : Int) (rewards : Dictionary) (firstBackup secondBackup : Option Cell) : Cell :=
  let stored := Dictionary.ofList (principals.map fun p => (p.1, .ofParts [.int principalBits p.2] []))
  let header := CellBuilder.empty.token (.coins 0 codeVersion)
    |>.token (.address 267 masterAddress) |>.token (.address 267 ownerAddress)
  header.maybeRef stored.root? |>.token (.int 64 userState) |>.maybeRef rewards.root?
    |>.maybeRef firstBackup |>.maybeRef secondBackup |>.cell

end Position

end Solvency
