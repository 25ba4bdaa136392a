import Solvency.Oracle.Attestation
import Solvency.Sorting

/-!
Payloads: the cell in which aggregated prices travel. Its first reference is a chain of medians, the last asset at the
head; its second is a chain of oracles in ascending order of their ids, each with its signature and a proof of what it
signed.
-/

namespace Solvency

/-- Why a payload cannot be packed. -/
inductive PackError where
  | noMedians
  | noAttestations
  /-- An asset whose key is no number. -/
  | malformedKey (key : Text)
  | cell (cause : CellError)
  | missingOracleId (timestamp : Int)
  | unproved (oracleId : Option Int) (cause : CellError)
  /-- An attestation without an oracle or without a proof, whose report would hold a number of too many digits. -/
  | unreportable
  deriving DecidableEq, Repr

def PackError.message : PackError → Text
  | .noMedians => "no median prices to pack"
  | .noAttestations => "no attestations to pack"
  | .malformedKey key => "asset " ++ Text.quoted key ++ " is no number"
  | .cell cause => cause.message
  | .missingOracleId timestamp => "attestation signed at " ++ Text.decimal timestamp ++ " has no oracle id"
  | .unproved oracleId cause =>
    let oracle := match oracleId with
      | some id => Text.decimal id
      | none => "None"
    "failed to prove attestation of oracle " ++ oracle ++ ": " ++ cause.message
  | .unreportable => Text.digitLimitMessage

/-- Each of the items packed in front of what has been packed so far. -/
def packChain {α : Type} (pack : α → Option Cell → Except PackError Cell) (items : List α) :
    Except PackError (Option Cell) :=
  items.foldlM (fun chain item => some <$> pack item chain) none

/-- The cell of a median, in front of a chain. -/
def medianCell (id price : Int) (next : Option Cell) : Except CellError Cell := do
  let head ← CellBuilder.empty.uint id 256
  let priced ← head.coins price
  return (priced.maybeRef next).cell

/-- A median packed in front of a chain. -/
def packMedian (row : Text × Int) (next : Option Cell) : Except PackError Cell :=
  match Text.readInteger row.1 with
  | some id => (medianCell id row.2 next).mapError .cell
  | none => .error (.malformedKey row.1)

def packMedians (medians : Table Text Int) : Except PackError Cell := do
  match ← packChain packMedian medians.rows with
  | some chain => return chain
  | none => throw .noMedians

namespace Attestation

/-- The cell that an oracle signs: the time, and the dictionary of prices if it has any. -/
def signedCell (a : Attestation) : Except CellError Cell := do
  let head ← CellBuilder.empty.uint a.timestamp 32
  return (head.maybeRef a.dictionary.root?).cell

/-- Why there is no proof of the attestation: what is reported of it names the oracle, if it has one. -/
def unproved (a : Attestation) (cause : CellError) : PackError :=
  if a.oracleId.all Text.isWritable then .unproved a.oracleId cause else .unreportable

/-- The proof that an oracle signed the prices. -/
def proof (codec : Codec) (a : Attestation) : Except PackError Cell :=
  (a.signedCell >>= codec.prove).mapError a.unproved

/-- The attestation with the id of its oracle in front. -/
def identified (a : Attestation) : Except PackError (Int × Attestation) :=
  match a.oracleId with
  | some id => .ok (id, a)
  | none => .error (if Text.isWritable a.timestamp then .missingOracleId a.timestamp else .unreportable)

end Attestation

/-- The cell of an oracle, in front of a chain. -/
def oracleCell (id : Int) (proof : Cell) (signature : List UInt8) (next : Option Cell) : Except CellError Cell := do
  let head ← CellBuilder.empty.uint id 32
  return (((head.ref proof).bytes signature).maybeRef next).cell

/-- An attestation packed in front of a chain. -/
def packOracle (codec : Codec) (entry : Int × Attestation) (next : Option Cell) : Except PackError Cell := do
  let proof ← entry.2.proof codec
  (oracleCell entry.1 proof entry.2.signature next).mapError .cell

def packOracles (codec : Codec) (quorum : List Attestation) : Except PackError Cell := do
  let entries ← quorum.mapM Attestation.identified
  let descending := sortBy (fun a b => decide (b.1 ≤ a.1)) entries
  match ← packChain (packOracle codec) descending with
  | some chain => return chain
  | none => throw .noAttestations

/-- The payload of medians and of the attestations behind them. -/
def packPayload (codec : Codec) (medians : Table Text Int) (quorum : List Attestation) : Except PackError Cell := do
  let prices ← packMedians medians
  let oracles ← packOracles codec quorum
  return ((CellBuilder.empty.ref prices).ref oracles).cell

end Solvency
