import Solvency.Oracle.Attestation

/-!
Reading of payloads: what the two chains of a payload and the proofs in it hold. A chain is read from its head to the
cell whose flag says that none follows.
-/

namespace Solvency

/-- An oracle in a payload: the proof of what it signed, and its signature. -/
structure ProvedOracle where
  id : Int
  proof : Cell
  signature : List UInt8

/-- The time and the prices that an oracle signed. -/
structure SignedPrices where
  timestamp : Int
  dictionary : Dictionary

mutual
/-- The ids and prices of a chain of medians. -/
def readMedians : Cell → Option (List (Int × Int))
  | .node (.uint 256 id :: .coins _ price :: .maybe 1 more :: _) refs _ _ =>
    if more then (readMediansBehind refs).map ((id, price) :: ·) else some [(id, price)]
  | _ => none
/-- The medians of the chain that the first of some references leads to. -/
def readMediansBehind : List Cell → Option (List (Int × Int))
  | next :: _ => readMedians next
  | [] => none
end

mutual
def readOracles : Cell → Option (List ProvedOracle)
  | .node (.uint 32 id :: .bytes _ signature :: .maybe 1 more :: _) (proof :: refs) _ _ =>
    if more then (readOraclesBehind refs).map (⟨id, proof, signature⟩ :: ·) else some [⟨id, proof, signature⟩]
  | _ => none
/-- The oracles of the chain that the first of some references leads to. -/
def readOraclesBehind : List Cell → Option (List ProvedOracle)
  | next :: _ => readOracles next
  | [] => none
end

/-- The two chains of a payload. -/
def readPayload (payload : Cell) : Option (List (Int × Int) × List ProvedOracle) :=
  match payload.refs with
  | medians :: oracles :: _ => do return (← readMedians medians, ← readOracles oracles)
  | _ => none

/-- The time and the prices in a cell that an oracle signed. -/
def SignedPrices.reader : CellReader SignedPrices := do
  let timestamp ← CellReader.uint 32
  let dictionary ← CellReader.dictionary priceKeyBits
  return { timestamp, dictionary }

end Solvency
