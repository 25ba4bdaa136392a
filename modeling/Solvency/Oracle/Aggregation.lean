import Solvency.Oracle.Median
import Solvency.Oracle.Payload
import Solvency.Oracle.Race
import Solvency.Oracle.Verification

/-!
Aggregation of prices. All oracles are raced across all endpoints; when every race has a result, the usable
attestations are counted, the newest ones up to the quorum are taken, and their medians are packed with the proofs.
-/

namespace Solvency

/-- Why there are no aggregated prices. -/
inductive AggregationError where
  /-- Fewer attestations are usable than are required. The error is that of the last oracle that gave none. -/
  | outdated (accepted : Nat) (required : Int) (lastError : Option TransportError)
  | transport (error : TransportError)
  | cancelled
  /-- An asset is named by a text that cannot be encoded. -/
  | assetName
  /-- The report of a failure would hold a number of too many digits: the id of an oracle, or the timeout. -/
  | unreportable
  | clock (cause : ArithmeticError)
  | median (cause : MedianError)
  | packing (cause : PackError)
  deriving DecidableEq, Repr

/-- The text that reports that too few attestations are usable. -/
def outdatedMessage (accepted : Nat) (required : Int) (lastError : Option TransportError) : Text :=
  let counts := "prices are outdated: " ++ Text.decimal accepted ++ " of " ++ Text.decimal required
    ++ " required oracles accepted"
  match lastError with
  | some e => counts ++ " (last error: " ++ e.message ++ ")"
  | none => counts

/-- Prices that a quorum of oracles agrees on, with the payload that proves them. -/
structure AggregatedPrices where
  prices : Table Text Int
  minTimestamp : Int
  payload : Cell
  oracleIds : List Int

/-- The price of an asset, if it has been aggregated. -/
def AggregatedPrices.get? (p : AggregatedPrices) (asset : Text) : Option Int := p.prices.get? asset

namespace Aggregation

/-- The usable attestations in the order of their oracles, and the error of the last oracle that gave none. -/
structure Sifted where
  accepted : List Attestation
  lastError : Option TransportError

/-- What the results of the races leave to work with. -/
def sift (assets : List Text) (now : Instant) (ttl : Int) : List RaceResult → Except AggregationError Sifted
  | [] => .ok ⟨[], none⟩
  | .cancelled :: _ => .error .cancelled
  | .unreportable :: _ => .error .unreportable
  | .lost e :: rest => do
    let later ← sift assets now ttl rest
    return { later with lastError := later.lastError <|> some e }
  | .won a :: rest => do
    let rejection ← (a.verify assets now ttl).mapError .clock
    let later ← sift assets now ttl rest
    if rejection.isSome then return later
    return { later with accepted := a :: later.accepted }

/-- The attestations from the newest on; those of one time keep their order. -/
def newestFirst (as : List Attestation) : List Attestation :=
  sortBy (fun a b => decide (b.timestamp ≤ a.timestamp)) as

/-- The newest attestations up to the required number; a negative number leaves out as many of the oldest. -/
def quorum (required : Int) (accepted : List Attestation) : List Attestation :=
  let count := if 0 ≤ required then required.toNat else accepted.length - (-required).toNat
  (newestFirst accepted).take count

/-- The medians of a quorum, packed. -/
def reduce (codec : Codec) (assets : List Text) (quorum : List Attestation) :
    Except AggregationError AggregatedPrices := do
  let rows ← assets.mapM fun asset => do
    return (asset, ← (medianPrice quorum asset).mapError .median)
  let prices := Table.ofList rows
  let payload ← (packPayload codec prices quorum).mapError .packing
  return {
    prices, payload
    minTimestamp := (quorum.map Attestation.timestamp).min?.getD 0
    oracleIds := quorum.filterMap Attestation.oracleId }

/-- What the results of all races come to. -/
def conclude (d : Deployment) (codec : Codec) (now : Instant) (results : List RaceResult) :
    Except AggregationError AggregatedPrices := do
  let ids ← match d.assetIds? with
    | some ids => pure ids
    | none => throw .assetName
  let required := d.feed.minimalOracles
  let sifted ← sift ids.keys now d.feed.ttl results
  if sifted.accepted.length < required then
    throw (.outdated sifted.accepted.length required sifted.lastError)
  reduce codec ids.keys (quorum required sifted.accepted)

end Aggregation

/-- What is asked of one aggregation. Oracles and endpoints default to those of the deployment; the call is given up
    after a timeout, and its caller may cancel it once a number of fetches has started. -/
structure AggregationCall where
  oracles : Option (List OracleSpec) := none
  endpoints : Option (List Endpoint) := none
  timeout : Option Duration := none
  cancelAfter : Option Int := none

/-- How an aggregation went: its outcome, if it ever ends, and the races that were started. -/
structure Aggregation where
  outcome : Option (Except AggregationError AggregatedPrices)
  races : List Race

namespace Aggregation

def started (a : Aggregation) : List Fetch := a.races.flatMap fun race => race.settled ++ race.unsettled

/-- The fetches that were cancelled in the end. -/
def cancelled (a : Aggregation) : List Fetch := a.races.flatMap Race.unsettled

/-- An aggregation that starts nothing. -/
def refused (e : AggregationError) : Aggregation := ⟨some (.error e), []⟩

/-- The aggregation whose races run until they have a result or the timeout has passed. -/
def settle (d : Deployment) (codec : Codec) (now : Instant) (timeout : Option Duration) (races : List Race) :
    Aggregation :=
  match races.mapM Race.result with
  | some results => ⟨some (conclude d codec now results), races⟩
  | none => ⟨timeout.map fun timeout => .error (.transport (.timedOut timeout)), races⟩

/-- An aggregation that is given up once all fetches have started. -/
def brokenOff (e : AggregationError) (races : List Race) : Aggregation := ⟨some (.error e), races⟩

/-- What is reported of a timeout that has passed. -/
def timeoutError (timeout : Duration) : AggregationError :=
  if timeout.isWritable then .transport (.timedOut timeout) else .unreportable

/-- One aggregation of a deployment's prices. Whether its timeout can be kept, and has passed, is looked at first. -/
def run (d : Deployment) (codec : Codec) (transport : Transport) (now : Instant) (call : AggregationCall) :
    Aggregation :=
  let oracles := call.oracles.getD d.feed.oracles
  let endpoints := call.endpoints.getD d.feed.endpoints
  let started := oracles.map (Race.brokenOff transport endpoints)
  let cancelledBy (fetches : Int) : Bool := call.cancelAfter.any fun count => count ≤ fetches
  if cancelledBy 0 then refused .cancelled
  else
    match call.timeout, call.timeout.map Instant.deadline with
    | some timeout, some .passed => refused (timeoutError timeout)
    | some _, some .unreachable => refused (.clock .tooLarge)
    | some timeout, some .immediate => brokenOff (.transport (.timedOut timeout)) started
    | _, _ =>
      if cancelledBy (oracles.length * endpoints.length) then brokenOff .cancelled started
      else settle d codec now call.timeout (oracles.map (Race.run codec transport endpoints))

end Aggregation

end Solvency
