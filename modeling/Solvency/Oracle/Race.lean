import Solvency.Deployment.Basic
import Solvency.Instant
import Solvency.Oracle.Attestation
import Solvency.Sorting

/-!
Races for attestations. An oracle is fetched from every endpoint at once, and the fetches settle in the order of their
delays, or never. The first text that can be read wins; a fetch that fails leaves the race to the next one, and when
all have failed the last failure stands. A failure that names its oracle cannot be reported if the id has too many
digits, and ends the race.
-/

namespace Solvency

/-- An endpoint, as it is configured. -/
abbrev Endpoint := Document

/-- Why an oracle gives no attestation. -/
inductive TransportError where
  /-- What the transport itself reports. -/
  | reported (message : Text)
  /-- Any other failure of the transport, of a kind of its own. -/
  | failed (oracle : Int) (kind message : Text)
  | unreadable (oracle : Int) (fault : AttestationFault)
  /-- A text whose reading ends without a report. -/
  | escaped (oracle : Int) (escape : AttestationEscape)
  | noEndpoints (oracle : Int)
  | timedOut (timeout : Duration)
  deriving DecidableEq, Repr

/-- A failure of a kind, as a part of another text. -/
def displayFailure (kind message : Text) : Text := kind ++ "(" ++ Text.quoted message ++ ")"

/-- What ends the reading of a text, as a part of another text. What the runtime has to say about its depth stands as an
    asterisk. -/
def AttestationEscape.display : AttestationEscape → Text
  | .infiniteTimestamp => displayFailure "OverflowError" "cannot convert float infinity to integer"
  | .tooDeep => displayFailure "RecursionError" "*"

def TransportError.message : TransportError → Text
  | .reported message => message
  | .failed oracle kind message => "oracle " ++ Text.decimal oracle ++ ": " ++ displayFailure kind message
  | .unreadable oracle fault => "oracle " ++ Text.decimal oracle ++ ": " ++ fault.message
  | .escaped oracle escape => "oracle " ++ Text.decimal oracle ++ ": " ++ escape.display
  | .noEndpoints oracle => "no endpoints configured for oracle " ++ Text.decimal oracle
  | .timedOut timeout => "price collection timed out after " ++ timeout.display ++ "s"

/-- How a fetch ends. A failure is given by its kind and its message, which are what is reported of it. -/
inductive FetchOutcome where
  | text (raw : Text)
  | refused (message : Text)
  | failed (kind message : Text)
  | cancelled
  deriving DecidableEq, Repr

/-- When a fetch ends, and how. -/
inductive FetchResponse where
  | settles (delay : Nat) (outcome : FetchOutcome)
  | hangs
  deriving DecidableEq, Repr

/-- How an endpoint answers for an oracle's address. -/
abbrev Transport := Endpoint → Text → FetchResponse

/-- A fetch of an oracle from an endpoint. -/
structure Fetch where
  oracle : OracleSpec
  endpoint : Endpoint
  response : FetchResponse

namespace Fetch

/-- Whether a fetch never settles. -/
def hangs (f : Fetch) : Bool :=
  match f.response with
  | .hangs => true
  | .settles .. => false

/-- Whether a fetch is listed in front of another one: by the text of its endpoint, then by its address. -/
def listedBefore (f g : Fetch) : Bool :=
  if f.endpoint.display = g.endpoint.display then f.oracle.address.le g.oracle.address
  else f.endpoint.display.le g.endpoint.display

/-- Whether a fetch may settle in front of another one. -/
def settlesBefore (f g : Fetch) : Bool :=
  match f.response, g.response with
  | .settles delay _, .settles delay' _ => delay ≤ delay'
  | .hangs, .settles .. => false
  | _, .hangs => true

end Fetch

/-- What an oracle contributes. -/
inductive RaceResult where
  | won (attestation : Attestation)
  | lost (error : TransportError)
  /-- An error that names the oracle, by an id that has too many digits to be written. -/
  | unreportable
  | cancelled

namespace OracleSpec

/-- The race is lost with an error that names the oracle. -/
def lose (oracle : OracleSpec) (error : TransportError) : RaceResult :=
  if Text.isWritable oracle.id then .lost error else .unreportable

/-- A fetch has failed with an error that names the oracle. -/
def report (oracle : OracleSpec) (error : TransportError) : Except TransportError RaceResult :=
  if Text.isWritable oracle.id then .error error else .ok .unreportable

end OracleSpec

/-- What the end of one fetch decides; an error leaves the race to the next fetch. -/
def FetchOutcome.judge (codec : Codec) (oracle : OracleSpec) : FetchOutcome → Except TransportError RaceResult
  | .text raw =>
    match Attestation.read codec raw with
    | .ok attestation => .ok (.won { attestation with oracleId := some oracle.id })
    | .error (.unreadable fault) => oracle.report (.unreadable oracle.id fault)
    | .error (.escaped escape) => .ok (oracle.lose (.escaped oracle.id escape))
  | .refused message => .error (.reported message)
  | .failed kind message => oracle.report (.failed oracle.id kind message)
  | .cancelled => .ok .cancelled

/-- A race: its result if it has one, the fetches that settled, and those that had not settled by then. -/
structure Race where
  result : Option RaceResult
  settled : List Fetch
  unsettled : List Fetch

namespace Race

/-- The race of fetches in the order in which they settle, after what stands if none of them decides it. -/
def runFrom (codec : Codec) (oracle : OracleSpec) (last : RaceResult) : List Fetch → Race
  | [] => ⟨some last, [], []⟩
  | fetch :: rest =>
    match fetch.response with
    | .hangs => ⟨none, [], fetch :: rest⟩
    | .settles _ outcome =>
      match outcome.judge codec oracle with
      | .ok result => ⟨some result, [fetch], rest⟩
      | .error e =>
        let later := runFrom codec oracle (.lost e) rest
        { later with settled := fetch :: later.settled }

/-- The fetches of an oracle, one from each endpoint. -/
def fetches (transport : Transport) (endpoints : List Endpoint) (oracle : OracleSpec) : List Fetch :=
  endpoints.map fun endpoint => ⟨oracle, endpoint, transport endpoint oracle.address⟩

def run (codec : Codec) (transport : Transport) (endpoints : List Endpoint) (oracle : OracleSpec) : Race :=
  runFrom codec oracle (oracle.lose (.noEndpoints oracle.id)) (sortBy Fetch.settlesBefore (fetches transport endpoints oracle))

/-- The race that is broken off before anything has settled. -/
def brokenOff (transport : Transport) (endpoints : List Endpoint) (oracle : OracleSpec) : Race :=
  ⟨none, [], fetches transport endpoints oracle⟩

end Race

end Solvency
