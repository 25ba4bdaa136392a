import Solvency.Deployment.Basic
import Solvency.Feed.Http

/-!
Attestations from a node. An oracle publishes its attestation as the first feature of an output that its address
stands for: a first request finds the output, a second one reads it.
-/

namespace Solvency

/-- Where the outputs of an address are listed. -/
def outputsUrl (base address : Text) : Text := base ++ "/api/indexer/v1/outputs/nft/" ++ address

/-- Where an output is read. -/
def outputUrl (base output : Text) : Text := base ++ "/api/core/v2/outputs/" ++ output

/-- The entries of the object behind an address. -/
def getObject (depths : FeedDepths) (server : HttpServer) (explain : Text → FeedError) (url : Text) :
    Except FeedFailure (List (Scalar × Document)) := do
  match ← (server url).document depths explain url with
  | .map entries => return entries
  | _ => throw (.feed (.unexpectedResponse url))

/-- What is reported of a first output that is named by no text, and is shown for it. That a number in it has too many
    digits is explained as what the network has to say is. -/
def unexpectedOutput (depths : FeedDepths) (explain : Text → FeedError) (address : Text) (item : Document) :
    FeedFailure :=
  match item.displayPartWithin depths.shown with
  | .ok shown => .feed (.unexpectedOutputId address shown)
  | .error .digits => .feed (explain Text.digitLimitMessage)
  | .error .depth => .limit .depth

def firstOutput (depths : FeedDepths) (explain : Text → FeedError) (address : Text)
    (listing : List (Scalar × Document)) : Except FeedFailure Text :=
  match Document.lookup "items" listing with
  | some (.list (.scalar (.text output) :: _)) => .ok output
  | some (.list (item :: _)) => .error (unexpectedOutput depths explain address item)
  | _ => .error (.feed (.noOutputs address))

/-- The data of the first feature in the body of an output. -/
def firstFeature (output : Text) (body : List (Scalar × Document)) : Except FeedError Text :=
  match Document.lookup "output" body with
  | some (.map fields) =>
    match Document.lookup "features" fields with
    | some (.list (.map feature :: _)) =>
      match Document.lookup "data" feature with
      | some (.scalar (.text data)) => .ok data
      | _ => .error (.malformedFeature output)
    | some (.list (_ :: _)) => .error (.malformedFeature output)
    | _ => .error (.noFeatures output)
  | _ => .error (.noOutputBody output)

/-- A fetch from a node: what it came to, and the addresses that were requested for it. -/
structure NodeFetch where
  outcome : Except FeedFailure Text
  requests : List Text

/-- The node that an endpoint names; none is named by the empty text. -/
def nodeBase (endpoint : Text) : Text := if endpoint.isEmpty then defaultEndpoint else endpoint

/-- The attestation that an oracle has published on a node. -/
def fetchFromNode (depths : FeedDepths) (server : HttpServer) (endpoint address : Text) : NodeFetch :=
  let base := nodeBase endpoint
  let explain := FeedError.unreachableNode address base
  let listed : Except FeedFailure Text := do
    let listing ← getObject depths server explain (outputsUrl base address)
    firstOutput depths explain address listing
  match listed with
  | .error e => ⟨.error e, [outputsUrl base address]⟩
  | .ok output =>
    let read : Except FeedFailure Text := do
      let body ← getObject depths server explain (outputUrl base output)
      (firstFeature output body).mapError .feed
    ⟨read, [outputsUrl base address, outputUrl base output]⟩

end Solvency
