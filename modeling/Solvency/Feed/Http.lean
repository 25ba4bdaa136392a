import Solvency.Document.Basic

/-!
Requests to servers. A request fails when it is made, or it is answered with a status and a body, which may fail to be
read or be nested too deep for it; what is wanted is the document of an answer whose status is 200.
-/

namespace Solvency

/-- How a request, or the reading of its answer, fails. -/
inductive HttpFailure where
  /-- The network fails, takes too long, or brings what is no document. -/
  | network (message : Text)
  /-- A failure that is reported as one of the feed already. -/
  | reported (message : Text)
  /-- Anything else, of a kind of its own. -/
  | foreign (kind message : Text)
  | cancelled
  deriving DecidableEq, Repr

/-- How a server takes a request. -/
inductive HttpResponse where
  | failed (failure : HttpFailure)
  | answered (status : Int) (body : Except HttpFailure Document)

/-- How a server takes the request for each address. -/
abbrev HttpServer := Text → HttpResponse

/-- What is wrong with a feed. -/
inductive FeedError where
  | status (code : Int) (url : Text)
  | unexpectedResponse (url : Text)
  | noOutputs (address : Text)
  /-- The first output is not named by a text; it is shown instead. -/
  | unexpectedOutputId (address shown : Text)
  | noOutputBody (output : Text)
  | noFeatures (output : Text)
  | malformedFeature (output : Text)
  | unreachableNode (address base message : Text)
  | unreachableSnapshot (url message : Text)
  | unexpectedSnapshot (url : Text)
  | notInSnapshot (address : Text)
  | reported (message : Text)
  deriving DecidableEq, Repr

def FeedError.message : FeedError → Text
  | .status code url => "HTTP " ++ Text.decimal code ++ " from " ++ url
  | .unexpectedResponse url => "unexpected response from " ++ url
  | .noOutputs address => "no outputs found for NFT " ++ address
  | .unexpectedOutputId address shown => "unexpected output id for NFT " ++ address ++ ": " ++ shown
  | .noOutputBody output => "no output body for " ++ output
  | .noFeatures output => "no features found for output " ++ output
  | .malformedFeature output => "malformed feature in output " ++ output
  | .unreachableNode address base message =>
    "failed to fetch oracle " ++ address ++ " from " ++ base ++ ": " ++ message
  | .unreachableSnapshot url message => "failed to refresh " ++ url ++ ": " ++ message
  | .unexpectedSnapshot url => "unexpected snapshot format from " ++ url
  | .notInSnapshot address => "no attestation for oracle " ++ address ++ " yet"
  | .reported message => message

/-- Why a feed gives nothing: an error of its own, a foreign failure that is passed on, a limit of the runtime that was
    reached, or a cancellation. -/
inductive FeedFailure where
  | feed (error : FeedError)
  | foreign (kind message : Text)
  | limit (limit : RuntimeLimit)
  | cancelled
  deriving DecidableEq, Repr

/-- What a failed request means for a feed, which explains what the network has to say in its own words. -/
def HttpFailure.toFeed (explain : Text → FeedError) : HttpFailure → FeedFailure
  | .network message => .feed (explain message)
  | .reported message => .feed (.reported message)
  | .foreign kind message => .foreign kind message
  | .cancelled => .cancelled

/-- How many lists and maps may stand inside each other in what a feed reads, and in what it shows. -/
structure FeedDepths where
  read : Nat
  shown : Nat

/-- The document that a response brings. The status is looked at before the body is read. -/
def HttpResponse.document (depths : FeedDepths) (explain : Text → FeedError) (url : Text) :
    HttpResponse → Except FeedFailure Document
  | .failed failure => .error (failure.toFeed explain)
  | .answered status body =>
    if status = 200 then do
      let document ← body.mapError (·.toFeed explain)
      if depths.read < document.height then throw (.limit .depth)
      return document
    else .error (.feed (.status status url))

end Solvency
