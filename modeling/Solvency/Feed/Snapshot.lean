import Solvency.Feed.Http
import Solvency.Instant
import Solvency.Table

/-!
Attestations from snapshots. A snapshot holds the attestation of every oracle, and is replaced as a whole when a newer
one could be read; polling goes on when it could not, unless a failure that is none of the feed's ends it.
-/

namespace Solvency

/-- A feed with the snapshot that it read last. -/
structure SnapshotFeed where
  url : Text
  snapshot : Table Text Text := .empty

namespace SnapshotFeed

/-- The key and the value of an entry as text. -/
def showEntry (depth : Nat) (entry : Scalar × Document) : Except RuntimeLimit (Text × Text) := do
  let key ← (Document.scalar entry.1).displayWithin depth
  let value ← entry.2.displayWithin depth
  return (key, value)

/-- The snapshot that a document holds: keys and values as text. -/
def readSnapshot (depth : Nat) (url : Text) : Document → Except FeedFailure (Table Text Text)
  | .map entries => do
    let rows ← (entries.mapM (showEntry depth)).mapError .limit
    return .ofList rows
  | _ => .error (.feed (.unexpectedSnapshot url))

/-- The snapshot that a response brings. -/
def download (depths : FeedDepths) (url : Text) (response : HttpResponse) : Except FeedFailure (Table Text Text) := do
  readSnapshot depths.shown url (← response.document depths (.unreachableSnapshot url) url)

/-- The feed after a request for a newer snapshot, and the number of oracles in it. -/
def refresh (depths : FeedDepths) (f : SnapshotFeed) (response : HttpResponse) :
    SnapshotFeed × Except FeedFailure Nat :=
  match download depths f.url response with
  | .ok snapshot => ({ f with snapshot }, .ok snapshot.size)
  | .error e => (f, .error e)

/-- The attestation of an oracle, whatever the endpoint. -/
def fetch (f : SnapshotFeed) (address : Text) : Except FeedError Text :=
  match f.snapshot.get? address with
  | some raw => .ok raw
  | none => .error (.notInSnapshot address)

end SnapshotFeed

/-- How polling went: the feed after it, the number of requests, and the failure that ended it, if one did. -/
structure Polling where
  feed : SnapshotFeed
  rounds : Nat
  failure : Option FeedFailure

/-- The seconds between two requests where nothing else is asked for. -/
def defaultInterval : Duration := .fractional (.ofInt 1)

/-- Polling with a response a round, until it is cancelled: by the refresh, or once no response is left. An error of the
    feed does not end it, any other failure does. -/
def SnapshotFeed.poll (depths : FeedDepths) (f : SnapshotFeed) : List HttpResponse → Polling
  | [] => ⟨f, 0, none⟩
  | response :: rest =>
    match f.refresh depths response with
    | (f, .error (.foreign kind message)) => ⟨f, 1, some (.foreign kind message)⟩
    | (f, .error (.limit limit)) => ⟨f, 1, some (.limit limit)⟩
    | (f, .error .cancelled) => ⟨f, 1, none⟩
    | (f, _) =>
      let later := f.poll depths rest
      { later with rounds := later.rounds + 1 }

/-- The pauses that were made, one in front of each request. -/
def Polling.pauses (p : Polling) (interval : Duration) : List Duration := List.replicate p.rounds interval

end Solvency
