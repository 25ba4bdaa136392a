import Solvency.Feed.Snapshot
import Solvency.Proofs.Depths
import Solvency.Proofs.Responses
import Solvency.Proofs.Tables

/-! Snapshots: what a feed serves after any course of operations. It serves the texts of the object that was
    downloaded last; a download that brings no object leaves the feed as it was. Polling goes on after it, unless the
    download is one that cannot be read as texts, which is no error of the feed. -/

namespace Solvency.SnapshotFeed

/-- The entries of an object as texts. -/
def textsOf (entries : List (Scalar × Document)) : List (Text × Text) :=
  entries.map fun entry => (entry.1.display, entry.2.display)

/-- Whether an entry has texts, and its value is nested no deeper than `depth`. -/
def Shown (depth : Nat) (entry : Scalar × Document) : Prop :=
  entry.1.hasDisplay = true ∧ entry.2.height ≤ depth ∧ entry.2.hasDisplay = true

/-- A response brings the entries of an object that can be read, and shown as texts. -/
def Carries (depths : FeedDepths) (response : HttpResponse) (entries : List (Scalar × Document)) : Prop :=
  response.Brings (.map entries) ∧ (Document.map entries).height ≤ depths.read ∧ ∀ entry ∈ entries, Shown depths.shown entry

/-- A response brings a document that is nested too deep to be read, or an object with an entry that cannot be shown. -/
inductive Breaks (depths : FeedDepths) (response : HttpResponse) : Prop
  | deep {document : Document} (brings : response.Brings document) (deep : depths.read < document.height)
  | hidden {entries : List (Scalar × Document)} (brings : response.Brings (.map entries)) {entry : Scalar × Document}
      (mem : entry ∈ entries) (hidden : ¬Shown depths.shown entry)

/-- What is done with a feed: it is refreshed, asked for an attestation, or goes through a round of polling. -/
inductive Operation where
  | refresh (response : HttpResponse)
  | fetch (endpoint address : Text)
  | round (response : HttpResponse)

def after (depths : FeedDepths) (f : SnapshotFeed) : Operation → SnapshotFeed
  | .refresh response => (f.refresh depths response).1
  | .fetch _ _ => f
  | .round response => (f.poll depths [response]).feed

/-- The feed after operations one after another. -/
def run (depths : FeedDepths) (f : SnapshotFeed) (operations : List Operation) : SnapshotFeed :=
  operations.foldl (after depths) f

/-- An operation brings the entries of an object that can be read and shown. -/
def Operation.Carries (depths : FeedDepths) : Operation → List (Scalar × Document) → Prop
  | .refresh response, entries => SnapshotFeed.Carries depths response entries
  | .round response, entries => SnapshotFeed.Carries depths response entries
  | .fetch _ _, _ => False

/-- The entries of the object that was downloaded last. -/
def Latest (depths : FeedDepths) (operations : List Operation) (entries : List (Scalar × Document)) : Prop :=
  ∃ operation, IsLast (fun operation => ∃ found, operation.Carries depths found) operation operations ∧
    operation.Carries depths entries

/-! ### One download -/

section
variable {depths : FeedDepths} {f : SnapshotFeed} {url : Text} {response : HttpResponse}
variable {entries : List (Scalar × Document)}

theorem showEntry_eq_ok {depth : Nat} {entry : Scalar × Document} {row : Text × Text} :
    showEntry depth entry = .ok row ↔ Shown depth entry ∧ (entry.1.display, entry.2.display) = row := by
  unfold showEntry Shown
  simp only [bind_eq_ok, Document.displayWithin_eq_ok, pure_eq_ok, Document.height, Document.hasDisplay,
    Document.display]
  constructor
  · rintro ⟨key, ⟨⟨-, hkey⟩, rfl⟩, value, ⟨⟨hheight, hvalue⟩, rfl⟩, rfl⟩
    exact ⟨⟨hkey, hheight, hvalue⟩, rfl⟩
  · rintro ⟨⟨hkey, hheight, hvalue⟩, rfl⟩
    exact ⟨_, ⟨⟨Nat.zero_le _, hkey⟩, rfl⟩, _, ⟨⟨hheight, hvalue⟩, rfl⟩, rfl⟩

theorem mapM_showEntry_eq_ok {depth : Nat} {rows : List (Text × Text)} :
    entries.mapM (showEntry depth) = .ok rows ↔ (∀ entry ∈ entries, Shown depth entry) ∧ textsOf entries = rows := by
  simp only [mapM_eq_ok, showEntry_eq_ok, List.forall₂_and_left]
  rw [textsOf, ← List.forall₂_map_left_iff (R := Eq), List.forall₂_eq_eq_eq]

/-- Only an object that can be read and shown is a snapshot. -/
theorem download_eq_ok {snapshot : Table Text Text} : download depths url response = .ok snapshot ↔
    ∃ entries, Carries depths response entries ∧ .ofList (textsOf entries) = snapshot := by
  unfold download Carries
  simp only [bind_eq_ok, HttpResponse.document_eq_ok]
  constructor
  · rintro ⟨document, ⟨hbrings, hheight⟩, hread⟩
    cases document with
    | map entries =>
      obtain ⟨rows, hrows, h⟩ := bind_eq_ok.mp hread
      obtain ⟨hshown, rfl⟩ := mapM_showEntry_eq_ok.mp (mapError_eq_ok.mp hrows)
      exact ⟨entries, ⟨hbrings, hheight, hshown⟩, pure_eq_ok.mp h⟩
    | scalar value => cases hread
    | list items => cases hread
  · rintro ⟨entries, ⟨hbrings, hheight, hshown⟩, rfl⟩
    exact ⟨_, ⟨hbrings, hheight⟩, bind_of_eq_ok (mapError_eq_ok.mpr (mapM_showEntry_eq_ok.mpr ⟨hshown, rfl⟩)) _⟩

/-- A download reaches a limit exactly by a response that breaks it. -/
theorem download_eq_limit : (∃ limit, download depths url response = .error (.limit limit)) ↔ Breaks depths response := by
  simp only [download, bind_eq_error, HttpResponse.document_eq_limit, HttpResponse.document_eq_ok]
  constructor
  · rintro ⟨limit, ⟨-, document, hbrings, hdeep⟩ | ⟨document, ⟨hbrings, -⟩, hread⟩⟩
    · exact .deep hbrings hdeep
    · cases document with
      | map entries =>
        by_contra hbreaks
        have hshown : ∀ entry ∈ entries, Shown depths.shown entry := fun entry hentry =>
          Classical.byContradiction fun hidden => hbreaks (.hidden hbrings hentry hidden)
        rw [readSnapshot, mapM_showEntry_eq_ok.mpr ⟨hshown, rfl⟩] at hread
        cases hread
      | scalar value => cases hread
      | list items => cases hread
  · intro hbreaks
    by_cases hdeep : ∃ document, response.Brings document ∧ depths.read < document.height
    · exact ⟨.depth, Or.inl ⟨rfl, hdeep⟩⟩
    · cases hbreaks with
      | deep hbrings h => exact absurd ⟨_, hbrings, h⟩ hdeep
      | @hidden entries hbrings entry hmem hhidden =>
        cases hrows : entries.mapM (showEntry depths.shown) with
        | ok rows => exact absurd ((mapM_showEntry_eq_ok.mp hrows).1 entry hmem) hhidden
        | error limit =>
          refine ⟨limit, Or.inr ⟨_, ⟨hbrings, Nat.le_of_not_lt fun h => hdeep ⟨_, hbrings, h⟩⟩, ?_⟩⟩
          rw [readSnapshot, hrows]
          rfl

theorem reports_download (h : response.Ordinary) : Reports (download depths url response) := by
  refine h.reports.bind fun document _ => ?_
  cases document with
  | map entries =>
    refine reports_limit.bind fun rows _ failure hfailure => ?_
    cases hfailure
  | scalar value | list items =>
    intro failure hfailure
    exact Or.inl ⟨_, (Except.error.inj hfailure).symm⟩

/-- A response that brings no object to be served leaves the feed as it was. -/
theorem refresh_of_not_carries (h : ∀ entries, ¬Carries depths response entries) :
    ∃ failure, download depths f.url response = .error failure ∧ f.refresh depths response = (f, .error failure) := by
  cases hdownload : download depths f.url response with
  | error failure => exact ⟨failure, rfl, by rw [refresh, hdownload]⟩
  | ok snapshot =>
    obtain ⟨entries, hentries, -⟩ := download_eq_ok.mp hdownload
    exact absurd hentries (h entries)

theorem refresh_of_carries (h : Carries depths response entries) :
    f.refresh depths response =
      ({ f with snapshot := .ofList (textsOf entries) }, .ok (Table.ofList (textsOf entries)).size) := by
  rw [refresh, download_eq_ok.mpr ⟨entries, h, rfl⟩]

theorem refresh_of_breaks (h : Breaks depths response) :
    ∃ limit, f.refresh depths response = (f, .error (.limit limit)) := by
  obtain ⟨limit, hlimit⟩ := download_eq_limit.mpr h
  exact ⟨limit, by rw [refresh, hlimit]⟩

/-- An ordinary response that does not break the feed is an error of the feed, if it brings no object. -/
theorem refresh_of_refused (ordinary : response.Ordinary) (unbroken : ¬Breaks depths response)
    (h : ∀ entries, ¬Carries depths response entries) :
    ∃ e, f.refresh depths response = (f, .error (.feed e)) := by
  obtain ⟨failure, hfailure, hrefresh⟩ := refresh_of_not_carries (f := f) h
  rcases reports_download ordinary failure hfailure with ⟨e, rfl⟩ | ⟨limit, rfl⟩
  · exact ⟨e, hrefresh⟩
  · exact absurd (download_eq_limit.mp ⟨limit, hfailure⟩) unbroken

theorem feed_poll_singleton (depths : FeedDepths) (f : SnapshotFeed) (response : HttpResponse) :
    (f.poll depths [response]).feed = (f.refresh depths response).1 := by
  unfold poll
  split <;> simp_all [poll]

/-- A round of polling that is answered in an ordinary way, and not broken, is followed by the next one. -/
theorem poll_cons (ordinary : response.Ordinary) (unbroken : ¬Breaks depths response) (responses : List HttpResponse) :
    f.poll depths (response :: responses) =
      { (f.refresh depths response).1.poll depths responses with
        rounds := ((f.refresh depths response).1.poll depths responses).rounds + 1 } := by
  by_cases h : ∃ entries, Carries depths response entries
  · obtain ⟨entries, h⟩ := h
    rw [poll, refresh_of_carries h]
  · obtain ⟨e, he⟩ := refresh_of_refused (f := f) ordinary unbroken (not_exists.mp h)
    rw [poll, he]

theorem poll_cons_of_breaks (h : Breaks depths response) (responses : List HttpResponse) :
    ∃ limit, f.poll depths (response :: responses) = ⟨f, 1, some (.limit limit)⟩ := by
  obtain ⟨limit, hlimit⟩ := refresh_of_breaks (f := f) h
  exact ⟨limit, by rw [poll, hlimit]⟩

end

/-! ### Courses of operations -/

section
variable {depths : FeedDepths} {f : SnapshotFeed} {operation : Operation} {operations : List Operation}
variable {entries : List (Scalar × Document)}

theorem after_of_carries (h : operation.Carries depths entries) :
    f.after depths operation = { f with snapshot := .ofList (textsOf entries) } := by
  cases operation with
  | refresh response => exact congrArg Prod.fst (refresh_of_carries h)
  | fetch endpoint address => exact h.elim
  | round response => exact (feed_poll_singleton depths f response).trans (congrArg Prod.fst (refresh_of_carries h))

theorem after_of_not_carries (h : ¬∃ entries, operation.Carries depths entries) : f.after depths operation = f := by
  rw [not_exists] at h
  cases operation with
  | refresh response =>
    obtain ⟨failure, -, hrefresh⟩ := refresh_of_not_carries (f := f) h
    exact congrArg Prod.fst hrefresh
  | fetch endpoint address => rfl
  | round response =>
    obtain ⟨failure, -, hrefresh⟩ := refresh_of_not_carries (f := f) h
    exact (feed_poll_singleton depths f response).trans (congrArg Prod.fst hrefresh)

theorem Operation.Carries.unique {other : List (Scalar × Document)} (h : operation.Carries depths entries)
    (h' : operation.Carries depths other) : entries = other := by
  cases operation with
  | fetch endpoint address => exact h.elim
  | refresh response | round response => simpa using h.1.unique.mp h'.1

theorem latest_concat : Latest depths (operations ++ [operation]) entries ↔
    operation.Carries depths entries ∨
      (¬∃ found, operation.Carries depths found) ∧ Latest depths operations entries := by
  simp only [Latest, isLast_concat]
  constructor
  · rintro ⟨_, ⟨-, rfl⟩ | ⟨hnone, hlast⟩, h⟩
    · exact Or.inl h
    · exact Or.inr ⟨hnone, _, hlast, h⟩
  · rintro (h | ⟨hnone, other, hlast, h⟩)
    · exact ⟨operation, Or.inl ⟨⟨entries, h⟩, rfl⟩, h⟩
    · exact ⟨other, Or.inr ⟨hnone, hlast⟩, h⟩

theorem run_concat : f.run depths (operations ++ [operation]) = (f.run depths operations).after depths operation :=
  List.foldl_concat _ _ _ _

/-- After any operations, a feed that began without a snapshot holds the texts of the last object. -/
theorem get?_run (url : Text) (operations : List Operation) {address raw : Text} :
    (run depths { url } operations).snapshot.get? address = some raw ↔ ∃ entries,
      Latest depths operations entries ∧ IsLast (fun row => row.1 = address) (address, raw) (textsOf entries) := by
  induction operations using List.reverseRecOn with
  | nil => simp [run, Table.empty, Table.get?, Latest, IsLast]
  | append_singleton operations operation ih =>
    rw [run_concat]
    simp only [latest_concat]
    by_cases h : ∃ entries, operation.Carries depths entries
    · obtain ⟨entries, h⟩ := h
      rw [after_of_carries h, Table.get?_ofList]
      constructor
      · exact fun hlast => ⟨entries, Or.inl h, hlast⟩
      · rintro ⟨found, hfound | ⟨hnone, -⟩, hlast⟩
        · rwa [h.unique hfound]
        · exact absurd ⟨entries, h⟩ hnone
    · rw [after_of_not_carries h, ih]
      simp only [not_exists.mp h, false_or, exists_const, not_false_eq_true, true_and]

/-- Rounds that are not broken leave the loop running: every response gets its round, and so does what follows. -/
theorem poll_append {responses later : List HttpResponse}
    (h : ∀ response ∈ responses, response.Ordinary ∧ ¬Breaks depths response) :
    f.poll depths (responses ++ later) =
      { (f.run depths (responses.map .round)).poll depths later with
        rounds := ((f.run depths (responses.map .round)).poll depths later).rounds + responses.length } := by
  induction responses generalizing f with
  | nil => rfl
  | cons response responses ih =>
    rw [List.forall_mem_cons] at h
    have hrun : f.run depths (.round response :: responses.map .round) =
        (f.refresh depths response).1.run depths (responses.map .round) := by
      rw [← feed_poll_singleton]
      rfl
    rw [List.cons_append, poll_cons h.1.1 h.1.2, ih h.2, List.map_cons, hrun, List.length_cons, Nat.add_assoc]

theorem poll_eq {responses : List HttpResponse}
    (h : ∀ response ∈ responses, response.Ordinary ∧ ¬Breaks depths response) :
    f.poll depths responses = ⟨f.run depths (responses.map .round), responses.length, none⟩ := by
  rw [← List.append_nil responses, poll_append h, List.append_nil, poll, Nat.zero_add]

/-- The first response that breaks the feed ends polling in its round. -/
theorem poll_of_breaks (earlier later : List HttpResponse) {response : HttpResponse}
    (h : ∀ response ∈ earlier, response.Ordinary ∧ ¬Breaks depths response) (breaks : Breaks depths response) :
    ∃ limit, f.poll depths (earlier ++ response :: later) =
      ⟨f.run depths (earlier.map .round), earlier.length + 1, some (.limit limit)⟩ := by
  obtain ⟨limit, hlimit⟩ := poll_cons_of_breaks (f := f.run depths (earlier.map .round)) breaks later
  exact ⟨limit, by rw [poll_append h, hlimit, Nat.add_comm]⟩

end

/-! ### What is served -/

/-- A refresh keeps its word on a response: the whole snapshot is replaced by an object, or the feed stays as it was
    and the failure is one of its own. -/
inductive KeepsWord (depths : FeedDepths) (f : SnapshotFeed) (response : HttpResponse) : Prop
  | replaced {entries : List (Scalar × Document)} (brings : response.Brings (.map entries))
      (eq : f.refresh depths response =
        ({ f with snapshot := .ofList (textsOf entries) }, .ok (Table.ofList (textsOf entries)).size))
  | kept {e : FeedError} (eq : f.refresh depths response = (f, .error (.feed e)))

/-- A feed serves what the last object of its operations holds. It keeps its word on every ordinary response, and goes
    on polling, as far as no response breaks it. -/
structure ServesLatest (depths : FeedDepths) (f : SnapshotFeed) (operations : List Operation) : Prop where
  found : ∀ address raw, f.fetch address = .ok raw ↔ ∃ entries,
    Latest depths operations entries ∧ IsLast (fun row => row.1 = address) (address, raw) (textsOf entries)
  missed : ∀ address e, f.fetch address = .error e ↔ e = .notInSnapshot address ∧
    ∀ entries, Latest depths operations entries → address ∉ (textsOf entries).map Prod.fst
  word : ∀ response, response.Ordinary → (KeepsWord depths f response ↔ ¬Breaks depths response)
  broken : ∀ response, Breaks depths response → ∃ limit, f.refresh depths response = (f, .error (.limit limit))
  polls : ∀ responses, (∀ response ∈ responses, response.Ordinary) →
    (f.poll depths responses = ⟨f.run depths (responses.map .round), responses.length, none⟩ ↔
      ∀ response ∈ responses, ¬Breaks depths response)
  ends : ∀ earlier response later, (∀ response ∈ earlier, response.Ordinary ∧ ¬Breaks depths response) →
    Breaks depths response → ∃ limit, f.poll depths (earlier ++ response :: later) =
      ⟨f.run depths (earlier.map .round), earlier.length + 1, some (.limit limit)⟩

theorem keepsWord_iff {depths : FeedDepths} {f : SnapshotFeed} {response : HttpResponse} (ordinary : response.Ordinary) :
    KeepsWord depths f response ↔ ¬Breaks depths response := by
  constructor
  · intro word breaks
    obtain ⟨limit, hlimit⟩ := refresh_of_breaks (f := f) breaks
    cases word with
    | replaced _ eq | kept eq =>
      rw [hlimit] at eq
      cases congrArg Prod.snd eq
  · intro unbroken
    by_cases h : ∃ entries, Carries depths response entries
    · obtain ⟨entries, h⟩ := h
      exact .replaced h.1 (refresh_of_carries h)
    · obtain ⟨e, he⟩ := refresh_of_refused (f := f) ordinary unbroken (not_exists.mp h)
      exact .kept he

theorem polls_iff {depths : FeedDepths} {f : SnapshotFeed} {responses : List HttpResponse}
    (ordinary : ∀ response ∈ responses, response.Ordinary) :
    f.poll depths responses = ⟨f.run depths (responses.map .round), responses.length, none⟩ ↔
      ∀ response ∈ responses, ¬Breaks depths response := by
  refine ⟨fun h => ?_, fun h => poll_eq fun response hresponse => ⟨ordinary response hresponse, h response hresponse⟩⟩
  classical
  -- The rounds go on up to the first response that breaks the feed, if there is one.
  cases hfirst : responses.find? fun response => decide (Breaks depths response) with
  | none => simpa using hfirst
  | some response =>
    obtain ⟨hbreaks, earlier, later, rfl, hearlier⟩ := List.find?_eq_some_iff_append.mp hfirst
    obtain ⟨limit, hlimit⟩ := poll_of_breaks (f := f) earlier later
      (fun other hother => ⟨ordinary other (List.mem_append_left _ hother), by simpa using hearlier other hother⟩)
      (of_decide_eq_true hbreaks)
    rw [h] at hlimit
    cases congrArg Polling.failure hlimit

theorem snapshots_served_latest (depths : FeedDepths) (url : Text) (operations : List Operation) :
    ServesLatest depths (run depths { url } operations) operations := by
  have hfound : ∀ address raw, (run depths { url } operations).fetch address = .ok raw ↔ ∃ entries,
      Latest depths operations entries ∧ IsLast (fun row => row.1 = address) (address, raw) (textsOf entries) := by
    intro address raw
    rw [← get?_run url, fetch]
    cases (run depths { url } operations).snapshot.get? address <;> simp
  refine ⟨hfound, fun address e => ?_, fun response => keepsWord_iff, fun response => refresh_of_breaks,
    fun responses => polls_iff, fun earlier response later => poll_of_breaks earlier later⟩
  have hkeys : (∀ entries, Latest depths operations entries → address ∉ (textsOf entries).map Prod.fst) ↔
      ∀ raw, (run depths { url } operations).fetch address ≠ .ok raw := by
    simp only [ne_eq, hfound, not_exists, not_and]
    constructor
    · exact fun h raw entries hlatest hlast => h entries hlatest (List.mem_map.mpr ⟨_, hlast.mem, rfl⟩)
    · intro h entries hlatest hmem
      obtain ⟨row, hrow, hkey⟩ := List.mem_map.mp hmem
      obtain ⟨⟨key, raw⟩, hlast⟩ : ∃ last, IsLast (fun row => row.1 = address) last (textsOf entries) :=
        exists_isLast_iff.mpr ⟨row, hrow, hkey⟩
      obtain rfl : key = address := hlast.holds
      exact h raw entries hlatest hlast
  rw [hkeys, fetch]
  cases (run depths { url } operations).snapshot.get? address <;> simp [eq_comm]

/-- An object that names attestations by addresses. -/
def object (rows : List (Text × Text)) : HttpResponse :=
  .answered 200 (.ok (.map (rows.map fun row => (.text row.1, .ofText row.2))))

/-- An object that hides an attestation behind lists inside each other. -/
def buried (n : Nat) : HttpResponse := .answered 200 (.ok (.map [(.text "0xo1", .nested n)]))

theorem breaks_buried {depths : FeedDepths} {n : Nat} (h : depths.shown ≤ n) : Breaks depths (buried n) :=
  .hidden rfl List.mem_cons_self fun shown => by
    have hheight := shown.2.1
    rw [Document.height_nested] at hheight
    omega

/-- An object with a value that is nested too deep is neither taken nor an error of the feed, and ends
    polling. -/
theorem hidden_attestation_ends_polling :
    let f : SnapshotFeed := { url := "https://a.example" }
    (buried 1000).Ordinary ∧ ¬KeepsWord ⟨1000, 1000⟩ f (buried 1000) ∧
      (f.poll ⟨1000, 1000⟩ [buried 1000, object [("0xo1", "new")]]).rounds = 1 ∧
      (f.poll ⟨1000, 1000⟩ [buried 1000, object [("0xo1", "new")]]).failure ≠ none := by
  intro f
  have hordinary : (buried 1000).Ordinary := fun failure h => by cases h
  have hbreaks : Breaks ⟨1000, 1000⟩ (buried 1000) := breaks_buried (Nat.le_refl _)
  obtain ⟨limit, hlimit⟩ := poll_cons_of_breaks (f := f) hbreaks [object [("0xo1", "new")]]
  exact ⟨hordinary, fun word => (keepsWord_iff hordinary).mp word hbreaks, by rw [hlimit], by rw [hlimit]; simp⟩

/-- An attestation outlives a failed round of polling and a refused refresh, but not the next object. -/
theorem snapshots_served_latest_renewed :
    let depths : FeedDepths := ⟨1000, 1000⟩
    let busy : HttpResponse := .answered 503 (.ok .null)
    let silent : HttpResponse := .failed (.network "timeout")
    let operations : List Operation :=
      [.refresh (object [("0xo1", "old"), ("0xo2", "b")]), .round silent, .refresh busy]
    let f := run depths { url := "https://a.example" } operations
    f.fetch "0xo2" = .ok (Text.ofString "b") ∧ KeepsWord depths f busy ∧
      (f.poll depths [silent, silent]).failure = none ∧ (f.poll depths [silent, silent]).rounds = 2 ∧
      (run depths { url := "https://a.example" } (operations ++ [.round (object [("0xo1", "new")])])).fetch "0xo2" =
        .error (.notInSnapshot "0xo2") := by
  intro depths busy silent operations f
  have served : ServesLatest depths f operations := snapshots_served_latest _ _ _
  have hsilent : ∀ document, ¬silent.Brings document := by simp [silent, HttpResponse.Brings]
  have hbusy : ∀ document, ¬busy.Brings document := by simp [busy, HttpResponse.Brings]
  have unbroken : ∀ response : HttpResponse, (∀ document, ¬response.Brings document) → ¬Breaks depths response := by
    rintro response hnone (⟨hbrings, -⟩ | ⟨hbrings, -, -⟩) <;> exact hnone _ hbrings
  have carries : ∀ rows, Carries depths (object rows) (rows.map fun row => (.text row.1, .ofText row.2)) := by
    intro rows
    have hshown : ∀ entry ∈ rows.map fun row => ((.text row.1, .ofText row.2) : Scalar × Document),
        Shown depths.shown entry := by
      intro entry hentry
      obtain ⟨row, -, rfl⟩ := List.mem_map.mp hentry
      exact ⟨rfl, Nat.zero_le _, rfl⟩
    refine ⟨rfl, Document.height_map_le.mpr fun entry hentry => ?_, hshown⟩
    obtain ⟨row, -, rfl⟩ := List.mem_map.mp hentry
    exact Nat.zero_le _
  have hpoll := (served.polls [silent, silent] (by simp [silent, HttpResponse.Ordinary, HttpFailure.Ordinary])).mpr
    (by simp [unbroken silent hsilent])
  refine ⟨(served.found _ _).mpr ⟨_, ⟨_, ⟨[], _, rfl, ⟨_, carries _⟩, ?_⟩, carries _⟩, [(_, _)], [], rfl, rfl, ?_⟩,
    (served.word busy fun failure h => by cases h).mpr (unbroken busy hbusy), by rw [hpoll], by rw [hpoll]; rfl, ?_⟩
  · simp [Operation.Carries, Carries, hsilent, hbusy]
  · exact List.forall_mem_nil _
  · refine ((snapshots_served_latest _ _ _).missed _ _).mpr ⟨rfl, fun entries hlatest => ?_⟩
    rcases latest_concat.mp hlatest with h | ⟨hnone, -⟩
    · obtain rfl := h.unique (carries _)
      decide
    · exact absurd ⟨_, carries _⟩ hnone

end Solvency.SnapshotFeed
