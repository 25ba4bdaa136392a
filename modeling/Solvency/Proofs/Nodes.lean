import Solvency.Feed.Node
import Solvency.Proofs.Depths
import Solvency.Proofs.Responses

/-! Nodes: which answers of a node give an attestation. Two requests are made, the second one for the output that the
    first answer names; the attestation is the text in one place of the second answer, and all else is an error of the
    feed, except for what is nested too deep. -/

namespace Solvency

/-- A listing has items, the first of which is the name of an output. -/
def NamesOutput (listing : List (Scalar × Document)) (output : Text) : Prop :=
  ∃ items, Document.lookup "items" listing = some (.list (.ofText output :: items))

/-- The body of an output has features, the first of which has a text as its data. -/
def CarriesData (body : List (Scalar × Document)) (data : Text) : Prop :=
  ∃ fields feature features, Document.lookup "output" body = some (.map fields) ∧
    Document.lookup "features" fields = some (.list (.map feature :: features)) ∧
    Document.lookup "data" feature = some (.ofText data)

/-- A listing has items, the first of which is no text and nested too deep to be shown. -/
def HidesOutput (depth : Nat) (listing : List (Scalar × Document)) : Prop :=
  ∃ item items, Document.lookup "items" listing = some (.list (item :: items)) ∧ (∀ output, item ≠ .ofText output) ∧
    item.limit? depth = some .depth

section
variable {depths : FeedDepths} {explain : Text → FeedError} {address : Text} {listing : List (Scalar × Document)}

theorem firstOutput_eq_ok {output : Text} :
    firstOutput depths explain address listing = .ok output ↔ NamesOutput listing output := by
  unfold firstOutput NamesOutput
  constructor
  · intro h
    split at h
    · rename_i name items hitems
      obtain rfl := Except.ok.inj h
      exact ⟨items, hitems⟩
    · cases h
    · cases h
  · rintro ⟨items, hitems⟩
    rw [hitems]
    rfl

theorem unexpectedOutput_eq_limit {item : Document} {limit : RuntimeLimit} :
    unexpectedOutput depths explain address item = .limit limit ↔
      limit = .depth ∧ item.limit? depths.shown = some .depth := by
  unfold unexpectedOutput Document.displayPartWithin
  rcases item.limit? depths.shown with - | - | - <;> simp [eq_comm]

theorem firstOutput_eq_limit {limit : RuntimeLimit} :
    firstOutput depths explain address listing = .error (.limit limit) ↔
      limit = .depth ∧ HidesOutput depths.shown listing := by
  unfold firstOutput HidesOutput
  constructor
  · intro h
    split at h
    · cases h
    · rename_i item items noText hitems
      obtain ⟨rfl, hlimit⟩ := unexpectedOutput_eq_limit.mp (Except.error.inj h)
      exact ⟨rfl, item, items, hitems, fun output houtput => noText output houtput, hlimit⟩
    · cases h
  · rintro ⟨rfl, item, items, hitems, noText, hlimit⟩
    rw [hitems]
    split
    · rename_i output _ h
      cases h
      exact absurd rfl (noText output)
    · rename_i h
      cases h
      exact congrArg _ (unexpectedOutput_eq_limit.mpr ⟨rfl, hlimit⟩)
    · rename_i h
      exact absurd rfl (h item items)

theorem reports_firstOutput : Reports (firstOutput depths explain address listing) := by
  intro failure h
  unfold firstOutput at h
  split at h
  · cases h
  · obtain rfl := Except.error.inj h
    unfold unexpectedOutput
    split
    · exact Or.inl ⟨_, rfl⟩
    · exact Or.inl ⟨_, rfl⟩
    · exact Or.inr ⟨_, rfl⟩
  · exact Or.inl ⟨_, (Except.error.inj h).symm⟩

end

theorem firstFeature_eq_ok {output data : Text} {body : List (Scalar × Document)} :
    firstFeature output body = .ok data ↔ CarriesData body data := by
  unfold firstFeature CarriesData
  constructor
  · intro h
    split at h
    · rename_i fields hfields
      split at h
      · rename_i feature features hfeatures
        split at h
        · rename_i value hdata
          obtain rfl := Except.ok.inj h
          exact ⟨fields, feature, features, hfields, hfeatures, hdata⟩
        · cases h
      · cases h
      · cases h
    · cases h
  · rintro ⟨fields, feature, features, hfields, hfeatures, hdata⟩
    simp [hfields, hfeatures, hdata, Document.ofText]

section
variable {depths : FeedDepths} {server : HttpServer} {explain : Text → FeedError} {url base address : Text}

theorem getObject_eq_ok {entries : List (Scalar × Document)} : getObject depths server explain url = .ok entries ↔
    (server url).Brings (.map entries) ∧ (Document.map entries).height ≤ depths.read := by
  unfold getObject
  rw [bind_eq_ok]
  constructor
  · rintro ⟨document, hdocument, h⟩
    cases document with
    | map found =>
      obtain rfl := pure_eq_ok.mp h
      exact HttpResponse.document_eq_ok.mp hdocument
    | scalar value => cases h
    | list items => cases h
  · exact fun h => ⟨_, HttpResponse.document_eq_ok.mpr h, rfl⟩

theorem getObject_eq_limit {limit : RuntimeLimit} : getObject depths server explain url = .error (.limit limit) ↔
    limit = .depth ∧ ∃ document, (server url).Brings document ∧ depths.read < document.height := by
  unfold getObject
  rw [bind_eq_error, HttpResponse.document_eq_limit]
  refine or_iff_left ?_
  rintro ⟨document, -, h⟩
  cases document <;> cases h

theorem reports_getObject (h : (server url).Ordinary) : Reports (getObject depths server explain url) := by
  refine Reports.bind h.reports fun document _ failure hfailure => ?_
  cases document with
  | map entries => cases hfailure
  | scalar value => exact Or.inl ⟨_, (Except.error.inj hfailure).symm⟩
  | list items => exact Or.inl ⟨_, (Except.error.inj hfailure).symm⟩

/-- The listing of an address and the body of an output are read in different places of a node. -/
theorem outputUrl_ne_outputsUrl (output : Text) : outputUrl base output ≠ outputsUrl base address := by
  unfold outputUrl outputsUrl
  rw [List.append_assoc, List.append_assoc]
  intro h
  have h := List.append_cancel_left h
  cases h

end

theorem nodeBase_eq (endpoint : Text) : nodeBase endpoint = if endpoint = [] then defaultEndpoint else endpoint := by
  cases endpoint <;> rfl

/-! ### The two requests of a fetch -/

/-- What the first request comes to: the output that is listed first for an address. -/
def listedOutput (depths : FeedDepths) (server : HttpServer) (base address : Text) : Except FeedFailure Text := do
  let listing ← getObject depths server (.unreachableNode address base) (outputsUrl base address)
  firstOutput depths (.unreachableNode address base) address listing

/-- What the second request comes to: the data in an output. -/
def outputData (depths : FeedDepths) (server : HttpServer) (base address output : Text) : Except FeedFailure Text := do
  let body ← getObject depths server (.unreachableNode address base) (outputUrl base output)
  (firstFeature output body).mapError .feed

/-- A listing, a first item that is shown, or an output is nested too deep where a fetch comes upon it. -/
inductive Overdeep (depths : FeedDepths) (server : HttpServer) (base address : Text) : Prop
  | listing {document : Document} (brings : (server (outputsUrl base address)).Brings document)
      (deep : depths.read < document.height)
  | item {listing : List (Scalar × Document)} (brings : (server (outputsUrl base address)).Brings (.map listing))
      (hides : HidesOutput depths.shown listing)
  | output {listing : List (Scalar × Document)} {output : Text} {document : Document}
      (brings : (server (outputsUrl base address)).Brings (.map listing)) (names : NamesOutput listing output)
      (body : (server (outputUrl base output)).Brings document) (deep : depths.read < document.height)

section
variable {depths : FeedDepths} {server : HttpServer} {endpoint base address output : Text}

theorem listedOutput_eq_ok : listedOutput depths server base address = .ok output ↔
    ∃ listing, ((server (outputsUrl base address)).Brings (.map listing) ∧
      (Document.map listing).height ≤ depths.read) ∧ NamesOutput listing output := by
  simp only [listedOutput, bind_eq_ok, getObject_eq_ok, firstOutput_eq_ok]

theorem outputData_eq_ok {data : Text} : outputData depths server base address output = .ok data ↔
    ∃ body, ((server (outputUrl base output)).Brings (.map body) ∧ (Document.map body).height ≤ depths.read) ∧
      CarriesData body data := by
  simp only [outputData, bind_eq_ok, getObject_eq_ok, mapError_eq_ok, firstFeature_eq_ok]

theorem outputData_eq_limit {limit : RuntimeLimit} :
    outputData depths server base address output = .error (.limit limit) ↔
      limit = .depth ∧ ∃ document, (server (outputUrl base output)).Brings document ∧ depths.read < document.height := by
  simp [outputData, bind_eq_error, getObject_eq_limit, mapError_eq_error]

theorem reports_listedOutput (h : (server (outputsUrl base address)).Ordinary) :
    Reports (listedOutput depths server base address) :=
  (reports_getObject h).bind fun _ _ => reports_firstOutput

theorem reports_outputData (h : (server (outputUrl base output)).Ordinary) :
    Reports (outputData depths server base address output) :=
  (reports_getObject h).bind fun _ _ => reports_feed

theorem outcome_fetchFromNode (depths : FeedDepths) (server : HttpServer) (endpoint address : Text) :
    (fetchFromNode depths server endpoint address).outcome =
      listedOutput depths server (nodeBase endpoint) address >>=
        outputData depths server (nodeBase endpoint) address := by
  unfold fetchFromNode listedOutput outputData
  dsimp only
  split <;> rename_i h <;> rw [h] <;> rfl

theorem requests_of_listed (h : listedOutput depths server (nodeBase endpoint) address = .ok output) :
    (fetchFromNode depths server endpoint address).requests =
      [outputsUrl (nodeBase endpoint) address, outputUrl (nodeBase endpoint) output] := by
  unfold listedOutput at h
  unfold fetchFromNode
  dsimp only
  rw [h]

theorem requests_of_not_listed {failure : FeedFailure}
    (h : listedOutput depths server (nodeBase endpoint) address = .error failure) :
    (fetchFromNode depths server endpoint address).requests = [outputsUrl (nodeBase endpoint) address] := by
  unfold listedOutput at h
  unfold fetchFromNode
  dsimp only
  rw [h]

/-- Each request that is made is answered in an ordinary way or fails in one, so the fetch reports what is wrong. -/
theorem reports_fetchFromNode
    (ordinary : ∀ url ∈ (fetchFromNode depths server endpoint address).requests, (server url).Ordinary) :
    Reports (fetchFromNode depths server endpoint address).outcome := by
  rw [outcome_fetchFromNode]
  refine Reports.bind (reports_listedOutput (ordinary _ ?_)) fun output h => reports_outputData (ordinary _ ?_)
  · cases h : listedOutput depths server (nodeBase endpoint) address with
    | ok output => simp [requests_of_listed h]
    | error failure => simp [requests_of_not_listed h]
  · simp [requests_of_listed h]

end

/-- A node serves an attestation: it lists an output for the address, and that output carries the attestation. -/
def ServesAttestation (server : HttpServer) (base address raw : Text) : Prop :=
  ∃ listing output body, (server (outputsUrl base address)).Brings (.map listing) ∧ NamesOutput listing output ∧
    (server (outputUrl base output)).Brings (.map body) ∧ CarriesData body raw

section
variable {depths : FeedDepths} {server : HttpServer} {endpoint address raw : Text}

/-- A fetch reaches a limit exactly where it comes upon what is nested too deep. -/
theorem outcome_eq_limit {limit : RuntimeLimit} :
    (fetchFromNode depths server endpoint address).outcome = .error (.limit limit) ↔
      limit = .depth ∧ Overdeep depths server (nodeBase endpoint) address := by
  rw [outcome_fetchFromNode, bind_eq_error, listedOutput, bind_eq_error]
  simp only [getObject_eq_limit, getObject_eq_ok, firstOutput_eq_limit, outputData_eq_limit]
  constructor
  · rintro ((⟨rfl, document, hbrings, hdeep⟩ | ⟨listing, ⟨hlisting, -⟩, rfl, hhides⟩) |
      ⟨output, hlisted, rfl, document, hbody, hdeep⟩)
    · exact ⟨rfl, .listing hbrings hdeep⟩
    · exact ⟨rfl, .item hlisting hhides⟩
    · obtain ⟨listing, ⟨hlisting, -⟩, hnames⟩ := listedOutput_eq_ok.mp hlisted
      exact ⟨rfl, .output hlisting hnames hbody hdeep⟩
  · rintro ⟨rfl, hdeep⟩
    -- A listing that is itself too deep hides what else is.
    cases hdeep with
    | listing hbrings hdeep => exact Or.inl (Or.inl ⟨rfl, _, hbrings, hdeep⟩)
    | @item listing hlisting hhides =>
      rcases Nat.lt_or_ge depths.read (Document.map listing).height with hdeep | hshallow
      · exact Or.inl (Or.inl ⟨rfl, _, hlisting, hdeep⟩)
      · exact Or.inl (Or.inr ⟨listing, ⟨hlisting, hshallow⟩, rfl, hhides⟩)
    | @output listing output document hlisting hnames hbody hdeep =>
      rcases Nat.lt_or_ge depths.read (Document.map listing).height with hlistingDeep | hshallow
      · exact Or.inl (Or.inl ⟨rfl, _, hlisting, hlistingDeep⟩)
      · exact Or.inr ⟨output, listedOutput_eq_ok.mpr ⟨listing, ⟨hlisting, hshallow⟩, hnames⟩, rfl, document, hbody, hdeep⟩

theorem serves_of_outcome (h : (fetchFromNode depths server endpoint address).outcome = .ok raw) :
    ServesAttestation server (nodeBase endpoint) address raw := by
  rw [outcome_fetchFromNode] at h
  obtain ⟨output, hlisted, hdata⟩ := bind_eq_ok.mp h
  obtain ⟨listing, ⟨hlisting, -⟩, hnames⟩ := listedOutput_eq_ok.mp hlisted
  obtain ⟨body, ⟨hbody, -⟩, hcarries⟩ := outputData_eq_ok.mp hdata
  exact ⟨listing, output, body, hlisting, hnames, hbody, hcarries⟩

theorem listedOutput_of_names {listing : List (Scalar × Document)} {base output : Text}
    (shallow : ¬Overdeep depths server base address)
    (hlisting : (server (outputsUrl base address)).Brings (.map listing)) (hnames : NamesOutput listing output) :
    listedOutput depths server base address = .ok output :=
  listedOutput_eq_ok.mpr ⟨listing, ⟨hlisting, Nat.le_of_not_lt fun deep => shallow (.listing hlisting deep)⟩, hnames⟩

theorem outcome_of_serves (shallow : ¬Overdeep depths server (nodeBase endpoint) address)
    (h : ServesAttestation server (nodeBase endpoint) address raw) :
    (fetchFromNode depths server endpoint address).outcome = .ok raw := by
  obtain ⟨listing, output, body, hlisting, hnames, hbody, hcarries⟩ := h
  rw [outcome_fetchFromNode, bind_of_eq_ok (listedOutput_of_names shallow hlisting hnames), outputData_eq_ok]
  exact ⟨body, ⟨hbody, Nat.le_of_not_lt fun deep => shallow (.output hlisting hnames hbody deep)⟩, hcarries⟩

end

/-- A fetch takes the attestation that a node serves, asks for nothing else, and fails with an error of the feed where
    none is served. -/
structure NodeFetch.IsExact (fetch : NodeFetch) (server : HttpServer) (base address : Text) : Prop where
  accepts : ∀ raw, fetch.outcome = .ok raw ↔ ServesAttestation server base address raw
  refuses : (∀ raw, ¬ServesAttestation server base address raw) → ∃ e, fetch.outcome = .error (.feed e)
  goesOn : ∀ listing output, (server (outputsUrl base address)).Brings (.map listing) → NamesOutput listing output →
    fetch.requests = [outputsUrl base address, outputUrl base output]
  stops : (∀ listing output, (server (outputsUrl base address)).Brings (.map listing) → ¬NamesOutput listing output) →
    fetch.requests = [outputsUrl base address]
  /-- The answers to the two requests do not depend on each other. -/
  apart : ∀ output, outputUrl base output ≠ outputsUrl base address

theorem NodeFetch.IsExact.outcome_ne_limit {fetch : NodeFetch} {server : HttpServer} {base address : Text}
    (exact : fetch.IsExact server base address) (limit : RuntimeLimit) : fetch.outcome ≠ .error (.limit limit) := by
  intro h
  by_cases hserves : ∃ raw, ServesAttestation server base address raw
  · obtain ⟨raw, hserves⟩ := hserves
    have hok := (exact.accepts raw).mpr hserves
    rw [h] at hok
    cases hok
  · obtain ⟨e, he⟩ := exact.refuses (not_exists.mp hserves)
    rw [h] at he
    cases he

/-- Where requests are answered, or fail, in ordinary ways, a fetch is exact if nothing that it comes upon is nested too
    deep, and reaches the limit of the runtime otherwise. -/
theorem attestations_fetched_exactly_iff (depths : FeedDepths) {server : HttpServer} (endpoint address : Text)
    (ordinary : ∀ url ∈ (fetchFromNode depths server endpoint address).requests, (server url).Ordinary) :
    let base := if endpoint = [] then defaultEndpoint else endpoint
    ((fetchFromNode depths server endpoint address).IsExact server base address ↔
        ¬Overdeep depths server base address) ∧
      ((fetchFromNode depths server endpoint address).outcome = .error (.limit .depth) ↔
        Overdeep depths server base address) := by
  rw [← nodeBase_eq]
  have hlimit : (fetchFromNode depths server endpoint address).outcome = .error (.limit .depth) ↔
      Overdeep depths server (nodeBase endpoint) address := outcome_eq_limit.trans (and_iff_right rfl)
  refine ⟨⟨fun exact deep => exact.outcome_ne_limit _ (hlimit.mpr deep), fun shallow => ?_⟩, hlimit⟩
  refine ⟨fun raw => ⟨serves_of_outcome, outcome_of_serves shallow⟩, fun hnone => ?_,
    fun listing output hlisting hnames => requests_of_listed (listedOutput_of_names shallow hlisting hnames),
    fun hnone => ?_, outputUrl_ne_outputsUrl⟩
  · cases houtcome : (fetchFromNode depths server endpoint address).outcome with
    | ok raw => exact absurd (serves_of_outcome houtcome) (hnone raw)
    | error failure =>
      rcases reports_fetchFromNode ordinary failure houtcome with ⟨e, rfl⟩ | ⟨limit, rfl⟩
      · exact ⟨e, rfl⟩
      · exact absurd (outcome_eq_limit.mp houtcome).2 shallow
  · cases hlisted : listedOutput depths server (nodeBase endpoint) address with
    | ok output =>
      obtain ⟨listing, ⟨hlisting, -⟩, hnames⟩ := listedOutput_eq_ok.mp hlisted
      exact absurd hnames (hnone listing output hlisting)
    | error failure => exact requests_of_not_listed hlisted

/-- A node that has one output with an attestation, and names it to whoever lists the outputs of an address. -/
def publishing (base address output raw : Text) : HttpServer := fun url =>
  if url = outputsUrl base address then .answered 200 (.ok (.map [(.text "items", .list [.ofText output])]))
  else .answered 200 (.ok (.map [(.text "output",
    .map [(.text "features", .list [.map [(.text "data", .ofText raw)]])])]))

/-- A node that answers every request with lists inside each other. -/
def nesting (n : Nat) : HttpServer := fun _ => .answered 200 (.ok (.nested n))

theorem ordinary_nesting (n : Nat) (url : Text) : (nesting n url).Ordinary := fun failure h => by cases h

theorem overdeep_nesting {depths : FeedDepths} {n : Nat} (deep : depths.read ≤ n) (base address : Text) :
    Overdeep depths (nesting n) base address := by
  have hbrings : (nesting n (outputsUrl base address)).Brings (.nested n) := rfl
  exact .listing hbrings (by rw [Document.height_nested]; omega)

/-- Lists deeper than what is read are reported as no error of the feed, although they serve no attestation. -/
theorem nested_listing_not_reported :
    let fetch := fetchFromNode ⟨1000, 1000⟩ (nesting 1000) "" "0xo1"
    (∀ url, (nesting 1000 url).Ordinary) ∧ (∀ raw, ¬ServesAttestation (nesting 1000) defaultEndpoint "0xo1" raw) ∧
      (¬∃ e, fetch.outcome = .error (.feed e)) ∧ ¬fetch.IsExact (nesting 1000) defaultEndpoint "0xo1" := by
  intro fetch
  have houtcome : fetch.outcome = .error (.limit .depth) := outcome_eq_limit.mpr ⟨rfl, overdeep_nesting (Nat.le_refl _) _ _⟩
  refine ⟨ordinary_nesting 1000, ?_, ?_, fun exact => exact.outcome_ne_limit _ houtcome⟩
  · rintro raw ⟨listing, output, body, hlisting, -⟩
    cases hlisting
  · rintro ⟨e, he⟩
    rw [houtcome] at he
    cases he

/-- The default node serves an attestation, which is fetched; a node with lists too deep inside each other is no error
    of the feed. -/
theorem attestations_fetched_exactly_iff_default :
    let depths : FeedDepths := ⟨1000, 1000⟩
    let server := publishing defaultEndpoint "0xo1" "77" "raw"
    (∀ url, (server url).Ordinary) ∧ (∀ url, (nesting 1000 url).Ordinary) ∧
      (fetchFromNode depths server "" "0xo1").outcome = .ok (Text.ofString "raw") ∧
      (fetchFromNode depths server "" "0xo1").requests =
        [outputsUrl defaultEndpoint "0xo1", outputUrl defaultEndpoint "77"] ∧
      (fetchFromNode depths (nesting 1000) "https://a.example" "0xo1").outcome = .error (.limit .depth) := by
  intro depths server
  have hserver : ∀ url, (server url).Ordinary := by
    intro url
    simp only [server, publishing]
    split <;> exact fun failure hfailure => by cases hfailure
  have served := attestations_fetched_exactly_iff depths "" "0xo1" fun url _ => hserver url
  have missed := attestations_fetched_exactly_iff depths "https://a.example" "0xo1" fun url _ => ordinary_nesting 1000 url
  have hlisting : (server (outputsUrl defaultEndpoint "0xo1")).Brings (.map [(.text "items", .list [.ofText "77"])]) :=
    if_pos rfl
  have hbody : ∀ output, (server (outputUrl defaultEndpoint output)).Brings (.map [(.text "output",
      .map [(.text "features", .list [.map [(.text "data", .ofText "raw")]])])]) :=
    fun output => if_neg (outputUrl_ne_outputsUrl output)
  have hshallow : ¬Overdeep depths server defaultEndpoint "0xo1" := by
    rintro (⟨hbrings, hdeep⟩ | ⟨hbrings, item, items, hitems, noText, -⟩ | ⟨-, -, hbrings, hdeep⟩)
    · obtain rfl := hlisting.unique.mp hbrings
      exact absurd hdeep (by decide)
    · cases hlisting.unique.mp hbrings
      cases hitems
      exact noText _ rfl
    · obtain rfl := (hbody _).unique.mp hbrings
      exact absurd hdeep (by decide)
  have exact := served.1.mpr hshallow
  refine ⟨hserver, ordinary_nesting 1000, (exact.accepts _).mpr ⟨_, _, _, hlisting, ⟨[], rfl⟩, hbody _, _, _, [], rfl,
    rfl, rfl⟩, exact.goesOn _ _ hlisting ⟨[], rfl⟩, missed.2.mpr (overdeep_nesting (Nat.le_refl _) _ _)⟩

end Solvency
