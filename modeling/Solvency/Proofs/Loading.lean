import Solvency.Proofs.Layouts

/-! Loading: when a configuration gives a valid deployment or is told what is wrong with it. Four kinds of documents
    are not handled so: one that is no map, one that is nested too deep for its references to be replaced, one whose
    first refused value is refused for its shape, and one that gives a valid deployment although a value in it has not
    the shape of what it is read as. -/

namespace Solvency

/-! ### Settings without an empty section -/

section
variable {name : Text}

theorem lookup_append {first second : Settings} :
    Document.lookup name (first ++ second) = (Document.lookup name first).or (Document.lookup name second) := by
  unfold Document.lookup
  rw [List.find?_append]
  cases first.find? fun entry => entry.1 = .text name <;> rfl

theorem lookup_cons_of_ne {entry : Scalar × Document} {s : Settings} (h : entry.1 ≠ .text name) :
    Document.lookup name (entry :: s) = Document.lookup name s := by
  unfold Document.lookup
  rw [List.find?_cons_of_neg (by simpa using h)]

theorem lookup_cons_self {value : Document} {s : Settings} :
    Document.lookup name ((.text name, value) :: s) = some value := by
  unfold Document.lookup
  rw [List.find?_cons_of_pos (by simp)]
  rfl

theorem lookup_eq_none {s : Settings} (h : ∀ entry ∈ s, entry.1 ≠ .text name) : Document.lookup name s = none := by
  unfold Document.lookup
  rw [Option.map_eq_none_iff, List.find?_eq_none]
  exact fun entry hentry => by simpa using h entry hentry

/-- One entry of settings is empty in `s` and left out in `s'`. -/
structure LeavesOut (name : Text) (s s' : Settings) : Prop where
  empty : Document.lookup name s = some .null
  absent : Document.lookup name s' = none
  others : ∀ other ≠ name, Document.lookup other s = Document.lookup other s'

/-- An empty entry is the one that is looked up, or it is hidden by an earlier one. -/
theorem leavesOut_or_same {earlier later : Settings} (last : ∀ entry ∈ later, entry.1 ≠ .text name) :
    LeavesOut name (earlier ++ (.text name, .null) :: later) (earlier ++ later) ∨
      ∀ other, Document.lookup other (earlier ++ (.text name, .null) :: later) =
        Document.lookup other (earlier ++ later) := by
  have hothers : ∀ other ≠ name, Document.lookup other (earlier ++ (.text name, .null) :: later) =
      Document.lookup other (earlier ++ later) := by
    intro other hother
    rw [lookup_append, lookup_append, lookup_cons_of_ne (by simpa using hother.symm)]
  cases hearlier : Document.lookup name earlier with
  | none =>
    refine Or.inl ⟨?_, ?_, hothers⟩
    · rw [lookup_append, hearlier, lookup_cons_self]
      rfl
    · rw [lookup_append, hearlier, lookup_eq_none last]
      rfl
  | some value =>
    refine Or.inr fun other => ?_
    by_cases hother : other = name
    · rw [hother, lookup_append, lookup_append, hearlier]
      rfl
    · exact hothers other hother

theorem ofSettings_congr {s s' : Settings} (hpreset : s.preset = s'.preset)
    (h : ∀ other : Text, other ≠ "preset" → Document.lookup other s = Document.lookup other s') :
    Deployment.ofSettings s = Deployment.ofSettings s' := by
  unfold Deployment.ofSettings Settings.nested Settings.each
  rw [hpreset, h "master" (by decide), h "params" (by decide), h "price_feed" (by decide), h "assets" (by decide)]

/-- Where an empty entry is refused without documentation, a documented refusal stands in front of it. -/
theorem fieldsRefusal_of_leavesOut {s s' : Settings} (h : LeavesOut name s s') {fields : List (Text × Layout)}
    (refused : ∀ field ∈ fields, field.1 = name → ∃ e, field.2.refusal? .null = some e ∧ ¬e.Documented)
    (documented : ∀ e, Layout.fieldsRefusal? fields s = some e → e.Documented) :
    Layout.fieldsRefusal? fields s' = Layout.fieldsRefusal? fields s := by
  induction fields with
  | nil => rfl
  | cons field fields ih =>
    rw [List.forall_mem_cons] at refused
    unfold Layout.fieldsRefusal? at documented ⊢
    by_cases hname : field.1 = name
    · obtain ⟨e, he, hundocumented⟩ := refused.1 hname
      exact absurd (documented e (by rw [hname, h.empty, Option.bind_some, he]; rfl)) hundocumented
    · rw [h.others field.1 hname] at documented ⊢
      cases hfirst : (Document.lookup field.1 s').bind field.2.refusal? with
      | some e => rfl
      | none =>
        rw [hfirst] at documented
        exact congrArg _ (ih refused.2 documented)

/-- Every section but the name of a preset is refused without documentation where it is empty. -/
theorem refusal_of_empty_section (h : name ≠ "preset") : ∀ field ∈ Layout.deployment, field.1 = name →
    ∃ e, field.2.refusal? .null = some e ∧ ¬e.Documented := by
  unfold Layout.deployment
  simp only [List.forall_mem_cons]
  exact ⟨fun hname => absurd hname.symm h, fun _ => ⟨.notMap, rfl, id⟩, fun _ => ⟨.notMap, rfl, id⟩,
    fun _ => ⟨.notMap, rfl, id⟩, fun _ => ⟨.withoutParts, rfl, id⟩, List.forall_mem_nil _⟩

/-- Without an empty section the settings give the same deployment, or fail with the same documented refusal. -/
theorem ofSettings_of_leavesOut {s s' : Settings} (h : LeavesOut name s s')
    (named : name ∈ Layout.deployment.map Prod.fst)
    (documented : ∀ e, Layout.fieldsRefusal? Layout.deployment s = some e → e.Documented) :
    Deployment.ofSettings s = Deployment.ofSettings s' := by
  by_cases hname : name = "preset"
  · subst hname
    refine ofSettings_congr ?_ h.others
    unfold Settings.preset
    rw [h.empty, h.absent]
    rfl
  · have hrefused := refusal_of_empty_section hname
    have hsame := fieldsRefusal_of_leavesOut h hrefused documented
    obtain ⟨field, hfield, rfl⟩ := List.mem_map.mp named
    cases hrefusal : Layout.fieldsRefusal? Layout.deployment s with
    | none =>
      obtain ⟨e, he, -⟩ := hrefused field hfield rfl
      cases (Layout.fieldsRefusal_eq_none.mp hrefusal field hfield _ h.empty).symm.trans he
    | some e =>
      rw [hrefusal] at hsame
      rw [← Settings.refusalOf_deployment, refusalOf_eq_some] at hrefusal hsame
      rw [hrefusal, hsame]

end

namespace Deployment

/-! ### The steps of loading -/

section
variable {depth : Nat} {env : Environment} {document : Document} {d : Deployment} {e : LoadError}

/-- The settings that a document holds in an environment. -/
def settingsOf (depth : Nat) (env : Environment) (document : Document) : Except LoadError Settings := do
  if document.isVacant then return [] else (← (env.resolve depth document).mapError .unresolved).settings

theorem ofDocument_eq (depth : Nat) (env : Environment) (document : Document) : ofDocument depth env document = (do
    let s ← settingsOf depth env document
    let d ← ofSettings s
    d.validate.mapError .invalid
    return d) := by
  unfold ofDocument settingsOf
  split
  · rfl
  · cases env.resolve depth document <;> rfl

theorem ofDocument_eq_ok : ofDocument depth env document = .ok d ↔
    ∃ s, settingsOf depth env document = .ok s ∧ ofSettings s = .ok d ∧ d.validate = .ok () := by
  simp only [ofDocument_eq, bind_eq_ok, mapError_eq_ok, pure_eq_ok]
  constructor
  · rintro ⟨s, hs, d', hd', _, hvalid, rfl⟩
    exact ⟨s, hs, hd', hvalid⟩
  · rintro ⟨s, hs, hd, hvalid⟩
    exact ⟨s, hs, d, hd, (), hvalid, rfl⟩

theorem ofDocument_of_settings_error (h : settingsOf depth env document = .error e) :
    ofDocument depth env document = .error e := by
  rw [ofDocument_eq]
  exact bind_of_eq_error h _

theorem ofDocument_of_refusal {s : Settings} (hs : settingsOf depth env document = .ok s)
    (h : Layout.fieldsRefusal? Layout.deployment s = some e) : ofDocument depth env document = .error e := by
  rw [← Settings.refusalOf_deployment, refusalOf_eq_some] at h
  rw [ofDocument_eq]
  exact (bind_of_eq_ok hs _).trans (bind_of_eq_error h _)

/-- Loading fails with what is wrong with the settings, the first value that is refused in them, or the validation. -/
theorem ofDocument_error_cases (h : ofDocument depth env document = .error e) :
    settingsOf depth env document = .error e ∨ ∃ s, settingsOf depth env document = .ok s ∧
      (Layout.fieldsRefusal? Layout.deployment s = some e ∨ ∃ cause, e = .invalid cause) := by
  rw [ofDocument_eq] at h
  rcases bind_eq_error.mp h with h | ⟨s, hs, h⟩
  · exact Or.inl h
  · refine Or.inr ⟨s, hs, ?_⟩
    rcases bind_eq_error.mp h with h | ⟨d, -, h⟩
    · rw [← Settings.refusalOf_deployment, refusalOf_eq_some]
      exact Or.inl h
    · rcases bind_eq_error.mp h with h | ⟨_, -, h⟩
      · obtain ⟨cause, -, rfl⟩ := mapError_eq_error.mp h
        exact Or.inr ⟨cause, rfl⟩
      · cases h

theorem settingsOf_of_vacant (vacant : document.isVacant = true) : settingsOf depth env document = .ok [] := by
  unfold settingsOf
  rw [vacant]
  rfl

theorem settingsOf_of_unresolved (vacant : document.isVacant = false) {fault : ResolveFault}
    (h : env.resolve depth document = .error fault) : settingsOf depth env document = .error (.unresolved fault) := by
  unfold settingsOf
  rw [vacant, h]
  rfl

theorem settingsOf_of_resolved (vacant : document.isVacant = false) {result : Document}
    (h : env.resolve depth document = .ok result) : settingsOf depth env document = result.settings := by
  unfold settingsOf
  rw [vacant, h]
  rfl

theorem settings_substitute_of_not_map (notMap : ∀ entries, document ≠ .map entries) :
    (env.substitute document).settings = .error .notMap := by
  cases document with
  | map entries => exact absurd rfl (notMap entries)
  | scalar value => rw [Environment.substitute]; rfl
  | list items => rw [Environment.substitute]; rfl

theorem settingsOf_of_not_map (vacant : document.isVacant = false) (notMap : ∀ entries, document ≠ .map entries)
    {result : Document} (h : env.resolve depth document = .ok result) :
    settingsOf depth env document = .error .notMap := by
  obtain ⟨-, -, rfl⟩ := Environment.resolve_eq_ok.mp h
  exact (settingsOf_of_resolved vacant h).trans (settings_substitute_of_not_map notMap)

/-- There are no settings of a document whose references cannot be replaced, nor of one that is no map. -/
theorem settingsOf_error_cases (h : settingsOf depth env document = .error e) : document.isVacant = false ∧
    ((∃ fault, e = .unresolved fault ∧ env.resolve depth document = .error fault) ∨
      (e = .notMap ∧ (∀ entries, document ≠ .map entries) ∧ ∃ result, env.resolve depth document = .ok result)) := by
  cases hvacant : document.isVacant with
  | true => cases (settingsOf_of_vacant hvacant).symm.trans h
  | false =>
    refine ⟨rfl, ?_⟩
    cases hresolve : env.resolve depth document with
    | error fault =>
      rw [settingsOf_of_unresolved hvacant hresolve] at h
      exact Or.inl ⟨fault, (Except.error.inj h).symm, rfl⟩
    | ok result =>
      obtain ⟨-, -, rfl⟩ := Environment.resolve_eq_ok.mp hresolve
      rw [settingsOf_of_resolved hvacant hresolve] at h
      by_cases hmap : ∃ entries, document = .map entries
      · obtain ⟨entries, rfl⟩ := hmap
        rw [Environment.substitute] at h
        cases h
      · rw [settings_substitute_of_not_map (not_exists.mp hmap)] at h
        exact Or.inr ⟨(Except.error.inj h).symm, not_exists.mp hmap, _, rfl⟩

/-- Settings are those of a map with its references replaced, or there are none in a vacant document. -/
theorem settingsOf_ok_cases {s : Settings} (h : settingsOf depth env document = .ok s) :
    (∃ entries, document = .map entries ∧ s = env.substituteEntries entries) ∨
      (document.isVacant = true ∧ s = []) := by
  cases hvacant : document.isVacant with
  | true => exact Or.inr ⟨rfl, (Except.ok.inj ((settingsOf_of_vacant hvacant).symm.trans h)).symm⟩
  | false =>
    cases hresolve : env.resolve depth document with
    | error fault => cases (settingsOf_of_unresolved hvacant hresolve).symm.trans h
    | ok result =>
      by_cases hmap : ∃ entries, document = .map entries
      · obtain ⟨entries, rfl⟩ := hmap
        obtain ⟨-, -, rfl⟩ := Environment.resolve_eq_ok.mp hresolve
        rw [settingsOf_of_resolved hvacant hresolve, Environment.substitute] at h
        exact Or.inl ⟨entries, rfl, (Except.ok.inj h).symm⟩
      · cases (settingsOf_of_not_map hvacant (not_exists.mp hmap) hresolve).symm.trans h

theorem eq_of_settingsOf_map {entries s : Settings} (h : settingsOf depth env (.map entries) = .ok s) :
    s = env.substituteEntries entries := by
  rcases settingsOf_ok_cases h with ⟨_, hmap, rfl⟩ | ⟨hvacant, rfl⟩
  · rw [Document.map.inj hmap]
  · obtain rfl : entries = [] := List.isEmpty_iff.mp hvacant
    rfl

/-- A document that is loaded is a map: what is vacant has no assets. -/
theorem settings_of_loaded (loaded : ofDocument depth env document = .ok d) : ∃ entries, document = .map entries ∧
    settingsOf depth env document = .ok (env.substituteEntries entries) ∧
      ofSettings (env.substituteEntries entries) = .ok d := by
  obtain ⟨s, hs, hd, valid⟩ := ofDocument_eq_ok.mp loaded
  rcases settingsOf_ok_cases hs with ⟨entries, rfl, rfl⟩ | ⟨-, rfl⟩
  · exact ⟨entries, rfl, hs, hd⟩
  · obtain rfl : ({} : Deployment) = d := Except.ok.inj hd
    cases valid

/-- The values of a map are resolved one after another. -/
theorem settingsOf_map (depth : Nat) (env : Environment) (entries : Settings) :
    settingsOf (depth + 1) env (.map entries) =
      match entries.findSome? fun entry => entry.2.resolveFault? depth with
      | some fault => .error (.unresolved fault)
      | none => .ok (env.substituteEntries entries) := by
  cases entries with
  | nil => rfl
  | cons entry entries =>
    have hvacant : (Document.map (entry :: entries)).isVacant = false := rfl
    have hfault : (Document.map (entry :: entries)).resolveFault? (depth + 1) =
        (entry :: entries).findSome? fun entry => entry.2.resolveFault? depth := by
      unfold Document.resolveFault?
      rw [Document.firstFault, Document.firstFaultOfEntries_eq]
      rfl
    have hresolve := hfault ▸ Environment.resolve.eq_1 (depth + 1) env (.map (entry :: entries))
    cases hfirst : (entry :: entries).findSome? fun entry => entry.2.resolveFault? depth with
    | some fault =>
      rw [hfirst] at hresolve
      exact settingsOf_of_unresolved hvacant hresolve
    | none =>
      rw [hfirst] at hresolve
      rw [settingsOf_of_resolved hvacant hresolve, Environment.substitute]
      rfl

/-- An empty entry comes and goes with the document: what else is in the settings stays. -/
theorem settingsOf_leaveOut (depth : Nat) (env : Environment) (name : Text) (earlier later : Settings) :
    (∃ e, settingsOf (depth + 1) env (.map (earlier ++ (.text name, .null) :: later)) = .error e ∧
      settingsOf (depth + 1) env (.map (earlier ++ later)) = .error e) ∨
    ∃ s s', settingsOf (depth + 1) env (.map (earlier ++ (.text name, .null) :: later)) =
        .ok (s ++ (.text name, .null) :: s') ∧
      settingsOf (depth + 1) env (.map (earlier ++ later)) = .ok (s ++ s') ∧ s'.map Prod.fst = later.map Prod.fst := by
  have hfault : ((earlier ++ (.text name, .null) :: later).findSome? fun entry => entry.2.resolveFault? depth) =
      (earlier ++ later).findSome? fun entry => entry.2.resolveFault? depth := by
    have hnull : Document.null.resolveFault? depth = none := by
      unfold Document.resolveFault?
      rw [Document.null, Document.firstFault]
      rfl
    rw [List.findSome?_append, List.findSome?_append, List.findSome?_cons, hnull]
  rw [settingsOf_map, settingsOf_map, hfault]
  cases (earlier ++ later).findSome? fun entry => entry.2.resolveFault? depth with
  | some fault => exact Or.inl ⟨_, rfl, rfl⟩
  | none =>
    refine Or.inr ⟨env.substituteEntries earlier, env.substituteEntries later, ?_, ?_, ?_⟩
    · rw [Environment.substituteEntries_eq, List.map_append, List.map_cons, ← Environment.substituteEntries_eq,
        ← Environment.substituteEntries_eq]
      rfl
    · rw [Environment.substituteEntries_eq, List.map_append, ← Environment.substituteEntries_eq,
        ← Environment.substituteEntries_eq]
    · rw [Environment.substituteEntries_eq, List.map_map]
      rfl

/-- Where loading fails as documented, it makes no difference whether a section is empty or left out. -/
theorem ofDocument_leaveOut {name : Text} {earlier later : Settings} (named : name ∈ Layout.deployment.map Prod.fst)
    (last : ∀ entry ∈ later, entry.1 ≠ .text name)
    (documented : ∀ e, ofDocument depth env (.map (earlier ++ (.text name, .null) :: later)) = .error e →
      e.Documented) :
    ofDocument depth env (.map (earlier ++ (.text name, .null) :: later)) =
      ofDocument depth env (.map (earlier ++ later)) := by
  cases depth with
  | zero =>
    have hvacant : (Document.map (earlier ++ (.text name, .null) :: later)).isVacant = false := by
      simp [Document.isVacant]
    exact (documented _ (ofDocument_of_settings_error (settingsOf_of_unresolved hvacant rfl))).elim
  | succ depth =>
    rcases settingsOf_leaveOut depth env name earlier later with ⟨e, hs, hs'⟩ | ⟨s, s', hs, hs', hkeys⟩
    · rw [ofDocument_of_settings_error hs, ofDocument_of_settings_error hs']
    · have hlast : ∀ entry ∈ s', entry.1 ≠ .text name := by
        intro entry hentry heq
        have hmem : entry.1 ∈ later.map Prod.fst := hkeys ▸ List.mem_map_of_mem hentry
        obtain ⟨other, hother, hkey⟩ := List.mem_map.mp hmem
        exact last other hother (hkey.trans heq)
      have hcongr : ofSettings (s ++ (.text name, .null) :: s') = ofSettings (s ++ s') := by
        rcases leavesOut_or_same hlast with hout | hsame
        · exact ofSettings_of_leavesOut hout named fun e he => documented e (ofDocument_of_refusal hs he)
        · refine ofSettings_congr ?_ fun other _ => hsame other
          unfold Settings.preset
          rw [hsame]
      rw [ofDocument_eq, ofDocument_eq, bind_of_eq_ok hs, bind_of_eq_ok hs', hcongr]

end

/-! ### Endpoints -/

section
variable {s : Settings} {d : Deployment}

/-- An endpoint is an item of the list of endpoints in the settings. -/
def ListsEndpoint (s : Settings) (endpoint : Document) : Prop :=
  ∃ feed items, Document.lookup "price_feed" s = some (.map feed) ∧
    Document.lookup "endpoints" feed = some (.list items) ∧ endpoint ∈ items

/-- No endpoints are set. -/
def SetsNoEndpoints (s : Settings) : Prop :=
  ∀ feed, Document.lookup "price_feed" s = some (.map feed) → Document.lookup "endpoints" feed = none

/-- An endpoint of settings is a text, as it is listed in them or, where none are set, as the preset has it. -/
def IsEndpoint (s : Settings) (endpoint : Document) : Prop :=
  (∃ text, endpoint = .ofText text) ∧
    (ListsEndpoint s endpoint ∨ SetsNoEndpoints s ∧ ∃ base, s.preset = .ok base ∧ endpoint ∈ base.feed.endpoints)

theorem feed_of_ofSettings (h : ofSettings s = .ok d) : ∃ base feed, s.preset = .ok base ∧
    s.nested "price_feed" = .ok feed ∧ base.feed.override feed = .ok d.feed := by
  obtain ⟨base, hbase, h⟩ := bind_eq_ok.mp h
  obtain ⟨_, -, h⟩ := bind_eq_ok.mp h
  obtain ⟨_, -, h⟩ := bind_eq_ok.mp h
  obtain ⟨_, -, h⟩ := bind_eq_ok.mp h
  obtain ⟨_, -, h⟩ := bind_eq_ok.mp h
  obtain ⟨_, -, h⟩ := bind_eq_ok.mp h
  obtain ⟨feed, hfeed, h⟩ := bind_eq_ok.mp h
  obtain ⟨result, hresult, h⟩ := bind_eq_ok.mp h
  obtain ⟨_, -, h⟩ := bind_eq_ok.mp h
  obtain rfl := pure_eq_ok.mp h
  exact ⟨base, feed, hbase, hfeed, hresult⟩

theorem endpoints_of_override {base result : PriceFeed} {feed : Settings} (h : base.override feed = .ok result) :
    (∃ value, Document.lookup "endpoints" feed = some value ∧ value.parts = .ok result.endpoints) ∨
      (Document.lookup "endpoints" feed = none ∧ result.endpoints = base.endpoints) := by
  unfold PriceFeed.override at h
  have hrest : ∀ endpoints, (do
      let oracles ← feed.each "oracles" base.oracles OracleSpec.ofSettings
      let minimalOracles ← feed.integer "minimal_oracles" base.minimalOracles
      let ttl ← feed.integer "ttl_seconds" base.ttl
      let requestTimeout ← feed.integer "request_timeout" base.requestTimeout
      return ({ endpoints, oracles, minimalOracles, ttl, requestTimeout } : PriceFeed)) = .ok result →
      result.endpoints = endpoints := by
    intro endpoints h
    obtain ⟨_, -, h⟩ := bind_eq_ok.mp h
    obtain ⟨_, -, h⟩ := bind_eq_ok.mp h
    obtain ⟨_, -, h⟩ := bind_eq_ok.mp h
    obtain ⟨_, -, h⟩ := bind_eq_ok.mp h
    obtain rfl := pure_eq_ok.mp h
    rfl
  cases hvalue : Document.lookup "endpoints" feed with
  | some value =>
    rw [hvalue] at h
    obtain ⟨endpoints, hparts, h⟩ := bind_eq_ok.mp h
    exact Or.inl ⟨value, rfl, by rw [hparts, hrest endpoints h]⟩
  | none =>
    rw [hvalue] at h
    exact Or.inr ⟨rfl, hrest base.endpoints h⟩

theorem nested_eq_ok {name : Text} {nested : Settings} (h : s.nested name = .ok nested) :
    Document.lookup name s = some (.map nested) ∨ (Document.lookup name s = none ∧ nested = []) := by
  unfold Settings.nested at h
  cases hvalue : Document.lookup name s with
  | none =>
    rw [hvalue] at h
    exact Or.inr ⟨rfl, (Except.ok.inj h).symm⟩
  | some value =>
    rw [hvalue] at h
    cases value with
    | map entries =>
      obtain rfl := Except.ok.inj h
      exact Or.inl rfl
    | scalar value => cases h
    | list items => cases h

/-- Every deployment that settings start from has the same endpoint. -/
theorem endpoints_of_preset {base : Deployment} (h : s.preset = .ok base) :
    base.feed.endpoints = [.ofText defaultEndpoint] := by
  have hpresets : ∀ preset ∈ presets, preset.2.feed.endpoints = [.ofText defaultEndpoint] := by
    simp [presets, mainnet, testnet, lp, presetFeed]
  unfold Settings.preset at h
  split at h
  · obtain rfl := Except.ok.inj h
    rfl
  · split at h
    · obtain rfl := Except.ok.inj h
      rfl
    · split at h
      · split at h
        · rename_i hpreset
          obtain rfl := Except.ok.inj h
          obtain ⟨preset, hfound, rfl⟩ := Option.map_eq_some_iff.mp hpreset
          exact hpresets preset (List.mem_of_find?_eq_some hfound)
        · split at h <;> cases h
      · cases h

/-- The endpoints that are set in the right shape are a list of texts, also when references are replaced in them. -/
theorem endpoints_of_fits_feed {env : Environment} {entries feed : Settings} {value : Document}
    (fits : (Layout.record Layout.deployment).Fits (.map entries))
    (hfeed : Document.lookup "price_feed" (env.substituteEntries entries) = some (.map feed))
    (hvalue : Document.lookup "endpoints" feed = some value) :
    ∃ items, value = .list items ∧ ∀ item ∈ items, ∃ text, item = .ofText text := by
  obtain ⟨source, hsource, hsubstitute⟩ := Environment.exists_of_lookup hfeed
  cases fits with
  | record each =>
    cases each ("price_feed", .record Layout.feed) (by simp [Layout.deployment]) _ hsource with
    | @record _ inner each =>
      rw [Environment.substitute] at hsubstitute
      obtain rfl := Document.map.inj hsubstitute
      obtain ⟨source, hsource, rfl⟩ := Environment.exists_of_lookup hvalue
      cases each ("endpoints", .list .endpoint) (by simp [Layout.feed]) _ hsource with
      | @list _ items each =>
        refine ⟨_, Environment.substitute_list items, List.forall_mem_map.mpr fun item hitem => ?_⟩
        cases each item hitem with
        | endpoint text => exact ⟨_, Environment.substitute_ofText text⟩

theorem endpoints_of_fits {env : Environment} {entries : Settings}
    (h : ofSettings (env.substituteEntries entries) = .ok d)
    (fits : (Layout.record Layout.deployment).Fits (.map entries)) :
    ∀ endpoint ∈ d.feed.endpoints, IsEndpoint (env.substituteEntries entries) endpoint := by
  obtain ⟨base, feed, hbase, hnested, hresult⟩ := feed_of_ofSettings h
  intro endpoint hendpoint
  rcases endpoints_of_override hresult with ⟨value, hvalue, hparts⟩ | ⟨hnone, hsame⟩
  · rcases nested_eq_ok hnested with hfeed | ⟨-, rfl⟩
    · obtain ⟨items, rfl, htexts⟩ := endpoints_of_fits_feed fits hfeed hvalue
      obtain rfl : items = d.feed.endpoints := Except.ok.inj hparts
      exact ⟨htexts endpoint hendpoint, Or.inl ⟨feed, _, hfeed, hvalue, hendpoint⟩⟩
    · cases hvalue
  · rw [hsame] at hendpoint
    refine ⟨?_, Or.inr ⟨fun other hother => ?_, base, hbase, hendpoint⟩⟩
    · rw [endpoints_of_preset hbase] at hendpoint
      exact ⟨_, List.mem_singleton.mp hendpoint⟩
    · rcases nested_eq_ok hnested with hfeed | ⟨hunset, -⟩
      · cases hother.symm.trans hfeed
        exact hnone
      · cases hother.symm.trans hunset

end

/-! ### The promise -/

/-- What loading promises for a document: a valid deployment, or what is wrong with the document; endpoints as they are
    listed, no value in place of one of another shape, and that an empty section is like none. -/
structure LoadsAsPromised (depth : Nat) (env : Environment) (document : Document) : Prop where
  explained : ∀ e, ofDocument depth env document = .error e → e.Documented
  valid : ∀ d, ofDocument depth env document = .ok d → d.validate = .ok ()
  endpoints : ∀ s d, settingsOf depth env document = .ok s → ofDocument depth env document = .ok d →
    ∀ endpoint ∈ d.feed.endpoints, IsEndpoint s endpoint
  shapes : ∀ d, ofDocument depth env document = .ok d → (Layout.record Layout.deployment).Fits document
  emptySections : ∀ name ∈ Layout.deployment.map Prod.fst, ∀ earlier later : Settings,
    document = .map (earlier ++ (.text name, .null) :: later) → (∀ entry ∈ later, entry.1 ≠ .text name) →
      ofDocument depth env document = ofDocument depth env (.map (earlier ++ later))

/-- The documents that loading does not handle as promised. -/
inductive Mishandled (depth : Nat) (env : Environment) (document : Document) : Prop
  /-- It is no map, and not empty either. -/
  | noMap {result : Document} (resolved : env.resolve depth document = .ok result) (vacant : document.isVacant = false)
      (notMap : ∀ entries, document ≠ .map entries)
  /-- Its lists and maps stand too deep inside each other, and no name that cannot be looked up stands before that. -/
  | tooDeep (unresolved : env.resolve depth document = .error .tooDeep) (vacant : document.isVacant = false)
  /-- The first value that is refused is refused for its shape. -/
  | unexplained {s : Settings} {e : LoadError} (settings : settingsOf depth env document = .ok s)
      (refused : Layout.fieldsRefusal? Layout.deployment s = some e) (undocumented : ¬e.Documented)
  /-- There is a valid deployment, although a value is read as something that it is not. -/
  | misread {d : Deployment} (loaded : ofDocument depth env document = .ok d)
      (misread : (Layout.record Layout.deployment).Misread document)

section
variable {depth : Nat} {env : Environment} {document : Document}

theorem documented_of_handled (handled : ¬Mishandled depth env document) {e : LoadError}
    (h : ofDocument depth env document = .error e) : e.Documented := by
  rcases ofDocument_error_cases h with hsettings | ⟨s, hs, hrefused | ⟨cause, rfl⟩⟩
  · rcases settingsOf_error_cases hsettings with ⟨vacant, ⟨fault, rfl, hfault⟩ | ⟨rfl, notMap, result, resolved⟩⟩
    · cases fault with
      | name cause => trivial
      | tooDeep => exact absurd (.tooDeep hfault vacant) handled
    · exact absurd (.noMap resolved vacant notMap) handled
  · by_contra undocumented
    exact handled (.unexplained hs hrefused undocumented)
  · trivial

theorem fits_of_handled (handled : ¬Mishandled depth env document) {d : Deployment}
    (loaded : ofDocument depth env document = .ok d) : (Layout.record Layout.deployment).Fits document := by
  obtain ⟨entries, rfl, -, hd⟩ := settings_of_loaded loaded
  have hrefusal : (Layout.record Layout.deployment).refusal? (env.substitute (.map entries)) = none := by
    rw [Environment.substitute, Layout.refusal?, ← Settings.refusalOf_deployment, hd]
    rfl
  exact (Layout.fits_or_misread hrefusal).resolve_right fun misread => handled (.misread loaded misread)

theorem loadsAsPromised_of_handled (handled : ¬Mishandled depth env document) :
    LoadsAsPromised depth env document where
  explained _ := documented_of_handled handled
  valid d hd := by
    obtain ⟨_, -, -, valid⟩ := ofDocument_eq_ok.mp hd
    exact valid
  endpoints s d hs loaded := by
    have fits := fits_of_handled handled loaded
    obtain ⟨entries, rfl, hs', hd⟩ := settings_of_loaded loaded
    obtain rfl := Except.ok.inj (hs.symm.trans hs')
    exact endpoints_of_fits hd fits
  shapes _ := fits_of_handled handled
  emptySections name named earlier later hdocument last := by
    subst hdocument
    exact ofDocument_leaveOut named last fun _ => documented_of_handled handled

/-- A document of the right shapes is handled as promised, unless it is nested too deep. -/
theorem loadsAsPromised_of_fits (shallow : document.height ≤ depth)
    (fits : (Layout.record Layout.deployment).Fits document) : LoadsAsPromised depth env document := by
  apply loadsAsPromised_of_handled
  rintro (⟨-, -, notMap⟩ | ⟨unresolved, -⟩ | @⟨s, e, settings, refused, undocumented⟩ | ⟨-, misread⟩)
  · cases fits with
    | record each => exact notMap _ rfl
  · obtain ⟨cause, hcause, -⟩ := (Environment.resolve_eq_error shallow).mp unresolved
    cases hcause
  · have hrefused : (Layout.record Layout.deployment).refusal? (env.substitute document) = some e := by
      cases fits with
      | record each =>
        obtain rfl := eq_of_settingsOf_map settings
        rw [Environment.substitute, Layout.refusal?]
        exact refused
    exact undocumented (fits.documented hrefused)
  · exact misread.not_fits fits

end

/-- Loading keeps its promise for a document exactly if this is none of the four kinds. -/
theorem loads_as_promised_iff (depth : Nat) (env : Environment) (document : Document) :
    LoadsAsPromised depth env document ↔ ¬Mishandled depth env document := by
  refine ⟨fun promised => ?_, loadsAsPromised_of_handled⟩
  rintro (⟨resolved, vacant, notMap⟩ | ⟨unresolved, vacant⟩ | ⟨settings, refused, undocumented⟩ | ⟨loaded, misread⟩)
  · exact promised.explained _ (ofDocument_of_settings_error (settingsOf_of_not_map vacant notMap resolved))
  · exact promised.explained _ (ofDocument_of_settings_error (settingsOf_of_unresolved vacant unresolved))
  · exact undocumented (promised.explained _ (ofDocument_of_refusal settings refused))
  · exact misread.not_fits (promised.shapes _ loaded)

/-- A section that is left empty is no absent one, an endpoint in place of a list is taken apart, and a fraction is cut
    to an integer. -/
theorem empty_section_not_absent :
    let load := ofDocument 500 fun _ => none
    let preset : Scalar × Document := (.text "preset", .ofText "mainnet")
    let endpoint : Document := .map [(.text "endpoints", .ofText "https://a.example")]
    let fraction : Document := .map [(.text "version", .scalar (.float (.finite false 5629499534213120 (-51))))]
    load (.map [preset, (.text "price_feed", .null)]) = .error .notMap ∧
      ¬LoadsAsPromised 500 (fun _ => none) (.map [preset, (.text "price_feed", .null)]) ∧
      (∃ d, load (.map [preset]) = .ok d) ∧
      (∃ d, load (.map [preset, (.text "price_feed", endpoint)]) = .ok d ∧ Document.ofText "h" ∈ d.feed.endpoints) ∧
      ∃ d, load (.map [preset, (.text "master", fraction)]) = .ok d ∧ d.masterVersion = 2 := by
  intro load preset endpoint fraction
  have hrefused : load (.map [preset, (.text "price_feed", .null)]) = .error .notMap := rfl
  have hvalid : mainnet.validate = .ok () := by decide +kernel
  let letters : List Document := (Text.ofString "https://a.example").map fun point => .ofText [point]
  let torn : Deployment := { mainnet with feed := { presetFeed with endpoints := letters } }
  have htorn : torn.validate = .ok () := by decide +kernel
  let cut : Deployment := { mainnet with masterVersion := 2 }
  have hcut : cut.validate = .ok () := hvalid
  refine ⟨hrefused, fun promised => promised.explained _ hrefused, ⟨mainnet, ?_⟩, ⟨torn, ?_, List.mem_cons_self⟩,
    cut, ?_, rfl⟩
  · exact ofDocument_eq_ok.mpr ⟨[preset], rfl, rfl, hvalid⟩
  · exact ofDocument_eq_ok.mpr ⟨[preset, (.text "price_feed", endpoint)], rfl, rfl, htorn⟩
  · exact ofDocument_eq_ok.mpr ⟨[preset, (.text "master", fraction)], rfl, rfl, hcut⟩

end Deployment
end Solvency
