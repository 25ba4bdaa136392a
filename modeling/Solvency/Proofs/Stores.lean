import Solvency.Asset.Family
import Solvency.Proofs.Interest
import Solvency.Proofs.Tables
import Solvency.Proofs.Traversal

/-! Stores: what holds of the stores of a family after any requests. Every store keeps its assets, and each of its two
    tables is empty or covers all of them, because a snapshot is read as a whole or refused. -/

namespace Solvency

/-- A table is empty or has exactly the keys of the assets. -/
def Table.Covers {α : Type} (t : Table Text α) (ids : Table Text Int) : Prop := t.rows = [] ∨ t.keys = ids.keys

/-- The errors of a snapshot that is not read, rather than of a store that knows too little or of a clock. -/
def StoreError.IsDecoding : StoreError → Prop
  | .missingEntry .. | .malformedEntry .. => True
  | .notDecoded _ | .cannotAccrue _ | .clock _ => False

namespace AssetStore

/-! ### Snapshots -/

section Snapshots
variable {α : Type} {ids : Table Text Int} {kind : SnapshotKind} {reader : CellReader α} {d : Dictionary}

/-- A snapshot has no entry for some asset, or one that is not read. -/
def Flawed (ids : Table Text Int) (reader : CellReader α) (d : Dictionary) : Prop :=
  ∃ row ∈ ids.rows, d.get? row.2 = none ∨ ∃ entry cause, d.get? row.2 = some entry ∧ entry.parse reader = .error cause

/-- A table holds for every asset, and for no other, what is read from the asset's entry in a snapshot. -/
structure Reads (ids : Table Text Int) (reader : CellReader α) (d : Dictionary) (t : Table Text α) : Prop where
  keys : t.keys = ids.keys
  entry : ∀ row ∈ ids.rows, ∃ entry value, d.get? row.2 = some entry ∧ entry.parse reader = .ok value ∧
    t.get? row.1 = some value

theorem reads_of_decodeEach {t : Table Text α} (h : decodeEach ids kind reader d = .ok t) : Reads ids reader d t := by
  obtain ⟨rows, hrows, h⟩ := bind_eq_ok.mp h
  obtain rfl := pure_eq_ok.mp h
  have hread : List.Forall₂ (fun row read => row.1 = read.1 ∧ ∃ entry, d.get? row.2 = some entry ∧
      entry.parse reader = .ok read.2) ids.rows rows := by
    refine (mapM_eq_ok.mp hrows).imp fun row read hread => ?_
    split at hread
    · cases hread
    · rename_i entry hentry
      split at hread
      · rename_i value hvalue
        cases hread
        exact ⟨rfl, entry, hentry, hvalue⟩
      · cases hread
  have hkeys : ids.keys = rows.map Prod.fst := Forall₂.map_eq (hread.imp fun _ _ h => h.1)
  have hkept : (Table.ofList rows).rows = rows := Table.rows_ofList_of_nodup (hkeys ▸ ids.distinct)
  refine ⟨by rw [hkeys, Table.keys, hkept], fun row hrow => ?_⟩
  obtain ⟨read, hmem, hsame, entry, hentry, hvalue⟩ := Forall₂.exists_right hread hrow
  refine ⟨entry, read.2, hentry, hvalue, Table.get?_eq_some.mpr ?_⟩
  rw [hkept, hsame]
  exact hmem

/-- Why the reading of a snapshot is refused: the error names an asset, its entry is missing or not read. -/
theorem decodeEach_error {e : StoreError} (h : decodeEach ids kind reader d = .error e) :
    ∃ row ∈ ids.rows, (d.get? row.2 = none ∧ e = .missingEntry kind row.1) ∨
      ∃ entry cause, d.get? row.2 = some entry ∧ entry.parse reader = .error cause ∧
        e = .malformedEntry kind row.1 cause := by
  rcases bind_eq_error.mp h with h | ⟨_, -, h⟩
  · obtain ⟨row, hrow, h⟩ := exists_of_mapM_error h
    refine ⟨row, hrow, ?_⟩
    split at h
    · rename_i hnone
      cases h
      exact Or.inl ⟨hnone, rfl⟩
    · rename_i entry hentry
      split at h
      · cases h
      · rename_i cause hcause
        cases h
        exact Or.inr ⟨entry, cause, hentry, hcause, rfl⟩
  · cases h

theorem decodeEach_error_iff : (∃ e, decodeEach ids kind reader d = .error e) ↔ Flawed ids reader d := by
  constructor
  · rintro ⟨e, h⟩
    obtain ⟨row, hrow, ⟨hnone, -⟩ | ⟨entry, cause, hentry, hcause, -⟩⟩ := decodeEach_error h
    · exact ⟨row, hrow, Or.inl hnone⟩
    · exact ⟨row, hrow, Or.inr ⟨entry, cause, hentry, hcause⟩⟩
  · rintro ⟨row, hrow, hflaw⟩
    cases hdecode : decodeEach ids kind reader d with
    | error e => exact ⟨e, rfl⟩
    | ok t =>
      obtain ⟨entry, value, hentry, hvalue, -⟩ := (reads_of_decodeEach hdecode).entry row hrow
      rcases hflaw with hnone | ⟨entry', cause, hentry', hcause⟩
      · rw [hnone] at hentry
        cases hentry
      · rw [hentry] at hentry'
        cases hentry'
        rw [hvalue] at hcause
        cases hcause

end Snapshots

/-! ### Tables under a snapshot that may have been left out -/

section Updates
variable {α : Type} {ids : Table Text Int} {kind : SnapshotKind} {reader : CellReader α} {snapshot : Option Dictionary}
  {old new : Table Text α} {e : StoreError}

def update (ids : Table Text Int) (kind : SnapshotKind) (reader : CellReader α) (snapshot : Option Dictionary)
    (old : Table Text α) : Except StoreError (Table Text α) :=
  match snapshot with
  | some d => decodeEach ids kind reader d
  | none => .ok old

def Updated (ids : Table Text Int) (reader : CellReader α) (snapshot : Option Dictionary) (old new : Table Text α) :
    Prop :=
  match snapshot with
  | some d => Reads ids reader d new
  | none => new = old

theorem updated_of_update (h : update ids kind reader snapshot old = .ok new) :
    Updated ids reader snapshot old new := by
  cases snapshot with
  | none => exact (Except.ok.inj h).symm
  | some d => exact reads_of_decodeEach h

theorem update_error_iff :
    (∃ e, update ids kind reader snapshot old = .error e) ↔ ∃ d, snapshot = some d ∧ Flawed ids reader d := by
  cases snapshot with
  | none => simp [update]
  | some d => simpa [update] using decodeEach_error_iff

theorem isDecoding_of_update (h : update ids kind reader snapshot old = .error e) : e.IsDecoding := by
  cases snapshot with
  | none => cases h
  | some d =>
    obtain ⟨row, -, ⟨-, rfl⟩ | ⟨_, cause, -, -, rfl⟩⟩ := decodeEach_error h
    · exact trivial
    · exact trivial

/-- Only a snapshot can be refused, whatever the table was that it is to replace. -/
theorem update_error_congr (h : update ids kind reader snapshot old = .error e) (other : Table Text α) :
    update ids kind reader snapshot other = .error e := by
  cases snapshot with
  | none => cases h
  | some d => exact h

theorem exists_update_congr (h : update ids kind reader snapshot old = .ok new) (other : Table Text α) :
    ∃ replaced, update ids kind reader snapshot other = .ok replaced := by
  cases snapshot with
  | none => exact ⟨other, rfl⟩
  | some d => exact ⟨new, h⟩

theorem Updated.covers (h : Updated ids reader snapshot old new) (hold : old.Covers ids) : new.Covers ids := by
  cases snapshot with
  | none =>
    have hsame : new = old := h
    rwa [hsame]
  | some d => exact Or.inr (Reads.keys h)

end Updates

/-! ### Operations on one store -/

section Operations
variable {s s' : AssetStore} {states terms : Option Dictionary} {e : StoreError}

theorem decode_eq : s.decode states terms = do
    let states ← update s.ids .states AssetState.reader states s.states
    let terms ← update s.ids .terms AssetTerms.reader terms s.terms
    return { s with terms, states } := by
  cases states <;> cases terms <;> rfl

theorem decode_ok (h : s.decode states terms = .ok s') :
    s'.ids = s.ids ∧ Updated s.ids AssetState.reader states s.states s'.states ∧
      Updated s.ids AssetTerms.reader terms s.terms s'.terms := by
  rw [decode_eq] at h
  obtain ⟨_, hstates, h⟩ := bind_eq_ok.mp h
  obtain ⟨_, hterms, h⟩ := bind_eq_ok.mp h
  obtain rfl := pure_eq_ok.mp h
  exact ⟨rfl, updated_of_update hstates, updated_of_update hterms⟩

/-- The snapshots that a store refuses: one that was given is flawed. -/
def Refuses (s : AssetStore) (states terms : Option Dictionary) : Prop :=
  (∃ d, states = some d ∧ Flawed s.ids AssetState.reader d) ∨ ∃ d, terms = some d ∧ Flawed s.ids AssetTerms.reader d

theorem exists_decode_error_iff : (∃ e, s.decode states terms = .error e) ↔ s.Refuses states terms := by
  have hflawedStates : (∃ e, update s.ids .states AssetState.reader states s.states = .error e) ↔ _ := update_error_iff
  have hflawedTerms : (∃ e, update s.ids .terms AssetTerms.reader terms s.terms = .error e) ↔ _ := update_error_iff
  rw [Refuses, ← hflawedStates, ← hflawedTerms, decode_eq]
  constructor
  · rintro ⟨e, h⟩
    rcases bind_eq_error.mp h with h | ⟨_, -, h⟩
    · exact Or.inl ⟨e, h⟩
    · rcases bind_eq_error.mp h with h | ⟨_, -, h⟩
      · exact Or.inr ⟨e, h⟩
      · cases h
  · intro hrefused
    cases hstates : update s.ids .states AssetState.reader states s.states with
    | error e => exact ⟨e, rfl⟩
    | ok newStates =>
      rw [hstates] at hrefused
      obtain ⟨e, he⟩ := hrefused.resolve_left (by simp)
      exact ⟨e, bind_eq_error.mpr (Or.inr ⟨newStates, rfl, bind_eq_error.mpr (Or.inl he)⟩)⟩

theorem decode_error_congr (h : s.decode states terms = .error e) (hids : s'.ids = s.ids) :
    s'.decode states terms = .error e := by
  rw [decode_eq] at h ⊢
  rw [hids]
  rcases bind_eq_error.mp h with hstates | ⟨_, hstates, h⟩
  · exact bind_eq_error.mpr (Or.inl (update_error_congr hstates _))
  · obtain ⟨_, hstates⟩ := exists_update_congr hstates s'.states
    rcases bind_eq_error.mp h with hterms | ⟨_, _, h⟩
    · exact bind_eq_error.mpr (Or.inr ⟨_, hstates, bind_eq_error.mpr (Or.inl (update_error_congr hterms _))⟩)
    · cases h

theorem isDecoding_of_decode (h : s.decode states terms = .error e) : e.IsDecoding := by
  rw [decode_eq] at h
  rcases bind_eq_error.mp h with h | ⟨_, -, h⟩
  · exact isDecoding_of_update h
  · rcases bind_eq_error.mp h with h | ⟨_, -, h⟩
    · exact isDecoding_of_update h
    · cases h

/-- An accrual projects every asset in the order of the ids; no row replaces another, since the ids are distinct. -/
theorem accrue_inv {target : Int} (h : s.accrue target = .ok s') :
    ∃ rows, s' = { s with states := .ofList rows } ∧ (Table.ofList rows).rows = rows ∧ rows.map Prod.fst = s.ids.keys ∧
      List.Forall₂ (fun row accrued => ∃ terms state, s.decoded? row.1 = some (terms, state) ∧
        accrued = (row.1, (terms.project state target).state)) s.ids.rows rows := by
  obtain ⟨rows, hrows, h⟩ := bind_eq_ok.mp h
  have haccrued : List.Forall₂ (fun row accrued => ∃ terms state, s.decoded? row.1 = some (terms, state) ∧
      accrued = (row.1, (terms.project state target).state)) s.ids.rows rows := by
    refine (mapM_eq_ok.mp hrows).imp fun row accrued haccrued => ?_
    split at haccrued
    · rename_i terms state hdecoded
      cases haccrued
      exact ⟨terms, state, hdecoded, rfl⟩
    · cases haccrued
  have hkeys : s.ids.keys = rows.map Prod.fst := Forall₂.map_eq (haccrued.imp fun _ _ ⟨_, _, _, hrow⟩ => hrow ▸ rfl)
  exact ⟨rows, (pure_eq_ok.mp h).symm, Table.rows_ofList_of_nodup (hkeys ▸ s.ids.distinct), hkeys.symm, haccrued⟩

theorem decoded?_eq_some {key : Text} {terms : AssetTerms} {state : AssetState} :
    s.decoded? key = some (terms, state) ↔ s.terms.get? key = some terms ∧ s.states.get? key = some state := by
  unfold decoded?
  cases s.terms.get? key <;> cases s.states.get? key <;> simp

theorem accrue_of_projected {target : Int} {rows : List (Text × AssetState)}
    (h : List.Forall₂ (fun row accrued => ∃ terms state, s.decoded? row.1 = some (terms, state) ∧
      accrued = (row.1, (terms.project state target).state)) s.ids.rows rows) :
    s.accrue target = .ok { s with states := .ofList rows } := by
  refine bind_eq_ok.mpr ⟨rows, mapM_eq_ok.mpr (h.imp fun row accrued haccrued => ?_), rfl⟩
  obtain ⟨terms, state, hdecoded, rfl⟩ := haccrued
  rw [hdecoded]

theorem exists_accrue_of_known
    (known : ∀ key ∈ s.ids.keys, ∃ terms state, s.terms.get? key = some terms ∧ s.states.get? key = some state)
    (target : Int) : ∃ accrued, s.accrue target = .ok accrued := by
  obtain ⟨rows, hrows⟩ : ∃ rows, List.Forall₂ (fun row accrued => ∃ terms state,
      s.decoded? row.1 = some (terms, state) ∧ accrued = (row.1, (terms.project state target).state))
      s.ids.rows rows := by
    refine exists_forall₂ fun row hrow => ?_
    obtain ⟨terms, state, hknown⟩ := known row.1 (List.mem_map_of_mem hrow)
    exact ⟨_, terms, state, decoded?_eq_some.mpr hknown, rfl⟩
  exact ⟨_, accrue_of_projected hrows⟩

theorem accrue_ok {target : Int} (h : s.accrue target = .ok s') :
    s'.ids = s.ids ∧ s'.terms = s.terms ∧ s'.states.keys = s.ids.keys := by
  obtain ⟨rows, rfl, hrows, hkeys, -⟩ := accrue_inv h
  exact ⟨rfl, rfl, (congrArg (List.map Prod.fst) hrows).trans hkeys⟩

/-- A store of the assets that it was made for, whose tables are empty or cover them. -/
structure Covered (ids : List Int) (s : AssetStore) : Prop where
  ids : s.ids = (ofIds ids).ids
  terms : s.terms.Covers s.ids
  states : s.states.Covers s.ids

theorem covered_ofIds (ids : List Int) : Covered ids (ofIds ids) := ⟨rfl, Or.inl rfl, Or.inl rfl⟩

theorem Covered.decode {ids : List Int} (hs : Covered ids s) (h : s.decode states terms = .ok s') : Covered ids s' := by
  obtain ⟨hids, hstates, hterms⟩ := decode_ok h
  exact ⟨hids.trans hs.ids, hids ▸ hterms.covers hs.terms, hids ▸ hstates.covers hs.states⟩

theorem Covered.accrue {ids : List Int} {target : Int} (hs : Covered ids s) (h : s.accrue target = .ok s') :
    Covered ids s' := by
  obtain ⟨hids, hterms, hstates⟩ := accrue_ok h
  exact ⟨hids.trans hs.ids, by rw [hids, hterms]; exact hs.terms, Or.inr (by rw [hids, hstates])⟩

end Operations

end AssetStore

/-! ### Families -/

namespace StoreFamily
open AssetStore

section Steps
variable {f : StoreFamily} {ids : List Int} {place : Nat} {store : AssetStore} {request : StoreRequest}

/-- What a request can do to the stores: nothing, replace the one that it speaks to by what that one decodes, or add
    what that one accrues to. -/
theorem stores_step (request : StoreRequest) (h : f.stores[place]? = some store) :
    (f.step place request).1.stores = f.stores ∨
    (∃ states terms decoded, request = .decode states terms ∧ store.decode states terms = .ok decoded ∧
      (f.step place request).1.stores = f.stores.set place decoded) ∨
    ∃ target accrued, store.accrue target = .ok accrued ∧
      (f.step place request).1.stores = f.stores ++ [accrued] := by
  simp only [step, h]
  cases request with
  | decode states terms =>
    simp only [stepAt]
    split
    · rename_i decoded hdecoded
      exact Or.inr (Or.inl ⟨states, terms, decoded, rfl, hdecoded, rfl⟩)
    · exact Or.inl rfl
  | updateCurrentRates forward =>
    simp only [stepAt]
    split
    · rename_i accrued haccrued
      obtain ⟨now, -, haccrued⟩ := bind_eq_ok.mp haccrued
      exact Or.inr (Or.inr ⟨now + forward, accrued, haccrued, rfl⟩)
    · exact Or.inl rfl
  | setClock | ids | terms | state | contents | project | currentRates => exact Or.inl rfl

theorem step_of_none (h : f.stores[place]? = none) : f.step place request = (f, none) := by
  simp only [step, h]

theorem covered_step (h : ∀ s ∈ f.stores, Covered ids s) : ∀ s ∈ (f.step place request).1.stores, Covered ids s := by
  intro s hs
  cases hstore : f.stores[place]? with
  | none =>
    rw [step_of_none hstore] at hs
    exact h s hs
  | some store =>
    have hcovered := h store (List.mem_of_getElem? hstore)
    rcases stores_step request hstore with
      hsame | ⟨_, _, decoded, -, hdecoded, hset⟩ | ⟨_, accrued, haccrued, hadd⟩
    · exact h s (hsame ▸ hs)
    · rw [hset] at hs
      rcases List.mem_or_eq_of_mem_set hs with hs | rfl
      · exact h s hs
      · exact hcovered.decode hdecoded
    · rw [hadd] at hs
      rcases List.mem_append.mp hs with hs | hs
      · exact h s hs
      · obtain rfl := List.mem_singleton.mp hs
        exact hcovered.accrue haccrued

theorem covered_after {requests : List (Nat × StoreRequest)} (h : ∀ s ∈ f.stores, Covered ids s) :
    ∀ s ∈ (f.after requests).stores, Covered ids s := by
  induction requests generalizing f with
  | nil => exact h
  | cons request requests ih => exact ih (covered_step h)

/-- A request leaves the stores at other places as they are. -/
theorem step_others (h : f.stores[place]? = some store) {other : Nat} {s : AssetStore} (hother : other ≠ place)
    (hs : f.stores[other]? = some s) : (f.step place request).1.stores[other]? = some s := by
  rcases stores_step request h with hsame | ⟨_, _, decoded, -, -, hset⟩ | ⟨_, accrued, -, hadd⟩
  · rw [hsame, hs]
  · rw [hset, List.getElem?_set_ne (Ne.symm hother), hs]
  · rw [hadd, List.getElem?_append_left (List.getElem?_eq_some_iff.mp hs).1, hs]

end Steps

/-- Decoding is atomic: snapshots are refused exactly when one that was given is flawed, and then no store changes;
    otherwise each table of the store becomes the reading of its snapshot, or stays if there is none. -/
structure Decodes (f : StoreFamily) (place : Nat) (store : AssetStore) (states terms : Option Dictionary) : Prop where
  refused_iff : (∃ e, (f.step place (.decode states terms)).2 = some (.error e)) ↔ store.Refuses states terms
  refused : ∀ e, (f.step place (.decode states terms)).2 = some (.error e) →
    e.IsDecoding ∧ (f.step place (.decode states terms)).1 = f
  granted : ¬store.Refuses states terms → (f.step place (.decode states terms)).2 = some (.ok .done) ∧
    ∃ decoded, (f.step place (.decode states terms)).1.stores[place]? = some decoded ∧ decoded.ids = store.ids ∧
      Updated store.ids AssetState.reader states store.states decoded.states ∧
      Updated store.ids AssetTerms.reader terms store.terms decoded.terms

theorem decodes {f : StoreFamily} {place : Nat} {store : AssetStore} (h : f.stores[place]? = some store)
    (states terms : Option Dictionary) : Decodes f place store states terms := by
  have hrefuses : (∃ e, store.decode states terms = .error e) ↔ store.Refuses states terms := exists_decode_error_iff
  have hplace := (List.getElem?_eq_some_iff.mp h).1
  cases hdecode : store.decode states terms with
  | error e =>
    have hstep : f.step place (.decode states terms) = (f, some (.error e)) := by simp only [step, h, stepAt, hdecode]
    rw [hdecode] at hrefuses
    refine ⟨?_, ?_, fun hnot => absurd (hrefuses.mp ⟨e, rfl⟩) hnot⟩
    · rw [hstep, ← hrefuses]
      simp
    · rw [hstep]
      rintro e' he
      cases he
      exact ⟨isDecoding_of_decode hdecode, rfl⟩
  | ok decoded =>
    have hstep : f.step place (.decode states terms) =
        ({ f with stores := f.stores.set place decoded }, some (.ok .done)) := by
      simp only [step, h, stepAt, hdecode]
    rw [hdecode] at hrefuses
    refine ⟨?_, ?_, fun _ => ?_⟩
    · rw [hstep, ← hrefuses]
      simp
    · rw [hstep]
      rintro e he
      cases he
    · rw [hstep]
      exact ⟨rfl, decoded, List.getElem?_set_self hplace, decode_ok hdecode⟩

/-- After any requests to the stores of a family, granted or refused, every store has the assets that the first one was
    made for, and its tables are empty or cover them; a request to one store leaves the others as they are, and
    decoding is atomic. -/
theorem stores_after (ids : List Int) (clock : Instant) (requests : List (Nat × StoreRequest)) :
    let f := (ofStore clock (.ofIds ids)).after requests
    (∀ store ∈ f.stores, Covered ids store) ∧
      ∀ place store, f.stores[place]? = some store →
        (∀ request other s, other ≠ place → f.stores[other]? = some s →
          (f.step place request).1.stores[other]? = some s) ∧
        ∀ states terms, Decodes f place store states terms := by
  intro f
  have hcovered : ∀ store ∈ f.stores, Covered ids store := by
    refine covered_after fun s hs => ?_
    obtain rfl := List.mem_singleton.mp hs
    exact covered_ofIds ids
  exact ⟨hcovered, fun place store hstore =>
    ⟨fun request other s hother hs => step_others hstore hother hs, fun states terms => decodes hstore states terms⟩⟩

def stateCell (state : AssetState) : Cell :=
  .ofParts ((state.fields.zip stateWidths).map fun field => .uint field.2 field.1) []

def termsCell (terms : AssetTerms) : Cell :=
  .ofParts (((terms.fields.take 2).zip termsHeadWidths).map fun field => .uint field.2 field.1)
    [.ofParts (((terms.fields.drop 2).zip termsTailWidths).map fun field => .uint field.2 field.1) []]

/-- A family of two stores of the assets 1 and 2: the first was decoded, and the second is the first one accrued. -/
def accruedPair : StoreFamily :=
  (ofStore (.whole 1800000000) (.ofIds [1, 2])).after
    [(0, .decode (some (.ofList [(1, stateCell overlentState), (2, stateCell overlentState)]))
      (some (.ofList [(1, termsCell kinkedTerms), (2, termsCell kinkedTerms)]))),
     (0, .updateCurrentRates 60)]

/-- The accrued store refuses a snapshot in which an asset is missing, although it comes with one that is complete. -/
theorem stores_after_missing_entry :
    ∃ store, accruedPair.stores[1]? = some store ∧ Covered [1, 2] store ∧
      store.Refuses (some (.ofList [(1, stateCell overlentState), (2, stateCell overlentState)]))
        (some (.ofList [(1, termsCell kinkedTerms)])) ∧
      Decodes accruedPair 1 store (some (.ofList [(1, stateCell overlentState), (2, stateCell overlentState)]))
        (some (.ofList [(1, termsCell kinkedTerms)])) := by
  obtain ⟨hcovered, hplaces⟩ := stores_after [1, 2] (.whole 1800000000)
    [(0, .decode (some (.ofList [(1, stateCell overlentState), (2, stateCell overlentState)]))
      (some (.ofList [(1, termsCell kinkedTerms), (2, termsCell kinkedTerms)]))),
     (0, .updateCurrentRates 60)]
  have hlength : accruedPair.stores.length = 2 := by decide +kernel
  have hstore : accruedPair.stores[1]? = some accruedPair.stores[1] := List.getElem?_eq_getElem _
  have hids := (hcovered _ (List.mem_of_getElem? hstore)).ids
  refine ⟨_, hstore, hcovered _ (List.mem_of_getElem? hstore), Or.inr ⟨_, rfl, (Text.decimal 2, 2), ?_, Or.inl rfl⟩,
    (hplaces 1 _ hstore).2 _ _⟩
  rw [hids]
  decide

end StoreFamily

end Solvency
