import Solvency.Proofs.Projections

/-! Accruals of whole stores: an update of the rates gives every asset what a projection of that asset alone gives, or is
    refused as a whole because nothing is known yet of the terms or of the states. An updated store is settled up to
    its time, so that to update it for that time or an earlier one changes nothing. -/

namespace Solvency

namespace AssetStore
variable {store accrued : AssetStore} {ids : List Int} {key : Text} {target target' : Int}

/-- A store that has assets, but no terms or no states of them. -/
def Undecoded (store : AssetStore) : Prop :=
  store.ids.keys ≠ [] ∧ (store.terms.rows = [] ∨ store.states.rows = [])

instance (store : AssetStore) : Decidable store.Undecoded := inferInstanceAs (Decidable (_ ∧ _))

theorem decoded?_of_undecoded (h : store.Undecoded) (key : Text) : store.decoded? key = none := by
  unfold decoded?
  rcases h.2 with hterms | hstates
  · simp [Table.get?, hterms]
  · cases store.terms.get? key <;> simp [Table.get?, hstates]

/-- A table that covers the assets and is not empty has an entry of every one of them. -/
theorem exists_get?_of_covers {α : Type} {t : Table Text α} (hcovers : t.Covers store.ids) (hne : t.rows ≠ [])
    (hkey : key ∈ store.ids.keys) : ∃ value, t.get? key = some value := by
  have hkeys : t.keys = store.ids.keys := hcovers.resolve_left hne
  obtain ⟨row, hrow, rfl⟩ := List.mem_map.mp (hkeys ▸ hkey)
  exact ⟨row.2, Table.get?_eq_some.mpr hrow⟩

theorem known_of_covered (hcovered : Covered ids store) (hdecoded : ¬store.Undecoded) :
    ∀ key ∈ store.ids.keys, ∃ terms state, store.terms.get? key = some terms ∧ store.states.get? key = some state := by
  intro key hkey
  rw [Undecoded, not_and_or, not_or, not_not] at hdecoded
  obtain ⟨hterms, hstates⟩ := hdecoded.resolve_left fun hempty => nomatch hempty ▸ hkey
  obtain ⟨terms, hterms⟩ := exists_get?_of_covers hcovered.terms hterms hkey
  obtain ⟨state, hstate⟩ := exists_get?_of_covers hcovered.states hstates hkey
  exact ⟨terms, state, hterms, hstate⟩

/-- The first asset is the one that an undecoded store cannot accrue. -/
theorem accrue_of_undecoded (h : store.Undecoded) (target : Int) :
    ∃ key, store.ids.keys.head? = some key ∧ store.accrue target = .error (.cannotAccrue key) := by
  cases hrows : store.ids.rows with
  | nil => exact absurd (congrArg (List.map Prod.fst) hrows) h.1
  | cons row rows =>
    have hkey : store.ids.keys.head? = some row.1 := by
      rw [Table.keys, hrows]
      rfl
    refine ⟨row.1, hkey, bind_of_eq_error (mapM_eq_error.mpr ⟨[], row, rows, hrows, by simp, ?_⟩) _⟩
    rw [decoded?_of_undecoded h]

/-- An accrued store is settled up to its time. -/
theorem accrue_accrued (h : store.accrue target = .ok accrued) (hle : target' ≤ target) :
    accrued.accrue target' = .ok accrued := by
  have hstates : ∀ {key terms state}, key ∈ store.ids.keys → store.decoded? key = some (terms, state) →
      accrued.decoded? key = some (terms, (terms.project state target).state) := by
    intro key terms state hkey hdecoded
    obtain ⟨hterms, hstate⟩ := decoded?_eq_some.mp hdecoded
    exact decoded?_eq_some.mpr ⟨(accrue_ok h).2.1 ▸ hterms, states_of_accrue h hkey hterms hstate⟩
  obtain ⟨rows, rfl, -, -, haccrued⟩ := accrue_inv h
  refine accrue_of_projected (s := { store with states := .ofList rows }) (Forall₂.imp_mem haccrued ?_)
  rintro row hrow _ ⟨terms, state, hdecoded, rfl⟩
  refine ⟨terms, _, hstates (List.mem_map_of_mem hrow) hdecoded, ?_⟩
  have hlast : target' ≤ (terms.project state target).state.lastAccrual := by
    rw [AssetTerms.project_state]
    exact Int.le_trans hle (Int.le_max_right _ _)
  rw [AssetTerms.project_of_le hlast]

end AssetStore

/-! ### Updates of a family -/

namespace StoreFamily
open AssetStore

/-- An update of the rates of a store for a time ahead: it is refused exactly if there are assets without terms or
    states; otherwise it adds a store with the same assets and terms, in which every asset has the state that it is
    projected to, and no other store changes. To update the added store for no later a time adds an equal one. -/
structure Updates (f : StoreFamily) (place : Nat) (store : AssetStore) (now forward : Int) : Prop where
  refused : store.Undecoded → ∃ key, store.ids.keys.head? = some key ∧
    f.step place (.updateCurrentRates forward) = (f, some (.error (.cannotAccrue key)))
  granted : ¬store.Undecoded → ∃ accrued,
    f.step place (.updateCurrentRates forward) =
      ({ f with stores := f.stores ++ [accrued] }, some (.ok (.contents accrued.contents))) ∧
    accrued.ids = store.ids ∧ accrued.terms = store.terms ∧ accrued.states.keys = store.ids.keys ∧
    (∀ key ∈ store.ids.keys, ∃ projection,
      f.step place (.project key (now + forward)) = (f, some (.ok (.projection projection))) ∧
        accrued.states.get? key = some projection.state) ∧
    ∀ forward' ≤ forward,
      { f with stores := f.stores ++ [accrued] }.step f.stores.length (.updateCurrentRates forward') =
        ({ f with stores := f.stores ++ [accrued] ++ [accrued] }, some (.ok (.contents accrued.contents)))

variable {f : StoreFamily} {place : Nat} {store : AssetStore} {ids : List Int} {now : Int}

theorem step_project {key : Text} {terms : AssetTerms} {state : AssetState} (hstore : f.stores[place]? = some store)
    (hterms : store.terms.get? key = some terms) (hstate : store.states.get? key = some state) (target : Int) :
    f.step place (.project key target) = (f, some (.ok (.projection (terms.project state target)))) := by
  simp only [step, hstore, stepAt, AssetStore.project, decoded?_eq_some.mpr ⟨hterms, hstate⟩]
  rfl

theorem updates (hcovered : Covered ids store) (hstore : f.stores[place]? = some store) (hnow : f.now = .ok now)
    (forward : Int) : Updates f place store now forward where
  refused hundecoded := by
    obtain ⟨key, hkey, herror⟩ := accrue_of_undecoded hundecoded (now + forward)
    have hrefused : (f.now >>= fun now => store.accrue (now + forward)) = .error (.cannotAccrue key) :=
      (bind_of_eq_ok hnow _).trans herror
    exact ⟨key, hkey, by simp only [step, hstore, stepAt, hrefused]⟩
  granted hdecoded := by
    have hknown := known_of_covered hcovered hdecoded
    obtain ⟨accrued, haccrued⟩ := exists_accrue_of_known hknown (now + forward)
    obtain ⟨hids, hterms, hkeys⟩ := accrue_ok haccrued
    refine ⟨accrued, step_updateCurrentRates hstore hnow haccrued, hids, hterms, hkeys, fun key hkey => ?_, ?_⟩
    · obtain ⟨terms, state, hterms, hstate⟩ := hknown key hkey
      exact ⟨_, step_project hstore hterms hstate _, states_of_accrue haccrued hkey hterms hstate⟩
    · intro forward' hle
      have hadded : (f.stores ++ [accrued])[f.stores.length]? = some accrued := List.getElem?_concat_length
      have hsettled : accrued.accrue (now + forward') = .ok accrued := accrue_accrued haccrued (by omega)
      exact step_updateCurrentRates (f := { f with stores := f.stores ++ [accrued] }) hadded hnow hsettled

/-- After any requests to the stores of a family, an update of the rates of any of its stores is either refused, for want
    of terms or states, or it adds a store in which every asset is projected to the time of the update and which later
    updates for no later a time leave as it is. -/
theorem updates_match_projections (ids : List Int) (clock : Instant) (requests : List (Nat × StoreRequest)) :
    let f := (ofStore clock (.ofIds ids)).after requests
    ∀ place store now, f.stores[place]? = some store → f.now = .ok now →
      ∀ forward, Updates f place store now forward := by
  intro f place store now hstore hnow forward
  have hcovered : ∀ s ∈ f.stores, Covered ids s := by
    refine covered_after fun s hs => ?_
    obtain rfl := List.mem_singleton.mp hs
    exact covered_ofIds ids
  exact updates (hcovered store (List.mem_of_getElem? hstore)) hstore hnow forward

/-- The second store of the pair is updated for a time that it has passed already; before anything was decoded, an update
    of the first one is refused. -/
theorem updates_match_projections_accrued :
    (∃ store, accruedPair.stores[1]? = some store ∧ accruedPair.now = .ok 1800000000 ∧ ¬store.Undecoded ∧
      Updates accruedPair 1 store 1800000000 30) ∧
    let f := ofStore (.whole 1800000000) (.ofIds [1, 2])
    f.stores[0]? = some (.ofIds [1, 2]) ∧ f.now = .ok 1800000000 ∧ (AssetStore.ofIds [1, 2]).Undecoded ∧
      Updates f 0 (.ofIds [1, 2]) 1800000000 60 := by
  have hlength : accruedPair.stores.length = 2 := by decide +kernel
  have hstore : accruedPair.stores[1]? = some accruedPair.stores[1] := List.getElem?_eq_getElem _
  have hnow : accruedPair.now = .ok 1800000000 := rfl
  have hdecoded : ∀ store ∈ accruedPair.stores, ¬store.Undecoded := by decide +kernel
  refine ⟨⟨_, hstore, hnow, hdecoded _ (List.mem_of_getElem? hstore), ?_⟩, rfl, rfl, by decide +kernel, ?_⟩
  · exact updates_match_projections [1, 2] (.whole 1800000000) _ 1 _ _ hstore hnow 30
  · exact updates_match_projections [1, 2] (.whole 1800000000) [] 0 _ _ rfl rfl 60

end StoreFamily

end Solvency
