import Solvency.Proofs.Limits
import Solvency.Proofs.Stores

/-! Projections: accrual up to a later time. Only the indices and the time move; the borrow index never falls, and the
    supply index moves to one side, by the sign of what the reserve leaves of the interest. Debts therefore only grow
    with time, also those that a supply turns into when its index has fallen below zero. -/

namespace Solvency

/-! ### Indices -/

section Indices
variable {index rate elapsed elapsed' : Int}

@[simp] theorem grownIndex_zero (index rate : Int) : grownIndex index rate 0 = index := by simp [grownIndex]

theorem grownIndex_mono (hindex : 0 ≤ index) (hrate : 0 ≤ rate) (h : elapsed ≤ elapsed') :
    grownIndex index rate elapsed ≤ grownIndex index rate elapsed' := by
  have hinterest := Int.mul_le_mul_of_nonneg_left h hrate
  exact Int.add_le_add_left (scaled_le_scaled indexScale_pos (Int.mul_le_mul_of_nonneg_left hinterest hindex)) index

theorem grownIndex_anti (hindex : 0 ≤ index) (hrate : rate ≤ 0) (h : elapsed ≤ elapsed') :
    grownIndex index rate elapsed' ≤ grownIndex index rate elapsed := by
  have hinterest := Int.mul_le_mul_of_nonpos_left hrate h
  exact Int.add_le_add_left (scaled_le_scaled indexScale_pos (Int.mul_le_mul_of_nonneg_left hinterest hindex)) index

end Indices

namespace AssetTerms

section Rates
variable {terms : AssetTerms} {rate utilization : Int}

theorem supplyRate_nonneg (hrate : 0 ≤ rate) (h : 0 ≤ utilization) (hreserve : terms.reserveFactor ≤ reserveScale) :
    0 ≤ terms.supplyRate rate utilization :=
  scaled_nonneg (scaled_nonneg hrate h (Int.le_of_lt indexScale_pos)) (by omega) (by decide)

/-- A reserve of more than the whole takes from the suppliers. -/
theorem supplyRate_nonpos (hrate : 0 ≤ rate) (h : 0 ≤ utilization) (hreserve : reserveScale ≤ terms.reserveFactor) :
    terms.supplyRate rate utilization ≤ 0 := by
  apply scaled_le (by decide)
  rw [Int.zero_mul]
  exact Int.mul_nonpos_of_nonneg_of_nonpos (scaled_nonneg hrate h (Int.le_of_lt indexScale_pos)) (by omega)

end Rates

section Targets
variable {terms : AssetTerms} {state : AssetState} {target target' : Int}

/-- The state at a target, which counts as the last accrual if it is earlier. -/
theorem project_state (terms : AssetTerms) (state : AssetState) (target : Int) :
    (terms.project state target).state = { state with
      supplyIndex := grownIndex state.supplyIndex
        (terms.supplyRate (terms.borrowRate state.utilization) state.utilization) (max (target - state.lastAccrual) 0)
      borrowIndex := grownIndex state.borrowIndex (terms.borrowRate state.utilization)
        (max (target - state.lastAccrual) 0)
      lastAccrual := max state.lastAccrual target } := by
  unfold project
  by_cases helapsed : target - state.lastAccrual ≤ 0
  · simp [helapsed, Int.max_eq_left (show target ≤ state.lastAccrual by omega)]
  · simp [helapsed, Int.max_eq_left (show 0 ≤ target - state.lastAccrual by omega),
      Int.max_eq_right (show state.lastAccrual ≤ target by omega)]

theorem project_of_le (h : target ≤ state.lastAccrual) :
    terms.project state target = { state, supplyInterest := 0, borrowInterest := 0 } := by
  simp [project, show target - state.lastAccrual ≤ 0 by omega]

theorem borrowIndex_project_mono (hterms : terms.Nonneg) (hstate : state.Nonneg) (h : target ≤ target') :
    (terms.project state target).state.borrowIndex ≤ (terms.project state target').state.borrowIndex := by
  rw [project_state, project_state]
  have hrate := borrowRate_nonneg hterms (AssetState.utilization_nonneg hstate)
  exact grownIndex_mono hstate.amounts.2.1 hrate (by omega)

theorem supplyIndex_project_mono (hterms : terms.Nonneg) (hstate : state.Nonneg)
    (hreserve : terms.reserveFactor ≤ reserveScale) (h : target ≤ target') :
    (terms.project state target).state.supplyIndex ≤ (terms.project state target').state.supplyIndex := by
  rw [project_state, project_state]
  have hutilization := AssetState.utilization_nonneg hstate
  have hrate := supplyRate_nonneg (borrowRate_nonneg hterms hutilization) hutilization hreserve
  exact grownIndex_mono hstate.amounts.1 hrate (by omega)

theorem supplyIndex_project_anti (hterms : terms.Nonneg) (hstate : state.Nonneg)
    (hreserve : reserveScale ≤ terms.reserveFactor) (h : target ≤ target') :
    (terms.project state target').state.supplyIndex ≤ (terms.project state target).state.supplyIndex := by
  rw [project_state, project_state]
  have hutilization := AssetState.utilization_nonneg hstate
  have hrate := supplyRate_nonpos (borrowRate_nonneg hterms hutilization) hutilization hreserve
  exact grownIndex_anti hstate.amounts.1 hrate (by omega)

theorem supplyIndex_project_nonneg (hterms : terms.Nonneg) (hstate : state.Nonneg)
    (hreserve : terms.reserveFactor ≤ reserveScale) (target : Int) :
    0 ≤ (terms.project state target).state.supplyIndex := by
  rw [project_state]
  have hutilization := AssetState.utilization_nonneg hstate
  have hrate := supplyRate_nonneg (borrowRate_nonneg hterms hutilization) hutilization hreserve
  have hgrown := grownIndex_mono hstate.amounts.1 hrate (Int.le_max_right (target - state.lastAccrual) 0)
  rw [grownIndex_zero] at hgrown
  exact Int.le_trans hstate.amounts.1 hgrown

end Targets

/-- What the accruals of a state up to two targets, an earlier one and a later one, have to do with each other and with
    the state. -/
structure Advances (terms : AssetTerms) (state : AssetState) (earlier later : Int) : Prop where
  moved : (terms.project state later).state = { state with
    supplyIndex := (terms.project state later).state.supplyIndex
    borrowIndex := (terms.project state later).state.borrowIndex
    lastAccrual := max state.lastAccrual later }
  borrowIndex : (terms.project state earlier).state.borrowIndex ≤ (terms.project state later).state.borrowIndex
  supplyIndex_mono : terms.reserveFactor ≤ reserveScale →
    (terms.project state earlier).state.supplyIndex ≤ (terms.project state later).state.supplyIndex
  supplyIndex_anti : reserveScale ≤ terms.reserveFactor →
    (terms.project state later).state.supplyIndex ≤ (terms.project state earlier).state.supplyIndex
  settled : ∀ target ≤ (terms.project state later).state.lastAccrual,
    terms.project (terms.project state later).state target =
      { state := (terms.project state later).state, supplyInterest := 0, borrowInterest := 0 }

theorem advances {terms : AssetTerms} {state : AssetState} {earlier later : Int} (hterms : terms.Nonneg)
    (hstate : state.Nonneg) (h : earlier ≤ later) : terms.Advances state earlier later where
  moved := by rw [project_state]
  borrowIndex := borrowIndex_project_mono hterms hstate h
  supplyIndex_mono hreserve := supplyIndex_project_mono hterms hstate hreserve h
  supplyIndex_anti hreserve := supplyIndex_project_anti hterms hstate hreserve h
  settled _ := project_of_le

/-- What is owed of an asset, be it of a debt or of a supply whose index is negative, only grows with time. -/
theorem owed_le_owed {terms : AssetTerms} {state : AssetState} {earlier later : Int} (hterms : terms.Nonneg)
    (hstate : state.Nonneg) (h : earlier ≤ later) (principal : Int) :
    max (-Position.balanceOf principal (terms.project state earlier).state) 0 ≤
      max (-Position.balanceOf principal (terms.project state later).state) 0 := by
  rcases Int.le_total 0 principal with hheld | howed
  · rw [Position.balanceOf_of_nonneg hheld, Position.balanceOf_of_nonneg hheld]
    -- a supply comes to be owed only where the reserve takes more than the interest
    rcases Int.le_total terms.reserveFactor reserveScale with hreserve | hreserve
    · have hnothing := scaled_nonneg hheld (supplyIndex_project_nonneg hterms hstate hreserve earlier)
        (Int.le_of_lt indexScale_pos)
      omega
    · have hfallen := scaled_le_scaled indexScale_pos
        (Int.mul_le_mul_of_nonneg_left (supplyIndex_project_anti hterms hstate hreserve h) hheld)
      omega
  · rw [Position.balanceOf_of_nonpos howed, Position.balanceOf_of_nonpos howed]
    have hgrown := scaled_le_scaled indexScale_pos
      (Int.mul_le_mul_of_nonpos_left howed (borrowIndex_project_mono hterms hstate h))
    omega

end AssetTerms

/-! ### Stores -/

namespace AssetStore
variable {store accrued : AssetStore} {key : Text} {terms : AssetTerms} {state : AssetState} {target : Int}

/-- Every asset of a store is decoded, and no field is negative. -/
def Decoded (store : AssetStore) : Prop :=
  ∀ key ∈ store.ids.keys, ∃ terms state, store.terms.get? key = some terms ∧ store.states.get? key = some state ∧
    terms.Nonneg ∧ state.Nonneg

theorem exists_accrue (decoded : store.Decoded) (target : Int) : ∃ accrued, store.accrue target = .ok accrued := by
  refine exists_accrue_of_known (fun key hkey => ?_) target
  obtain ⟨terms, state, hterms, hstate, -⟩ := decoded key hkey
  exact ⟨terms, state, hterms, hstate⟩

/-- An accrued store holds the projection of every asset. -/
theorem states_of_accrue (h : store.accrue target = .ok accrued) (hkey : key ∈ store.ids.keys)
    (hterms : store.terms.get? key = some terms) (hstate : store.states.get? key = some state) :
    accrued.states.get? key = some (terms.project state target).state := by
  obtain ⟨rows, rfl, hrows, -, haccrued⟩ := accrue_inv h
  obtain ⟨row, hrow, rfl⟩ := List.mem_map.mp hkey
  obtain ⟨accrued, hmem, terms', state', hdecoded, rfl⟩ := Forall₂.exists_right haccrued hrow
  rw [decoded?, hterms, hstate] at hdecoded
  cases hdecoded
  rw [Table.get?_eq_some, hrows]
  exact hmem

end AssetStore

theorem StoreFamily.step_updateCurrentRates {f : StoreFamily} {place : Nat} {store accrued : AssetStore}
    {now forward : Int} (hstore : f.stores[place]? = some store) (hnow : f.now = .ok now)
    (haccrue : store.accrue (now + forward) = .ok accrued) :
    f.step place (.updateCurrentRates forward) =
      ({ f with stores := f.stores ++ [accrued] }, some (.ok (.contents accrued.contents))) := by
  have haccrued : (f.now >>= fun now => store.accrue (now + forward)) = .ok accrued := (bind_of_eq_ok hnow _).trans haccrue
  simp only [step, hstore, stepAt, haccrued]

namespace AssetStore
variable {store accrued accrued' : AssetStore} {position : Position} {prices : PriceSource} {earlier later : Int}

theorem exists_health_accrued (decoded : store.Decoded) (numbered : store.source.Numbered)
    (priced : ∀ key ∈ store.ids.keys, ∃ price, prices key = some price) (h : store.accrue later = .ok accrued) :
    ∃ health, (accrued.assess position prices).health = .ok health := by
  obtain ⟨hids, hterms, -⟩ := accrue_ok h
  have hkeys : accrued.source.keys = store.source.keys := congrArg Table.keys hids
  have numbered' : accrued.source.Numbered := fun key hkey => numbered key (hkeys ▸ hkey)
  have hscale : (accrued.assess position prices).params.liquidationThresholdScale ≠ 0 := nofun
  refine (Assessment.exists_health_iff (a := accrued.assess position prices) hscale numbered').mpr fun key hkey => ?_
  have hlisted : key ∈ store.source.keys := hkeys ▸ hkey
  obtain ⟨terms, state, hknown, hstate, -⟩ := decoded key hlisted
  exact ⟨fun _ => ⟨⟨terms, (congrArg (Table.get? · key) hterms).trans hknown⟩, _, states_of_accrue h hlisted hknown hstate⟩,
    fun _ => priced key hlisted⟩

theorem owedWorth_accrued_le {key : Text} (decoded : store.Decoded) (hkey : key ∈ store.ids.keys)
    (hprices : ∀ price, prices key = some price → 0 ≤ price) (hle : earlier ≤ later)
    (h : store.accrue earlier = .ok accrued) (h' : store.accrue later = .ok accrued') :
    (accrued.assess position prices).owedWorth key ≤ (accrued'.assess position prices).owedWorth key := by
  obtain ⟨terms, state, hknown, hstate, hterms, hnonneg⟩ := decoded key hkey
  have hstate₁ : (accrued.assess position prices).source.state key = some (terms.project state earlier).state :=
    states_of_accrue h hkey hknown hstate
  have hstate₂ : (accrued'.assess position prices).source.state key = some (terms.project state later).state :=
    states_of_accrue h' hkey hknown hstate
  have hworth : (accrued.assess position prices).worthOf = (accrued'.assess position prices).worthOf := by
    have hsame : accrued.terms = accrued'.terms := (accrue_ok h).2.1.trans (accrue_ok h').2.1.symm
    funext key amount
    simp only [Assessment.worthOf, assess, source, hsame]
  rw [Assessment.owedWorth, Assessment.owedWorth, Assessment.balanceAt_of_state hstate₁,
    Assessment.balanceAt_of_state hstate₂, hworth]
  exact Assessment.worthOf_mono hprices (AssetTerms.owed_le_owed hterms hnonneg hle _)

theorem totalDebt_accrued_le {health health' : HealthSnapshot} (decoded : store.Decoded)
    (hprices : ∀ key ∈ store.ids.keys, ∀ price, prices key = some price → 0 ≤ price) (hle : earlier ≤ later)
    (h : store.accrue earlier = .ok accrued) (h' : store.accrue later = .ok accrued')
    (hhealth : (accrued.assess position prices).health = .ok health)
    (hhealth' : (accrued'.assess position prices).health = .ok health') : health.totalDebt ≤ health'.totalDebt := by
  obtain ⟨-, hdebt, -⟩ := Assessment.totals_of_health (a := accrued.assess position prices) nofun hhealth
  obtain ⟨-, hdebt', -⟩ := Assessment.totals_of_health (a := accrued'.assess position prices) nofun hhealth'
  have hkeys : (accrued.assess position prices).source.keys = store.ids.keys := congrArg Table.keys (accrue_ok h).1
  have hkeys' : (accrued'.assess position prices).source.keys = store.ids.keys := congrArg Table.keys (accrue_ok h').1
  rw [hdebt, hdebt', hkeys, hkeys']
  exact List.sum_le_sum fun key hkey => owedWorth_accrued_le decoded hkey (hprices key hkey) hle h h'

end AssetStore

/-- To update the rates of a store for a time ahead adds a store against which a position has a debt. -/
def StoreFamily.OwesAhead (f : StoreFamily) (place : Nat) (position : Position) (prices : PriceSource)
    (forward debt : Int) : Prop :=
  ∃ accrued health, f.step place (.updateCurrentRates forward) =
      ({ f with stores := f.stores ++ [accrued] }, some (.ok (.contents accrued.contents))) ∧
    (accrued.assess position prices).health = .ok health ∧ health.totalDebt = debt

theorem StoreFamily.OwesAhead.exists_health {f : StoreFamily} {place : Nat} {store accrued : AssetStore} {now : Int}
    {position : Position} {prices : PriceSource} {forward debt : Int} (hstore : f.stores[place]? = some store)
    (hnow : f.now = .ok now) (haccrue : store.accrue (now + forward) = .ok accrued)
    (h : f.OwesAhead place position prices forward debt) :
    ∃ health, (accrued.assess position prices).health = .ok health ∧ health.totalDebt = debt := by
  obtain ⟨added, health, hstep, hhealth, hdebt⟩ := h
  rw [StoreFamily.step_updateCurrentRates hstore hnow haccrue, Prod.mk.injEq, StoreFamily.mk.injEq] at hstep
  obtain rfl : accrued = added := by simpa using hstep.1.2
  exact ⟨health, hhealth, hdebt⟩

/-- Accrual moves nothing but the indices and the time, and moves them one way as time goes on. Therefore the debt of a
    position against a store whose rates are updated for a time ahead never falls with that time. -/
theorem projection_monotone :
    (∀ (terms : AssetTerms) (state : AssetState) (earlier later : Int), terms.Nonneg → state.Nonneg →
      earlier ≤ later → terms.Advances state earlier later) ∧
    ∀ (f : StoreFamily) (place : Nat) (store : AssetStore) (now : Int) (position : Position) (prices : PriceSource)
      (forward forward' : Int), f.stores[place]? = some store → f.now = .ok now → store.Decoded →
      (∀ key ∈ store.ids.keys, ∃ price, prices key = some price ∧ 0 ≤ price) → forward ≤ forward' →
      (store.source.Numbered → ∃ debt debt', f.OwesAhead place position prices forward debt ∧
        f.OwesAhead place position prices forward' debt') ∧
      ∀ debt debt', f.OwesAhead place position prices forward debt → f.OwesAhead place position prices forward' debt' →
        debt ≤ debt' := by
  refine ⟨fun terms state earlier later hterms hstate hle => AssetTerms.advances hterms hstate hle, ?_⟩
  intro f place store now position prices forward forward' hstore hnow decoded hprices hle
  have nonneg : ∀ key ∈ store.ids.keys, ∀ price, prices key = some price → 0 ≤ price := by
    intro key hkey price hprice
    obtain ⟨price', hprice', hnonneg⟩ := hprices key hkey
    exact Option.some.inj (hprice'.symm.trans hprice) ▸ hnonneg
  obtain ⟨accrued, haccrued⟩ := AssetStore.exists_accrue decoded (now + forward)
  obtain ⟨accrued', haccrued'⟩ := AssetStore.exists_accrue decoded (now + forward')
  constructor
  · intro numbered
    have priced : ∀ key ∈ store.ids.keys, ∃ price, prices key = some price :=
      fun key hkey => (hprices key hkey).imp fun _ h => h.1
    obtain ⟨health, hhealth⟩ : ∃ health, (accrued.assess position prices).health = .ok health :=
      AssetStore.exists_health_accrued decoded numbered priced haccrued
    obtain ⟨health', hhealth'⟩ : ∃ health, (accrued'.assess position prices).health = .ok health :=
      AssetStore.exists_health_accrued decoded numbered priced haccrued'
    exact ⟨_, _, ⟨accrued, health, StoreFamily.step_updateCurrentRates hstore hnow haccrued, hhealth, rfl⟩,
      ⟨accrued', health', StoreFamily.step_updateCurrentRates hstore hnow haccrued', hhealth', rfl⟩⟩
  · intro debt debt' howes howes'
    obtain ⟨health, hhealth, rfl⟩ := howes.exists_health hstore hnow haccrued
    obtain ⟨health', hhealth', rfl⟩ := howes'.exists_health hstore hnow haccrued'
    exact AssetStore.totalDebt_accrued_le decoded nonneg (by omega) haccrued haccrued' hhealth hhealth'

/-- Terms with a reserve of more than the whole interest, so that a supply loses with time. -/
def confiscatingTerms : AssetTerms := { kinkedTerms with reserveFactor := 65535 }

/-- A store whose only asset confiscates: in the end a supply of it becomes a debt. -/
def confiscatingStore : AssetStore where
  ids := .ofList [("1", 1)]
  terms := .ofList [("1", confiscatingTerms)]
  states := .ofList [("1", overlentState)]

theorem projection_monotone_confiscating :
    let f := StoreFamily.ofStore (.whole 1800000000) confiscatingStore
    let position : Position := { principals := .ofList [("1", 5000000007)] }
    confiscatingTerms.Nonneg ∧ overlentState.Nonneg ∧
      confiscatingTerms.Advances overlentState 1800000000 9000000000000 ∧
      (confiscatingTerms.project overlentState 9000000000000).state.supplyIndex < 0 ∧
      ∃ debt debt', f.OwesAhead 0 position leveragedPrices.get? 0 debt ∧
        f.OwesAhead 0 position leveragedPrices.get? 9000000000000 debt' ∧ debt ≤ debt' := by
  intro f position
  have hterms : confiscatingTerms.Nonneg := by decide
  have hstate : overlentState.Nonneg := by decide
  have hkeys : confiscatingStore.ids.keys = [Text.ofString "1"] := by decide +kernel
  have decoded : confiscatingStore.Decoded := by
    intro key hkey
    rw [hkeys, List.mem_singleton] at hkey
    exact ⟨confiscatingTerms, overlentState, by rw [hkey]; decide +kernel, by rw [hkey]; decide +kernel, hterms, hstate⟩
  have numbered : confiscatingStore.source.Numbered := by
    intro key hkey
    have hkey : key ∈ confiscatingStore.ids.keys := hkey
    rw [hkeys, List.mem_singleton] at hkey
    exact ⟨1, by rw [hkey]; decide +kernel⟩
  have hprices : ∀ key ∈ confiscatingStore.ids.keys, ∃ price, leveragedPrices.get? key = some price ∧ 0 ≤ price := by
    intro key hkey
    rw [hkeys, List.mem_singleton] at hkey
    exact ⟨3210000001, by rw [hkey]; decide +kernel, by decide⟩
  obtain ⟨hexists, hmono⟩ := projection_monotone.2 f 0 confiscatingStore 1800000000 position leveragedPrices.get? 0
    9000000000000 rfl rfl decoded hprices (by decide)
  obtain ⟨debt, debt', howes, howes'⟩ := hexists numbered
  exact ⟨hterms, hstate, projection_monotone.1 _ _ _ _ hterms hstate (by decide), by decide +kernel, debt, debt', howes,
    howes', hmono debt debt' howes howes'⟩

end Solvency
