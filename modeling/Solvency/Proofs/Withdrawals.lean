import Solvency.Health.Withdrawal
import Solvency.Proofs.Assessments

/-! Withdrawals: the largest amount that may leave a position leaves it within its limit. Every conversion on the way to
    the amount cuts toward zero, so that on the way back, over the changed position, each step loses no more than the
    step before it, and in the end no more than the room for debt that there was. -/

namespace Solvency

namespace Position
variable {principal amount : Int} {state : AssetState}

/-- What is taken for a part of a balance is a part of the principal, and the balance goes down by this part at most. -/
theorem balanceOf_withdrawn (hprincipal : 0 ≤ principal) (hindex : 0 < state.supplyIndex) (hamount : 0 ≤ amount)
    (h : amount ≤ balanceOf principal state) :
    scaled amount indexScale state.supplyIndex ≤ principal ∧
      0 ≤ balanceOf (principal + -scaled amount indexScale state.supplyIndex) state ∧
      balanceOf principal state ≤
        balanceOf (principal + -scaled amount indexScale state.supplyIndex) state + amount := by
  have hindexNonneg := Int.le_of_lt hindex
  have hscale := Int.le_of_lt indexScale_pos
  rw [balanceOf_of_nonneg hprincipal] at h ⊢
  have htaken := scaled_le_of_le_scaled hscale hindex hprincipal h
  have hleft : 0 ≤ principal + -scaled amount indexScale state.supplyIndex := by omega
  rw [balanceOf_of_nonneg hleft]
  refine ⟨htaken, scaled_nonneg hleft hindexNonneg hscale, ?_⟩
  exact scaled_le_add_of_le indexScale_pos hprincipal hindexNonneg hamount (by omega)

/-- What is lent for an amount makes a debt grow by this amount at most. -/
theorem balanceOf_lent (hprincipal : principal ≤ 0) (hindex : 0 < state.borrowIndex) (hamount : 0 ≤ amount) :
    balanceOf principal state ≤ 0 ∧
      balanceOf (principal + scaled (-amount) indexScale state.borrowIndex) state ≤ 0 ∧
      balanceOf principal state ≤
        balanceOf (principal + scaled (-amount) indexScale state.borrowIndex) state + amount := by
  have hindexNonneg := Int.le_of_lt hindex
  have hscale := Int.le_of_lt indexScale_pos
  have hlent := scaled_nonneg hamount hscale hindexNonneg
  rw [scaled_neg_left]
  have howed : principal + -scaled amount indexScale state.borrowIndex ≤ 0 := by omega
  rw [balanceOf_of_nonpos hprincipal, balanceOf_of_nonpos howed]
  refine ⟨scaled_nonpos hprincipal hindexNonneg indexScale_pos, scaled_nonpos howed hindexNonneg indexScale_pos, ?_⟩
  -- The bound is one on debts, which are balances below zero.
  have hdebt : -(principal + -scaled amount indexScale state.borrowIndex) ≤
      -principal + scaled amount indexScale state.borrowIndex := by omega
  have hgrown := scaled_le_add_of_le indexScale_pos (by omega) hindexNonneg hamount hdebt
  rw [scaled_neg_left, scaled_neg_left] at hgrown
  omega

end Position

namespace Assessment

section Amounts
variable {a : Assessment} {key : Text} {terms : AssetTerms} {state : AssetState} {amount : Int}

/-- How the largest amount comes about: out of the room for debt where nothing is supplied, as the whole balance where
    nothing is owed or the asset is no collateral, and otherwise out of the balance that the room can do without. -/
theorem maxWithdrawal_cases (hterms : a.source.terms key = some terms) (hstate : a.source.state key = some state)
    (h : a.maxWithdrawal key = .ok amount) :
    (a.position.balanceWithoutDust key state terms ≤ 0 ∧ ∃ room price, a.borrowable = .ok room ∧
      a.prices key = some price ∧ proportion room terms.unitScale price = .ok amount) ∨
    (0 < a.position.balanceWithoutDust key state terms ∧
      (a.position.hasNoDebt = true ∨ terms.collateralFactor = 0) ∧
      amount = a.position.balanceWithoutDust key state terms) ∨
    (0 < a.position.balanceWithoutDust key state terms ∧ terms.collateralFactor ≠ 0 ∧
      ∃ room worth releasable margin, a.borrowable = .ok room ∧
        proportion room a.params.coefficientScale terms.collateralFactor = .ok worth ∧
        a.converter.balanceOfValue key worth = .ok releasable ∧ a.dustMargin terms state = .ok margin ∧
        amount = min (a.position.balanceWithoutDust key state terms) (max 0 (releasable - margin))) := by
  obtain ⟨known, hknown, h⟩ := bind_eq_ok.mp h
  obtain rfl := Except.ok.inj (hknown.symm.trans (decoded_eq_ok.mpr ⟨hterms, hstate⟩))
  simp only at h
  split at h
  · rename_i hempty
    obtain ⟨room, hroom, h⟩ := bind_eq_ok.mp h
    obtain ⟨price, hprice, h⟩ := bind_eq_ok.mp h
    exact Or.inl ⟨hempty, room, price, hroom, Converter.price_eq_ok.mp hprice, h⟩
  · rename_i hheld
    split at h
    · rename_i hfree
      exact Or.inr (Or.inl ⟨by omega, hfree, (pure_eq_ok.mp h).symm⟩)
    · rename_i hbound
      obtain ⟨room, hroom, h⟩ := bind_eq_ok.mp h
      obtain ⟨worth, hworth, h⟩ := bind_eq_ok.mp h
      obtain ⟨releasable, hreleasable, h⟩ := bind_eq_ok.mp h
      obtain ⟨margin, hmargin, h⟩ := bind_eq_ok.mp h
      exact Or.inr (Or.inr ⟨by omega, fun hfactor => hbound (Or.inr hfactor), room, worth, releasable, margin, hroom,
        hworth, hreleasable, hmargin, (pure_eq_ok.mp h).symm⟩)

theorem dustMargin_nonneg {margin : Int} (hterms : terms.Nonneg) (hstate : state.Nonneg)
    (hscale : 0 ≤ a.params.factorScale) (h : a.dustMargin terms state = .ok margin) : 0 ≤ margin := by
  have hsupplyIndex := hstate.amounts.1
  have hdust : 0 ≤ terms.dust := hterms _ (by simp [AssetTerms.fields])
  obtain ⟨dust, hproportion, h⟩ := bind_eq_ok.mp h
  obtain ⟨-, rfl⟩ := proportion_eq_ok.mp hproportion
  obtain rfl := pure_eq_ok.mp h
  exact Int.tdiv_nonneg (scaled_nonneg hsupplyIndex hdust hscale) (by decide)

/-- A balance that is left after dust is the one of a supply. -/
theorem supply_of_balanceWithoutDust {position : Position} (hstate : state.Nonneg)
    (h : 0 < position.balanceWithoutDust key state terms) :
    0 < position.principal key ∧ 0 < state.supplyIndex ∧
      position.balanceWithoutDust key state terms = scaled (position.principal key) state.supplyIndex indexScale := by
  obtain ⟨hsupplyIndex, hborrowIndex, -⟩ := hstate.amounts
  unfold Position.balanceWithoutDust at h ⊢
  simp only at h ⊢
  split at h
  · omega
  · rename_i hdust
    rw [if_neg hdust]
    have hprincipal : 0 < position.principal key := by
      by_contra hnot
      have hdebt : scaled (position.principal key) state.borrowIndex indexScale ≤ 0 :=
        scaled_nonpos (Int.not_lt.mp hnot) hborrowIndex indexScale_pos
      rw [Position.balanceOf_of_nonpos (Int.not_lt.mp hnot)] at h
      omega
    rw [Position.balanceOf_of_nonneg (Int.le_of_lt hprincipal)] at h ⊢
    refine ⟨hprincipal, ?_, rfl⟩
    by_contra hnot
    have hzero : state.supplyIndex = 0 := by omega
    rw [hzero, scaled_zero_middle] at h
    omega

theorem maxWithdrawal_bounds (hterms : a.source.terms key = some terms) (hstate : a.source.state key = some state)
    (hheld : 0 < a.position.balanceWithoutDust key state terms) (h : a.maxWithdrawal key = .ok amount) :
    0 ≤ amount ∧ amount ≤ a.position.balanceWithoutDust key state terms := by
  rcases maxWithdrawal_cases hterms hstate h with
    ⟨hempty, -⟩ | ⟨-, -, rfl⟩ | ⟨-, -, _, _, releasable, margin, -, -, -, -, rfl⟩
  · omega
  · exact ⟨Int.le_of_lt hheld, Int.le_refl _⟩
  · omega

end Amounts

/-! ### Capacity -/

section Capacity
variable {terms : AssetTerms} {price scale balance balance' amount : Int}

theorem capacity_of_nonneg (h : 0 ≤ balance) :
    capacity terms price scale balance =
      scaled (scaled balance price terms.unitScale) terms.collateralFactor scale := by
  rw [capacity, Int.max_eq_left h, Int.max_eq_right (by omega)]
  simp

theorem capacity_of_nonpos (h : balance ≤ 0) :
    capacity terms price scale balance = -scaled (-balance) price terms.unitScale := by
  rw [capacity, Int.max_eq_right h, Int.max_eq_left (by omega)]
  simp

/-- A supply that gives up what an amount of room is converted to gives up this amount of room at most. -/
theorem capacity_le_of_released (hprice : 0 < price) (hscale : 0 < scale) (hfactor : 0 < terms.collateralFactor)
    (hbalance : 0 ≤ balance) (hbalance' : 0 ≤ balance') (hamount : 0 ≤ amount)
    (h : balance ≤ balance' + scaled (scaled amount scale terms.collateralFactor) terms.unitScale price) :
    capacity terms price scale balance ≤ capacity terms price scale balance' + amount := by
  have hunit := terms.unitScale_pos
  have hworth : 0 ≤ scaled amount scale terms.collateralFactor :=
    scaled_nonneg hamount (Int.le_of_lt hscale) (Int.le_of_lt hfactor)
  have hvalue : scaled balance price terms.unitScale ≤
      scaled balance' price terms.unitScale + scaled amount scale terms.collateralFactor :=
    scaled_le_add_of_le hunit hbalance (Int.le_of_lt hprice) hworth h
  rw [capacity_of_nonneg hbalance, capacity_of_nonneg hbalance']
  exact scaled_le_add_of_le hscale (scaled_nonneg hbalance (Int.le_of_lt hprice) (Int.le_of_lt hunit))
    (Int.le_of_lt hfactor) hamount hvalue

/-- A debt that grows by what an amount of room is converted to takes up this amount of room at most. -/
theorem capacity_le_of_lent (scale : Int) (hprice : 0 < price) (hbalance : balance ≤ 0) (hbalance' : balance' ≤ 0)
    (hamount : 0 ≤ amount) (h : balance ≤ balance' + scaled amount terms.unitScale price) :
    capacity terms price scale balance ≤ capacity terms price scale balance' + amount := by
  have hvalue : scaled (-balance') price terms.unitScale ≤ scaled (-balance) price terms.unitScale + amount :=
    scaled_le_add_of_le terms.unitScale_pos (by omega) (Int.le_of_lt hprice) hamount (by omega)
  rw [capacity_of_nonpos hbalance, capacity_of_nonpos hbalance']
  omega

end Capacity

/-! ### The changed position -/

section Changes
variable {a : Assessment} {key : Text} {terms : AssetTerms} {state : AssetState} {price room amount : Int}

theorem exists_price_of_supply (hlisted : key ∈ a.source.keys) (hstate : a.source.state key = some state)
    (hroom : a.borrowable = .ok room) (hheld : 0 < a.position.balance key state) :
    ∃ price, a.prices key = some price := by
  obtain ⟨lines, hlines, -⟩ := borrowable_eq_ok.mp hroom
  obtain ⟨_, line, -, hline⟩ := exists_line hlines hlisted
  obtain ⟨worth, _, hworth, -⟩ := supply_of_line hline hstate hheld
  obtain ⟨price, -, hprice, -⟩ := Converter.known_of_valueOfBalance hworth (Int.ne_of_gt hheld)
  exact ⟨price, hprice⟩

/-- Where debts bind the amount, it is no more than what the room for debt, if any, is converted to. -/
theorem amount_le_released {worth releasable margin : Int} (hprice : a.prices key = some price)
    (hterms : a.source.terms key = some terms) (hpositive : 0 < price) (hfactor : 0 < terms.collateralFactor)
    (hscale : 0 < a.params.coefficientScale)
    (hworth : proportion room a.params.coefficientScale terms.collateralFactor = .ok worth)
    (hreleasable : a.converter.balanceOfValue key worth = .ok releasable) (hmargin : 0 ≤ margin) :
    max 0 (releasable - margin) ≤
      scaled (scaled (max 0 room) a.params.coefficientScale terms.collateralFactor) terms.unitScale price := by
  obtain ⟨-, rfl⟩ := proportion_eq_ok.mp hworth
  obtain rfl := Except.ok.inj (hreleasable.symm.trans
    (Converter.balanceOfValue_of_known hprice hterms (Int.ne_of_gt hpositive) _))
  have hunit := Int.le_of_lt terms.unitScale_pos
  have hnonneg :
      0 ≤ scaled (scaled (max 0 room) a.params.coefficientScale terms.collateralFactor) terms.unitScale price :=
    scaled_nonneg (scaled_nonneg (by omega) (Int.le_of_lt hscale) (Int.le_of_lt hfactor)) hunit (Int.le_of_lt hpositive)
  have hworthLe : scaled room a.params.coefficientScale terms.collateralFactor ≤
      scaled (max 0 room) a.params.coefficientScale terms.collateralFactor :=
    scaled_le_scaled hfactor (Int.mul_le_mul_of_nonneg_right (by omega) (Int.le_of_lt hscale))
  have hreleasableLe := scaled_le_scaled hpositive (Int.mul_le_mul_of_nonneg_right hworthLe hunit)
  omega

theorem room_of_withdrawn (sound : a.Sound) (hparams : a.params.factorScale = indexScale)
    (hscale : 0 < a.params.coefficientScale) (hlisted : key ∈ a.source.keys) (hnodup : a.source.keys.Nodup)
    (hterms : a.source.terms key = some terms) (hstate : a.source.state key = some state)
    (hheld : 0 < a.position.balanceWithoutDust key state terms) (hroom : a.borrowable = .ok room)
    (h : a.maxWithdrawal key = .ok amount) :
    scaled amount indexScale state.supplyIndex ≤ a.position.principal key ∧
      ∃ left, (a.change key (-scaled amount indexScale state.supplyIndex)).borrowable = .ok left ∧
        min 0 room ≤ left := by
  obtain ⟨hprincipal, hindex, hbalance⟩ := supply_of_balanceWithoutDust (sound.state _ _ hstate) hheld
  obtain ⟨hamount, hle⟩ := maxWithdrawal_bounds hterms hstate hheld h
  rw [hbalance, ← Position.balanceOf_of_nonneg (Int.le_of_lt hprincipal)] at hle
  obtain ⟨htaken, hrest, hless⟩ := Position.balanceOf_withdrawn (Int.le_of_lt hprincipal) hindex hamount hle
  have hbefore : 0 < a.position.balance key state := by
    rwa [Position.balance, Position.balanceOf_of_nonneg (Int.le_of_lt hprincipal), ← hbalance]
  obtain ⟨price, hprice⟩ := exists_price_of_supply hlisted hstate hroom hbefore
  have hchange := borrowable_change hlisted hnodup hterms hstate hprice (Int.ne_of_gt hscale) hroom
    (-scaled amount indexScale state.supplyIndex)
  refine ⟨htaken, _, hchange, ?_⟩
  -- Without debts there are none afterwards either; without a collateral factor the supply gave no room; otherwise the
  -- balance gives up no more room than there was.
  rcases maxWithdrawal_cases hterms hstate h with ⟨hempty, -⟩ | ⟨-, hdebt | hzero, -⟩ |
      ⟨-, hnonzero, _, worth, releasable, margin, hroom', hworth, hreleasable, hmargin, hmin⟩
  · omega
  · have hafter := borrowable_nonneg_of_hasNoDebt (sound_change sound key _) (Int.le_of_lt hscale)
      (Position.hasNoDebt_change hdebt (by omega)) hchange
    omega
  · rw [capacity_of_nonneg hrest, capacity_of_nonneg (Int.le_of_lt hbefore), hzero, scaled_zero_middle,
      scaled_zero_middle]
    omega
  · obtain rfl := Except.ok.inj (hroom.symm.trans hroom')
    have hpositive := sound.price _ _ hprice
    have hfactor : 0 < terms.collateralFactor := by
      have hnonneg : 0 ≤ terms.collateralFactor := sound.terms _ _ hterms _ (by simp [AssetTerms.fields])
      omega
    have hmarginNonneg := dustMargin_nonneg (sound.terms _ _ hterms) (sound.state _ _ hstate)
      (hparams ▸ Int.le_of_lt indexScale_pos) hmargin
    have hreleased := amount_le_released hprice hterms hpositive hfactor hscale hworth hreleasable hmarginNonneg
    have hcapacity := capacity_le_of_released hpositive hscale hfactor (Int.le_of_lt hbefore) hrest
      (Int.le_max_left 0 room) (Int.le_trans hless (by omega))
    omega

theorem room_of_lent (sound : a.Sound) (hscale : 0 < a.params.coefficientScale) (hlisted : key ∈ a.source.keys)
    (hnodup : a.source.keys.Nodup) (hterms : a.source.terms key = some terms) (hstate : a.source.state key = some state)
    (hindex : 0 < state.borrowIndex) (hprincipal : a.position.principal key ≤ 0) (hroom : a.borrowable = .ok room)
    (hroomNonneg : 0 ≤ room) (h : a.maxWithdrawal key = .ok amount) :
    0 ≤ amount ∧ ∃ left, (a.change key (scaled (-amount) indexScale state.borrowIndex)).borrowable = .ok left ∧
      0 ≤ left := by
  have hempty : a.position.balanceWithoutDust key state terms ≤ 0 := by
    by_contra hheld
    obtain ⟨hsupplied, -⟩ := supply_of_balanceWithoutDust (sound.state _ _ hstate) (Int.not_le.mp hheld)
    omega
  obtain ⟨price, hprice, rfl⟩ : ∃ price, a.prices key = some price ∧ amount = scaled room terms.unitScale price := by
    rcases maxWithdrawal_cases hterms hstate h with ⟨-, _, price, hroom', hprice, hamount⟩ | ⟨hheld, -⟩ | ⟨hheld, -⟩
    · obtain rfl := Except.ok.inj (hroom.symm.trans hroom')
      exact ⟨price, hprice, (proportion_eq_ok.mp hamount).2⟩
    · omega
    · omega
  have hpositive := sound.price _ _ hprice
  have hnonneg := scaled_nonneg hroomNonneg (Int.le_of_lt terms.unitScale_pos) (Int.le_of_lt hpositive)
  obtain ⟨howed, howedAfter, hmore⟩ := Position.balanceOf_lent hprincipal hindex hnonneg
  refine ⟨hnonneg, _, borrowable_change hlisted hnodup hterms hstate hprice (Int.ne_of_gt hscale) hroom _, ?_⟩
  have hcapacity := capacity_le_of_lent a.params.coefficientScale hpositive howed howedAfter hroomNonneg hmore
  rw [Position.balance]
  omega

end Changes

end Assessment

/-- A largest withdrawal is safe. Out of a supply it is no more than what is held, it takes no more principal than there
    is, and it leaves the position within its limit, or where it already was beyond it. On credit, where there was room
    for debt, it leaves the position within its limit. -/
theorem maxWithdrawal_safe (store : AssetStore) (position : Position) (prices : PriceSource) (asset : Text)
    (state : AssetState) (room amount : Int) (sound : (store.assess position prices).Sound)
    (hlisted : asset ∈ store.ids.keys) (hstate : store.states.get? asset = some state) (hindex : 0 < state.borrowIndex)
    (hroom : (store.assess position prices).borrowable = .ok room)
    (h : (store.assess position prices).maxWithdrawal asset = .ok amount) :
    (∀ terms, store.terms.get? asset = some terms → 0 < position.balanceWithoutDust asset state terms →
      0 ≤ amount ∧ amount ≤ position.balanceWithoutDust asset state terms ∧
        ∃ taken left, (store.assess position prices).converter.principalOfBalance asset amount = .ok taken ∧
          taken ≤ position.principal asset ∧
          (store.assess (position.change asset (-taken)) prices).borrowable = .ok left ∧ min 0 room ≤ left) ∧
    (position.principal asset ≤ 0 → 0 ≤ room →
      0 ≤ amount ∧ ∃ lent left, (store.assess position prices).converter.principalOfBalance asset (-amount) = .ok lent ∧
        (store.assess (position.change asset lent) prices).borrowable = .ok left ∧ 0 ≤ left) := by
  have hscale : (0 : Int) < 10000 := by decide
  constructor
  · intro terms hterms hheld
    obtain ⟨hamount, hle⟩ := Assessment.maxWithdrawal_bounds hterms hstate hheld h
    obtain ⟨-, hsupplyIndex, -⟩ := Assessment.supply_of_balanceWithoutDust (sound.state _ _ hstate) hheld
    obtain ⟨htaken, left, hleft, hroomLe⟩ := Assessment.room_of_withdrawn sound rfl hscale hlisted
      store.ids.distinct hterms hstate hheld hroom h
    exact ⟨hamount, hle, _, left,
      Converter.principalOfBalance_of_nonneg hstate hamount (Int.ne_of_gt hsupplyIndex), htaken, hleft, hroomLe⟩
  · intro hprincipal hroomNonneg
    obtain ⟨⟨terms, _⟩, hdecoded, -⟩ := bind_eq_ok.mp h
    obtain ⟨hterms, -⟩ := Assessment.decoded_eq_ok.mp hdecoded
    obtain ⟨hamount, left, hleft, hleftNonneg⟩ := Assessment.room_of_lent sound hscale hlisted
      store.ids.distinct hterms hstate hindex hprincipal hroom hroomNonneg h
    exact ⟨hamount, _, left, Converter.principalOfBalance_of_nonpos hstate (by omega) (Int.ne_of_gt hindex), hleft,
      hleftNonneg⟩

/-- A supply of the asset 1, with a debt in the asset 2, of another number of decimals. -/
def leveragedPosition : Position := { principals := .ofList [("1", 5000000007), ("2", -1500003)] }

/-- The debt keeps a part of the supply from leaving, and it may still grow. -/
theorem maxWithdrawal_safe_leveraged :
    let assessed := leveragedStore.assess leveragedPosition leveragedPrices.get?
    assessed.borrowable = .ok 11575197010 ∧
      (assessed.maxWithdrawal "1" = .ok 4507474954 ∧
        ∃ taken left, assessed.converter.principalOfBalance "1" 4507474954 = .ok taken ∧ taken ≤ 5000000007 ∧
          (leveragedStore.assess (leveragedPosition.change "1" (-taken)) leveragedPrices.get?).borrowable = .ok left ∧
          min 0 11575197010 ≤ left) ∧
      (assessed.maxWithdrawal "2" = .ok 11575196 ∧
        ∃ lent left, assessed.converter.principalOfBalance "2" (-11575196) = .ok lent ∧
          (leveragedStore.assess (leveragedPosition.change "2" lent) leveragedPrices.get?).borrowable = .ok left ∧
          0 ≤ left) := by
  have sound : (leveragedStore.assess leveragedPosition leveragedPrices.get?).Sound :=
    AssetStore.sound_assess (by decide +kernel) (by decide +kernel) (by decide +kernel)
  have hroom : (leveragedStore.assess leveragedPosition leveragedPrices.get?).borrowable = .ok 11575197010 := by
    decide +kernel
  have hsupply : (leveragedStore.assess leveragedPosition leveragedPrices.get?).maxWithdrawal "1" = .ok 4507474954 := by
    decide +kernel
  have hcredit : (leveragedStore.assess leveragedPosition leveragedPrices.get?).maxWithdrawal "2" = .ok 11575196 := by
    decide +kernel
  obtain ⟨hfirst, -⟩ := maxWithdrawal_safe leveragedStore leveragedPosition leveragedPrices.get? "1" overlentState
    11575197010 4507474954 sound (by decide +kernel) (by decide +kernel) (by decide) hroom hsupply
  obtain ⟨-, hsecond⟩ := maxWithdrawal_safe leveragedStore leveragedPosition leveragedPrices.get? "2" overlentState
    11575197010 11575196 sound (by decide +kernel) (by decide +kernel) (by decide) hroom hcredit
  obtain ⟨-, -, taken, left, htaken, hle, hleft, hnonneg⟩ := hfirst kinkedTerms (by decide +kernel) (by decide +kernel)
  exact ⟨hroom, ⟨hsupply, taken, left, htaken, hle, hleft, hnonneg⟩, hcredit,
    (hsecond (by decide +kernel) (by decide)).2⟩

end Solvency
