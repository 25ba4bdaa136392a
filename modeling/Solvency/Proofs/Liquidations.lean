import Mathlib.Tactic.Positivity
import Mathlib.Tactic.Ring
import Solvency.Health.Liquidation
import Solvency.Proofs.Appraisals

/-! Liquidations: what a liquidator may seize and has to pay. Both amounts go back to the value that is repaid. It is
    converted with every step cut toward zero, so that neither amount is worth more than it should be, and the one that
    is charged less by its rounding only. -/

namespace Solvency

/-- The parameters of a liquidation are neither zero nor negative. -/
structure MasterParams.Positive (p : MasterParams) : Prop where
  bonusScale : 0 < p.liquidationBonusScale
  reserveScale : 0 < p.liquidationReserveFactorScale
  thresholdScale : 0 < p.liquidationThresholdScale
  worthThreshold : 0 < p.collateralWorthThreshold

theorem MasterParams.positive_default : ({} : MasterParams).Positive := ⟨by decide, by decide, by decide, by decide⟩

theorem HealthLine.exists_pos_of_total {amount : HealthLine → Int} {lines : List HealthLine}
    (h : 0 < total amount lines) : ∃ line ∈ lines, 0 < amount line := by
  induction lines with
  | nil => exact absurd h (Int.lt_irrefl 0)
  | cons line lines ih =>
    by_cases hline : 0 < amount line
    · exact ⟨line, List.mem_cons_self, hline⟩
    · rw [total_cons] at h
      obtain ⟨l, hl, hpos⟩ := ih (by omega)
      exact ⟨l, List.mem_cons_of_mem line hl, hpos⟩

namespace Assessment

/-! ### Supplies and debts -/

section Holdings
variable {a : Assessment} {weight : AssetTerms → Int} {scale : Int} {lines : List HealthLine} {health : HealthSnapshot}
  {key : Text} {id worth : Int}

/-- An asset is supplied, at a worth of all that is supplied of it. -/
def Supplies (a : Assessment) (key : Text) (worth : Int) : Prop :=
  ∃ state, a.source.state key = some state ∧ 0 < a.position.balance key state ∧
    a.converter.valueOfBalance key (a.position.balance key state) = .ok worth

/-- An asset is owed, at a worth of all that is owed of it. -/
def Owes (a : Assessment) (key : Text) (worth : Int) : Prop :=
  ∃ state, a.source.state key = some state ∧ a.position.balance key state < 0 ∧
    a.converter.valueOfBalance key (-a.position.balance key state) = .ok worth

theorem holding_of_line {asset : Text × Int} {line : HealthLine} (h : a.line weight scale asset = .ok line) :
    (line.collateral? = some (id, worth) → asset.2 = id ∧ a.Supplies asset.1 worth) ∧
      (line.loan? = some (id, worth) → asset.2 = id ∧ a.Owes asset.1 worth) := by
  rcases line_eq_ok.mp h with ⟨-, rfl⟩ | ⟨-, terms, state, ⟨-, hstate⟩, hcases⟩
  · exact ⟨nofun, nofun⟩
  · rcases hcases with ⟨hpos, worth', limit, hworth, -, rfl⟩ | ⟨hneg, worth', hworth, rfl⟩ | ⟨-, rfl⟩
    · refine ⟨fun hcollateral => ?_, nofun⟩
      cases hcollateral
      exact ⟨rfl, state, hstate, hpos, hworth⟩
    · refine ⟨nofun, fun hloan => ?_⟩
      cases hloan
      exact ⟨rfl, state, hstate, hneg, hworth⟩
    · exact ⟨nofun, nofun⟩

theorem supplies_of_mem (h : a.lines weight scale = .ok lines)
    (hmem : (id, worth) ∈ lines.filterMap HealthLine.collateral?) :
    ∃ key ∈ a.source.keys, Text.readInteger key = some id ∧ a.Supplies key worth := by
  obtain ⟨line, hline, hcollateral⟩ := List.mem_filterMap.mp hmem
  obtain ⟨key, hkey, _, hread, hline⟩ := mem_lines h hline
  obtain ⟨rfl, hsupplies⟩ := (holding_of_line hline).1 hcollateral
  exact ⟨key, hkey, hread, hsupplies⟩

theorem owes_of_mem (h : a.lines weight scale = .ok lines) (hmem : (id, worth) ∈ lines.filterMap HealthLine.loan?) :
    ∃ key ∈ a.source.keys, Text.readInteger key = some id ∧ a.Owes key worth := by
  obtain ⟨line, hline, hloan⟩ := List.mem_filterMap.mp hmem
  obtain ⟨key, hkey, _, hread, hline⟩ := mem_lines h hline
  obtain ⟨rfl, howes⟩ := (holding_of_line hline).2 hloan
  exact ⟨key, hkey, hread, howes⟩

theorem mem_of_supplies (h : a.lines weight scale = .ok lines) (hkey : key ∈ a.source.keys)
    (hsupplies : a.Supplies key worth) : ∃ id, (id, worth) ∈ lines.filterMap HealthLine.collateral? := by
  obtain ⟨state, hstate, hpos, hworth⟩ := hsupplies
  obtain ⟨id, line, hmem, hline⟩ := exists_line h hkey
  obtain ⟨worth', limit, hworth', rfl⟩ := supply_of_line hline hstate hpos
  obtain rfl : worth = worth' := Except.ok.inj (hworth.symm.trans hworth')
  exact ⟨id, List.mem_filterMap.mpr ⟨_, hmem, rfl⟩⟩

theorem supplies_of_greatest (h : a.health = .ok health) (hgreatest : health.greatestCollateralAsset = some id) :
    ∃ key ∈ a.source.keys, Text.readInteger key = some id ∧ a.Supplies key health.greatestCollateralValue ∧
      0 < health.greatestCollateralValue := by
  obtain ⟨lines, hlines, rfl⟩ := health_eq_ok.mp h
  obtain ⟨hmem, hpos⟩ := mem_of_greatest hgreatest
  obtain ⟨key, hkey, hread, hsupplies⟩ := supplies_of_mem hlines hmem
  exact ⟨key, hkey, hread, hsupplies, hpos⟩

theorem owes_of_greatest (h : a.health = .ok health) (hgreatest : health.greatestLoanAsset = some id) :
    ∃ key ∈ a.source.keys, Text.readInteger key = some id ∧ a.Owes key health.greatestLoanValue ∧
      0 < health.greatestLoanValue := by
  obtain ⟨lines, hlines, rfl⟩ := health_eq_ok.mp h
  obtain ⟨hmem, hpos⟩ := mem_of_greatest hgreatest
  obtain ⟨key, hkey, hread, howes⟩ := owes_of_mem hlines hmem
  exact ⟨key, hkey, hread, howes, hpos⟩

theorem no_collateral_iff (h : a.health = .ok health) : health.greatestCollateralAsset = none ↔
    ∀ key ∈ a.source.keys, ∀ worth, a.Supplies key worth → worth ≤ 0 := by
  obtain ⟨lines, hlines, rfl⟩ := health_eq_ok.mp h
  constructor
  · intro hnone key hkey worth hsupplies
    obtain ⟨id, hmem⟩ := mem_of_supplies hlines hkey hsupplies
    exact greatest_eq_none.mp hnone (id, worth) hmem
  · intro hworthless
    refine greatest_eq_none.mpr fun row hrow => ?_
    obtain ⟨key, hkey, -, hsupplies⟩ := supplies_of_mem hlines hrow
    exact hworthless key hkey row.2 hsupplies

/-- A position beyond its limit owes something, since no limit is negative. -/
theorem exists_loan (sound : a.Sound) (hscale : 0 ≤ a.params.liquidationThresholdScale) (h : a.health = .ok health)
    (hbeyond : health.totalLimit < health.totalDebt) : ∃ loan, health.greatestLoanAsset = some loan := by
  obtain ⟨lines, hlines, rfl⟩ := health_eq_ok.mp h
  have hlimit : 0 ≤ (summarize lines).totalLimit := HealthLine.total_nonneg fun line hline => by
    obtain ⟨_, -, _, -, hline⟩ := mem_lines hlines hline
    exact limit_nonneg sound (fun terms hterms => hterms _ (by simp [AssetTerms.fields])) hscale hline
  have howed : 0 < HealthLine.total HealthLine.debtWorth lines := Int.lt_of_le_of_lt hlimit hbeyond
  obtain ⟨line, hline, hpos⟩ := HealthLine.exists_pos_of_total howed
  by_contra hnone
  have hworthless := greatest_eq_none.mp (Option.eq_none_iff_forall_ne_some.mpr fun loan hloan => hnone ⟨loan, hloan⟩)
  cases line with
  | nothing => exact absurd hpos (Int.lt_irrefl 0)
  | supply => exact absurd hpos (Int.lt_irrefl 0)
  | debt asset worth =>
    exact absurd (hworthless (asset, worth) (List.mem_filterMap.mpr ⟨_, hline, rfl⟩)) (Int.not_le.mpr hpos)

end Holdings

/-! ### Amounts -/

/-- The assets of a liquidation, what it goes by, and its amounts with their values. -/
structure Settlement where
  loan : Int
  collateral : Int
  loanTerms : AssetTerms
  collateralTerms : AssetTerms
  collateralState : AssetState
  loanPrice : Int
  charged : Int
  chargedValue : Int
  seized : Int
  seizedValue : Int

def Settlement.data (s : Settlement) (health : HealthSnapshot) : LiquidationData where
  health
  liquidatable := true
  loanAsset := some s.loan
  collateralAsset := some s.collateral
  liquidationAmount := some s.charged
  collateralAmount := some s.seized

section Amounts
variable {a : Assessment} {health : HealthSnapshot} {loan collateral bonus reserve : Int}
  {loanTerms collateralTerms : AssetTerms} {loanPrice collateralPrice : Int}

/-- The value that is repaid: the largest debt, or less where the collateral that may be seized is worth less. -/
def repaid (a : Assessment) (health : HealthSnapshot) (bonus : Int) : Int :=
  min health.greatestLoanValue (scaled (a.seizable health bonus) a.params.liquidationBonusScale bonus)

/-- The value that is seized: the one that is repaid, with the bonus. -/
def seized (a : Assessment) (health : HealthSnapshot) (bonus : Int) : Int :=
  scaled (a.repaid health bonus) bonus a.params.liquidationBonusScale

/-- The value that is charged: the one that is repaid, with the reserve. -/
def charged (a : Assessment) (health : HealthSnapshot) (bonus reserve : Int) : Int :=
  scaled (a.repaid health bonus) a.params.liquidationReserveFactorScale
    (a.params.liquidationReserveFactorScale - reserve)

/-- The settlement of a debt against a collateral, at their terms and prices. -/
def settlement (a : Assessment) (health : HealthSnapshot) (loan collateral : Int)
    (loanTerms collateralTerms : AssetTerms) (loanPrice collateralPrice : Int) (collateralState : AssetState) :
    Settlement :=
  let charged := scaled (a.charged health collateralTerms.liquidationBonus loanTerms.liquidationReserveFactor)
    loanTerms.unitScale loanPrice
  let seized := scaled (a.seized health collateralTerms.liquidationBonus) collateralTerms.unitScale collateralPrice
  { loan, collateral, loanTerms, collateralTerms, collateralState, loanPrice, charged, seized
    chargedValue := scaled charged loanPrice loanTerms.unitScale
    seizedValue := scaled seized collateralPrice collateralTerms.unitScale }

theorem liquidationAmounts_of_known (state : AssetState)
    (hloanTerms : a.source.terms (Text.decimal loan) = some loanTerms)
    (hcollateralTerms : a.source.terms (Text.decimal collateral) = some collateralTerms)
    (hloanPrice : a.prices (Text.decimal loan) = some loanPrice)
    (hcollateralPrice : a.prices (Text.decimal collateral) = some collateralPrice) (hloanPos : loanPrice ≠ 0)
    (hcollateralPos : collateralPrice ≠ 0) (hscale : a.params.liquidationBonusScale ≠ 0) :
    a.liquidationAmounts health loan collateral =
      if collateralTerms.liquidationBonus = 0 ∨
          a.params.liquidationReserveFactorScale - loanTerms.liquidationReserveFactor = 0 then
        .error (.arithmetic .divisionByZero)
      else
        .ok ((a.settlement health loan collateral loanTerms collateralTerms loanPrice collateralPrice state).data
          health) := by
  refine (bind_of_eq_ok (Converter.terms_eq_ok.mpr hloanTerms) _).trans ?_
  refine (bind_of_eq_ok (Converter.terms_eq_ok.mpr hcollateralTerms) _).trans ?_
  by_cases hbonus : collateralTerms.liquidationBonus = 0
  · rw [if_pos (Or.inl hbonus)]
    exact bind_of_eq_error (hbonus ▸ proportion_zero) _
  · refine (bind_of_eq_ok (proportion_of_ne_zero hbonus) _).trans ?_
    refine (bind_of_eq_ok (proportion_of_ne_zero hscale) _).trans ?_
    refine (bind_of_eq_ok
      (Converter.balanceOfValue_of_known hcollateralPrice hcollateralTerms hcollateralPos _) _).trans ?_
    by_cases hreserve : a.params.liquidationReserveFactorScale - loanTerms.liquidationReserveFactor = 0
    · rw [if_pos (Or.inr hreserve)]
      exact bind_of_eq_error (hreserve ▸ proportion_zero) _
    · rw [if_neg (not_or.mpr ⟨hbonus, hreserve⟩)]
      refine (bind_of_eq_ok (proportion_of_ne_zero hreserve) _).trans ?_
      exact bind_of_eq_ok (Converter.balanceOfValue_of_known hloanPrice hloanTerms hloanPos _) _

end Amounts

/-! ### Bounds of the values -/

section Values
variable {a : Assessment} {health : HealthSnapshot} {bonus reserve : Int}

theorem seizable_nonneg (hparams : a.params.Positive) (hworth : 0 ≤ health.greatestCollateralValue) :
    0 ≤ a.seizable health bonus := by
  have hthreshold := hparams.worthThreshold
  unfold seizable
  simp only
  split
  · exact hworth
  · omega

theorem seizable_le : a.seizable health bonus ≤ health.greatestCollateralValue := by
  unfold seizable
  simp only
  split
  · exact Int.le_refl _
  · exact Int.min_le_left _ _

theorem seizable_le_half (h : health.isBadDebt bonus a.params.liquidationBonusScale = false) :
    a.seizable health bonus ≤ max (health.greatestCollateralValue.tdiv 2) a.params.collateralWorthThreshold := by
  rw [seizable, h]
  exact Int.min_le_right _ _

theorem repaid_nonneg (hparams : a.params.Positive) (hworth : 0 ≤ health.greatestCollateralValue)
    (hdebt : 0 ≤ health.greatestLoanValue) (hbonus : 0 < bonus) : 0 ≤ a.repaid health bonus := by
  have hscale := hparams.bonusScale
  exact le_min hdebt (scaled_nonneg (seizable_nonneg hparams hworth) (Int.le_of_lt hscale) (Int.le_of_lt hbonus))

theorem repaid_le : a.repaid health bonus ≤ health.greatestLoanValue := Int.min_le_left _ _

theorem repaid_mul_le (hparams : a.params.Positive) (hworth : 0 ≤ health.greatestCollateralValue) (hbonus : 0 < bonus) :
    a.repaid health bonus * bonus ≤ a.seizable health bonus * a.params.liquidationBonusScale := by
  have hscale := hparams.bonusScale
  calc a.repaid health bonus * bonus
      ≤ scaled (a.seizable health bonus) a.params.liquidationBonusScale bonus * bonus :=
        Int.mul_le_mul_of_nonneg_right (Int.min_le_right _ _) (Int.le_of_lt hbonus)
    _ ≤ a.seizable health bonus * a.params.liquidationBonusScale :=
        scaled_mul_le (Int.mul_nonneg (seizable_nonneg hparams hworth) (Int.le_of_lt hscale))

theorem seized_le (hparams : a.params.Positive) (hworth : 0 ≤ health.greatestCollateralValue) (hbonus : 0 < bonus) :
    a.seized health bonus ≤ a.seizable health bonus :=
  scaled_le hparams.bonusScale (repaid_mul_le hparams hworth hbonus)

theorem seized_mul_le (hrepaid : 0 ≤ a.repaid health bonus) (hbonus : 0 < bonus) :
    a.seized health bonus * a.params.liquidationBonusScale ≤ a.repaid health bonus * bonus :=
  scaled_mul_le (Int.mul_nonneg hrepaid (Int.le_of_lt hbonus))

theorem charged_mul_le (hparams : a.params.Positive) (hrepaid : 0 ≤ a.repaid health bonus) :
    a.charged health bonus reserve * (a.params.liquidationReserveFactorScale - reserve) ≤
      a.repaid health bonus * a.params.liquidationReserveFactorScale := by
  have hscale := hparams.reserveScale
  exact scaled_mul_le (Int.mul_nonneg hrepaid (Int.le_of_lt hscale))

/-- Less the reserve, what is charged is worth no more than the debt. -/
theorem chargedValue_mul_le {price scale : Int} (hparams : a.params.Positive) (hrepaid : 0 ≤ a.repaid health bonus)
    (hprice : 0 < price) (hscale : 0 < scale) :
    scaled (scaled (a.charged health bonus reserve) scale price) price scale *
        (a.params.liquidationReserveFactorScale - reserve) ≤
      a.params.liquidationReserveFactorScale * health.greatestLoanValue := by
  have hreserveScale := hparams.reserveScale
  have hback : scaled (scaled (a.charged health bonus reserve) scale price) price scale *
        (a.params.liquidationReserveFactorScale - reserve) ≤
      a.charged health bonus reserve * (a.params.liquidationReserveFactorScale - reserve) := by
    -- A reserve beyond the whole turns the sign of what is charged.
    rcases Int.le_total 0 (a.params.liquidationReserveFactorScale - reserve) with hleft | hleft
    · have hcharged : 0 ≤ a.charged health bonus reserve := scaled_nonneg hrepaid (Int.le_of_lt hreserveScale) hleft
      exact Int.mul_le_mul_of_nonneg_right (scaled_scaled_le hscale (Int.le_of_lt hprice) hcharged) hleft
    · have hcharged : a.charged health bonus reserve ≤ 0 :=
        Int.tdiv_nonpos_of_nonneg_of_nonpos (Int.mul_nonneg hrepaid (Int.le_of_lt hreserveScale)) hleft
      exact Int.mul_le_mul_of_nonpos_right (le_scaled_scaled hscale (Int.le_of_lt hprice) hcharged) hleft
  calc _ ≤ _ := hback
    _ ≤ a.repaid health bonus * a.params.liquidationReserveFactorScale := charged_mul_le hparams hrepaid
    _ ≤ health.greatestLoanValue * a.params.liquidationReserveFactorScale :=
        Int.mul_le_mul_of_nonneg_right repaid_le (Int.le_of_lt hreserveScale)
    _ = a.params.liquidationReserveFactorScale * health.greatestLoanValue := Int.mul_comm _ _

/-- What is seized is covered by what is charged without the reserve, up to one unit of the amount charged and one of
    its value. -/
theorem covered_by_charged {value price scale : Int} (hparams : a.params.Positive)
    (hreserve : reserve < a.params.liquidationReserveFactorScale) (hbonus : 0 < bonus) (hprice : 0 < price)
    (hscale : 0 < scale) (hvalue : value * a.params.liquidationBonusScale ≤ a.repaid health bonus * bonus) :
    value * a.params.liquidationBonusScale * a.params.liquidationReserveFactorScale * scale <
      bonus * (a.params.liquidationReserveFactorScale - reserve) *
        ((scaled (a.charged health bonus reserve) scale price + 1) * price + scale) := by
  have hreserveScale := hparams.reserveScale
  have hleft : 0 < a.params.liquidationReserveFactorScale - reserve := by omega
  have hcharged : a.repaid health bonus * a.params.liquidationReserveFactorScale <
      (a.charged health bonus reserve + 1) * (a.params.liquidationReserveFactorScale - reserve) :=
    lt_scaled_add_one_mul hleft
  have hamount : a.charged health bonus reserve * scale <
      (scaled (a.charged health bonus reserve) scale price + 1) * price := lt_scaled_add_one_mul hprice
  generalize a.charged health bonus reserve = charged at hcharged hamount ⊢
  generalize scaled charged scale price = amount at hamount ⊢
  generalize a.params.liquidationReserveFactorScale = whole at *
  generalize a.params.liquidationBonusScale = one at *
  generalize a.repaid health bonus = repaid at *
  calc value * one * whole * scale = value * one * (whole * scale) := by ring
    _ ≤ repaid * bonus * (whole * scale) := Int.mul_le_mul_of_nonneg_right hvalue (by positivity)
    _ = repaid * whole * (bonus * scale) := by ring
    _ < (charged + 1) * (whole - reserve) * (bonus * scale) := Int.mul_lt_mul_of_pos_right hcharged (by positivity)
    _ = bonus * (whole - reserve) * (charged * scale + scale) := by ring
    _ ≤ bonus * (whole - reserve) * ((amount + 1) * price + scale) :=
        Int.mul_le_mul_of_nonneg_left (by omega) (Int.mul_nonneg (Int.le_of_lt hbonus) (Int.le_of_lt hleft))

end Values

/-! ### Settlements -/

/-- A settlement is one of the largest debt against the largest collateral of the position. It takes no more than what
    is held, than may be seized at once and than the debt with its bonus; it charges no more than the debt with its
    reserve, and what it takes is covered by what it charges up to rounding. -/
structure Settles (a : Assessment) (health : HealthSnapshot) (s : Settlement) : Prop where
  loan : health.greatestLoanAsset = some s.loan
  collateral : health.greatestCollateralAsset = some s.collateral
  loanTerms : a.source.terms (Text.decimal s.loan) = some s.loanTerms
  collateralTerms : a.source.terms (Text.decimal s.collateral) = some s.collateralTerms
  collateralState : a.source.state (Text.decimal s.collateral) = some s.collateralState
  loanPrice : a.prices (Text.decimal s.loan) = some s.loanPrice
  chargedValue : a.converter.valueOfBalance (Text.decimal s.loan) s.charged = .ok s.chargedValue
  seizedValue : a.converter.valueOfBalance (Text.decimal s.collateral) s.seized = .ok s.seizedValue
  held : s.seized ≤ a.position.balance (Text.decimal s.collateral) s.collateralState
  whole : s.seizedValue ≤ health.greatestCollateralValue
  half : health.isBadDebt s.collateralTerms.liquidationBonus a.params.liquidationBonusScale = false →
    s.seizedValue ≤ max (health.greatestCollateralValue.tdiv 2) a.params.collateralWorthThreshold
  bonus : s.seizedValue * a.params.liquidationBonusScale ≤
    s.collateralTerms.liquidationBonus * health.greatestLoanValue
  reserve : s.chargedValue * (a.params.liquidationReserveFactorScale - s.loanTerms.liquidationReserveFactor) ≤
    a.params.liquidationReserveFactorScale * health.greatestLoanValue
  covered : s.loanTerms.liquidationReserveFactor < a.params.liquidationReserveFactorScale →
    s.seizedValue * a.params.liquidationBonusScale * a.params.liquidationReserveFactorScale * s.loanTerms.unitScale <
      s.collateralTerms.liquidationBonus *
        (a.params.liquidationReserveFactorScale - s.loanTerms.liquidationReserveFactor) *
        ((s.charged + 1) * s.loanPrice + s.loanTerms.unitScale)

/-- A liquidation would have to divide by zero: the collateral has no bonus, or the reserve of the debt is the whole. -/
def Indivisible (a : Assessment) (health : HealthSnapshot) : Prop :=
  ∃ loan collateral loanTerms collateralTerms, health.greatestLoanAsset = some loan ∧
    health.greatestCollateralAsset = some collateral ∧ a.source.terms (Text.decimal loan) = some loanTerms ∧
    a.source.terms (Text.decimal collateral) = some collateralTerms ∧
    (collateralTerms.liquidationBonus = 0 ∨
      a.params.liquidationReserveFactorScale - loanTerms.liquidationReserveFactor = 0)

section Settlements
variable {a : Assessment} {health : HealthSnapshot} {loan collateral : Int}

theorem Supplies.known {key : Text} {worth : Int} (h : a.Supplies key worth) : ∃ state terms price,
    a.source.state key = some state ∧ a.source.terms key = some terms ∧ a.prices key = some price ∧
      0 < a.position.balance key state ∧ worth = scaled (a.position.balance key state) price terms.unitScale := by
  obtain ⟨state, hstate, hpos, hworth⟩ := h
  obtain ⟨price, terms, hprice, hterms⟩ := Converter.known_of_valueOfBalance hworth (Int.ne_of_gt hpos)
  exact ⟨state, terms, price, hstate, hterms, hprice, hpos,
    Except.ok.inj (hworth.symm.trans (Converter.valueOfBalance_of_known hprice hterms _))⟩

theorem Owes.known {key : Text} {worth : Int} (h : a.Owes key worth) :
    ∃ terms price, a.source.terms key = some terms ∧ a.prices key = some price := by
  obtain ⟨state, -, hneg, hworth⟩ := h
  obtain ⟨price, terms, hprice, hterms⟩ := Converter.known_of_valueOfBalance hworth (by omega)
  exact ⟨terms, price, hterms, hprice⟩

section Known
variable {loanTerms terms : AssetTerms} {loanPrice price : Int} {state : AssetState}

theorem settles_settlement (hparams : a.params.Positive) (hloan : health.greatestLoanAsset = some loan)
    (hcollateral : health.greatestCollateralAsset = some collateral) (hdebt : 0 ≤ health.greatestLoanValue)
    (hloanTerms : a.source.terms (Text.decimal loan) = some loanTerms)
    (hterms : a.source.terms (Text.decimal collateral) = some terms)
    (hstate : a.source.state (Text.decimal collateral) = some state)
    (hloanPrice : a.prices (Text.decimal loan) = some loanPrice)
    (hprice : a.prices (Text.decimal collateral) = some price)
    (hloanPos : 0 < loanPrice) (hpricePos : 0 < price) (hbonus : 0 < terms.liquidationBonus)
    (hbalance : 0 ≤ a.position.balance (Text.decimal collateral) state)
    (hworth : health.greatestCollateralValue =
      scaled (a.position.balance (Text.decimal collateral) state) price terms.unitScale) :
    a.Settles health (a.settlement health loan collateral loanTerms terms loanPrice price state) := by
  have hscale := hparams.bonusScale
  have hworthNonneg : 0 ≤ health.greatestCollateralValue := by
    rw [hworth]
    exact scaled_nonneg hbalance (Int.le_of_lt hpricePos) (Int.le_of_lt terms.unitScale_pos)
  have hrepaid : 0 ≤ a.repaid health terms.liquidationBonus := repaid_nonneg hparams hworthNonneg hdebt hbonus
  have hseized : 0 ≤ a.seized health terms.liquidationBonus :=
    scaled_nonneg hrepaid (Int.le_of_lt hbonus) (Int.le_of_lt hscale)
  have hseizedLe := seized_le hparams hworthNonneg hbonus
  -- The value of what is seized is the value that was to be seized, cut once more.
  have hseizedValue : scaled (scaled (a.seized health terms.liquidationBonus) terms.unitScale price) price
      terms.unitScale ≤ a.seized health terms.liquidationBonus :=
    scaled_scaled_le terms.unitScale_pos (Int.le_of_lt hpricePos) hseized
  have hseizedMul := Int.le_trans (Int.mul_le_mul_of_nonneg_right hseizedValue (Int.le_of_lt hscale))
    (seized_mul_le hrepaid hbonus)
  have hdebtMul : a.repaid health terms.liquidationBonus * terms.liquidationBonus ≤
      terms.liquidationBonus * health.greatestLoanValue := by
    rw [Int.mul_comm]
    exact Int.mul_le_mul_of_nonneg_left repaid_le (Int.le_of_lt hbonus)
  exact {
    loan := hloan
    collateral := hcollateral
    loanTerms := hloanTerms
    collateralTerms := hterms
    collateralState := hstate
    loanPrice := hloanPrice
    chargedValue := Converter.valueOfBalance_of_known hloanPrice hloanTerms _
    seizedValue := Converter.valueOfBalance_of_known hprice hterms _
    held := scaled_le_of_le_scaled (Int.le_of_lt terms.unitScale_pos) hpricePos hbalance
      (hworth ▸ Int.le_trans hseizedLe seizable_le)
    whole := Int.le_trans hseizedValue (Int.le_trans hseizedLe seizable_le)
    half := fun hgood => Int.le_trans hseizedValue (Int.le_trans hseizedLe (seizable_le_half hgood))
    bonus := Int.le_trans hseizedMul hdebtMul
    reserve := chargedValue_mul_le hparams hrepaid hloanPos loanTerms.unitScale_pos
    covered := fun hreserve =>
      covered_by_charged hparams hreserve hbonus hloanPos loanTerms.unitScale_pos hseizedMul }

end Known

/-- With a debt and a collateral, a liquidation can only fail by a bonus of nothing or a reserve of everything. -/
theorem settles (sound : a.Sound) (hparams : a.params.Positive)
    (hkeys : ∀ key ∈ a.source.keys, ∃ id, key = Text.decimal id) (hhealth : a.health = .ok health)
    (hloan : health.greatestLoanAsset = some loan) (hcollateral : health.greatestCollateralAsset = some collateral) :
    (a.liquidationAmounts health loan collateral = .error (.arithmetic .divisionByZero) ∧ a.Indivisible health) ∨
      ∃ s, a.liquidationAmounts health loan collateral = .ok (s.data health) ∧ a.Settles health s := by
  have hdecimal : ∀ {key id}, key ∈ a.source.keys → Text.readInteger key = some id → key = Text.decimal id := by
    intro key id hkey hread
    obtain ⟨id', rfl⟩ := hkeys key hkey
    rw [Text.eq_of_readInteger_decimal hread]
  obtain ⟨key, hkey, hread, howes, hdebt⟩ := owes_of_greatest hhealth hloan
  obtain rfl := hdecimal hkey hread
  obtain ⟨loanTerms, loanPrice, hloanTerms, hloanPrice⟩ := howes.known
  obtain ⟨key, hkey, hread, hsupplies, -⟩ := supplies_of_greatest hhealth hcollateral
  obtain rfl := hdecimal hkey hread
  obtain ⟨state, terms, price, hstate, hterms, hprice, hpos, hworth⟩ := hsupplies.known
  have hloanPos := sound.price _ _ hloanPrice
  have hpricePos := sound.price _ _ hprice
  have hscale := hparams.bonusScale
  have hamounts : a.liquidationAmounts health loan collateral = _ := liquidationAmounts_of_known state hloanTerms hterms
    hloanPrice hprice (Int.ne_of_gt hloanPos) (Int.ne_of_gt hpricePos) (Int.ne_of_gt hscale)
  split at hamounts
  · rename_i hdivisor
    exact Or.inl ⟨hamounts, loan, collateral, loanTerms, terms, hloan, hcollateral, hloanTerms, hterms, hdivisor⟩
  · rename_i hdivisors
    have hbonus : 0 < terms.liquidationBonus := by
      have hnonneg : 0 ≤ terms.liquidationBonus := sound.terms _ _ hterms _ (by simp [AssetTerms.fields])
      have hnonzero := (not_or.mp hdivisors).1
      omega
    exact Or.inr ⟨_, hamounts, settles_settlement hparams hloan hcollateral (Int.le_of_lt hdebt) hloanTerms hterms
      hstate hloanPrice hprice hloanPos hpricePos hbonus (Int.le_of_lt hpos) hworth⟩

theorem liquidation_of_beyond (hhealth : a.health = .ok health) (h : health.totalLimit < health.totalDebt)
    (hloan : health.greatestLoanAsset = some loan) : a.liquidation =
      match health.greatestCollateralAsset with
      | some collateral => a.liquidationAmounts health loan collateral
      | none => .error .noCollateral := by
  have hliquidatable : health.isLiquidatable = true := decide_eq_true h
  refine (bind_of_eq_ok hhealth _).trans ((if_pos hliquidatable).trans ?_)
  rw [hloan]
  cases health.greatestCollateralAsset with
  | none => rfl
  | some collateral => rfl

/-- How a liquidation ends, by the debt and by what is supplied. -/
theorem liquidation_cases (sound : a.Sound) (hparams : a.params.Positive)
    (hkeys : ∀ key ∈ a.source.keys, ∃ id, key = Text.decimal id) (hhealth : a.health = .ok health) :
    (health.totalDebt ≤ health.totalLimit ∧ a.liquidation = .ok { health }) ∨
    (health.totalLimit < health.totalDebt ∧ health.greatestCollateralAsset = none ∧
      a.liquidation = .error .noCollateral) ∨
    (health.totalLimit < health.totalDebt ∧ health.greatestCollateralAsset ≠ none ∧
      ((a.liquidation = .error (.arithmetic .divisionByZero) ∧ a.Indivisible health) ∨
        ∃ s, a.liquidation = .ok (s.data health) ∧ a.Settles health s)) := by
  by_cases hbeyond : health.totalLimit < health.totalDebt
  · have hscale := hparams.thresholdScale
    obtain ⟨loan, hloan⟩ := exists_loan sound (Int.le_of_lt hscale) hhealth hbeyond
    have hresult := liquidation_of_beyond hhealth hbeyond hloan
    cases hcollateral : health.greatestCollateralAsset with
    | none =>
      rw [hcollateral] at hresult
      exact Or.inr (Or.inl ⟨hbeyond, rfl, hresult⟩)
    | some collateral =>
      rw [hcollateral] at hresult
      refine Or.inr (Or.inr ⟨hbeyond, Option.some_ne_none _, ?_⟩)
      rw [hresult]
      exact settles sound hparams hkeys hhealth hloan hcollateral
  · have hsafe : ¬health.isLiquidatable = true := by
      rw [HealthSnapshot.isLiquidatable, decide_eq_true_eq]
      exact hbeyond
    exact Or.inl ⟨Int.not_lt.mp hbeyond, (bind_of_eq_ok hhealth _).trans (if_neg hsafe)⟩

end Settlements

end Assessment

theorem AssetStore.exists_decimal_of_mem_keys {ids : List Int} {key : Text}
    (h : key ∈ (AssetStore.ofIds ids).ids.keys) : ∃ id, key = Text.decimal id := by
  obtain ⟨row, hrow, rfl⟩ := List.mem_map.mp (Table.mem_keys_ofList.mp h)
  obtain ⟨id, -, rfl⟩ := List.mem_map.mp hrow
  exact ⟨id, rfl⟩

/-- A liquidation has no amounts exactly where the debt is within the limit. Beyond it, it is refused exactly where
    nothing of worth is supplied, and can otherwise only fail for a division by zero; the amounts that it gives are
    bounded. -/
theorem liquidation_bounded (ids : List Int) (store : AssetStore) (position : Position) (prices : PriceSource)
    (health : HealthSnapshot) (hids : store.ids = (AssetStore.ofIds ids).ids)
    (sound : (store.assess position prices).Sound) (hhealth : (store.assess position prices).health = .ok health) :
    let a := store.assess position prices
    (a.liquidation = .ok { health } ↔ health.totalDebt ≤ health.totalLimit) ∧
      (health.totalLimit < health.totalDebt → (a.liquidation = .error .noCollateral ↔
        ∀ key ∈ store.ids.keys, ∀ worth, a.Supplies key worth → worth ≤ 0)) ∧
      (∀ e, a.liquidation = .error e → e = .noCollateral ∨ e = .arithmetic .divisionByZero ∧ a.Indivisible health) ∧
      ∀ data, a.liquidation = .ok data → data = { health } ∨ ∃ s, data = s.data health ∧ a.Settles health s := by
  intro a
  have hkeys : ∀ key ∈ a.source.keys, ∃ id, key = Text.decimal id := by
    intro key hkey
    have hlisted : key ∈ store.ids.keys := hkey
    rw [hids] at hlisted
    exact AssetStore.exists_decimal_of_mem_keys hlisted
  have hworthless := Assessment.no_collateral_iff hhealth
  rcases Assessment.liquidation_cases sound MasterParams.positive_default hkeys hhealth with
    ⟨hcovered, hresult⟩ | ⟨hbeyond, hnone, hresult⟩ | ⟨hbeyond, hsome, ⟨hresult, hindivisible⟩ | ⟨s, hresult, hsettles⟩⟩
  · refine ⟨⟨fun _ => hcovered, fun _ => hresult⟩, fun hbeyond => absurd hbeyond (Int.not_lt.mpr hcovered), ?_, ?_⟩
    · intro e he
      cases hresult.symm.trans he
    · intro data hdata
      exact Or.inl (Except.ok.inj (hresult.symm.trans hdata)).symm
  · refine ⟨⟨fun hok => ?_, fun hcovered => absurd hbeyond (Int.not_lt.mpr hcovered)⟩,
      fun _ => ⟨fun _ => hworthless.mp hnone, fun _ => hresult⟩, ?_, ?_⟩
    · cases hresult.symm.trans hok
    · intro e he
      exact Or.inl (Except.error.inj (hresult.symm.trans he)).symm
    · intro data hdata
      cases hresult.symm.trans hdata
  · refine ⟨⟨fun hok => ?_, fun hcovered => absurd hbeyond (Int.not_lt.mpr hcovered)⟩,
      fun _ => ⟨fun hrefused => ?_, fun hworth => absurd (hworthless.mpr hworth) hsome⟩, ?_, ?_⟩
    · cases hresult.symm.trans hok
    · cases hresult.symm.trans hrefused
    · intro e he
      exact Or.inr ⟨(Except.error.inj (hresult.symm.trans he)).symm, hindivisible⟩
    · intro data hdata
      cases hresult.symm.trans hdata
  · refine ⟨⟨fun hok => ?_, fun hcovered => absurd hbeyond (Int.not_lt.mpr hcovered)⟩,
      fun _ => ⟨fun hrefused => ?_, fun hworth => absurd (hworthless.mpr hworth) hsome⟩, ?_, ?_⟩
    · cases hresult.symm.trans hok
    · cases hresult.symm.trans hrefused
    · intro e he
      cases hresult.symm.trans he
    · intro data hdata
      exact Or.inr ⟨s, (Except.ok.inj (hresult.symm.trans hdata)).symm, hsettles⟩

/-- A debt beyond the limit that the supply still covers with the bonus: half of the supply may be seized. -/
theorem liquidation_bounded_overdrawn :
    let a := leveragedStore.assess overdrawnPosition leveragedPrices.get?
    a.health = .ok overdrawnHealth ∧ overdrawnHealth.isBadDebt 10500 10000 = false ∧
      ∃ s : Assessment.Settlement, a.liquidation = .ok (s.data overdrawnHealth) ∧ s.charged = 828646611 ∧
        s.seized = 257500000004 ∧ a.Settles overdrawnHealth s := by
  intro a
  have sound : a.Sound := AssetStore.sound_assess (by decide +kernel) (by decide +kernel) (by decide +kernel)
  have hhealth : a.health = .ok overdrawnHealth := by decide +kernel
  have hresult : a.liquidation = .ok {
      health := overdrawnHealth, liquidatable := true, loanAsset := some 2, collateralAsset := some 1
      liquidationAmount := some 828646611, collateralAmount := some 257500000004 } := by decide +kernel
  obtain ⟨-, -, -, hamounts⟩ := liquidation_bounded [1, 2] leveragedStore overdrawnPosition leveragedPrices.get?
    overdrawnHealth (by decide +kernel) sound hhealth
  rcases hamounts _ hresult with hnone | ⟨s, hdata, hsettles⟩
  · cases hnone
  · refine ⟨hhealth, by decide, s, hdata ▸ hresult, ?_, ?_, hsettles⟩
    · exact (Option.some.inj (congrArg LiquidationData.liquidationAmount hdata)).symm
    · exact (Option.some.inj (congrArg LiquidationData.collateralAmount hdata)).symm

end Solvency
