import Solvency.Deployment.Loader
import Solvency.Proofs.Assessments

/-! Balances: a position turns its principals into balances at the scale of the indices, a converter at the scale that is
    configured for the master. Both cut the same product, so that they match exactly if the two scales are the same. -/

namespace Solvency

/-- The position that has a principal in one asset only. -/
def Position.single (asset : Text) (principal : Int) : Position := { principals := .ofList [(asset, principal)] }

theorem Position.principal_single (asset : Text) (principal : Int) :
    (Position.single asset principal).principal asset = principal := by
  rw [Position.principal, Table.get?_eq_some.mpr (List.mem_singleton.mpr rfl)]
  rfl

/-- A converter gives every principal of an asset the balance that a position has with it, and the value of this
    balance. -/
structure Converter.Matches (c : Converter) (asset : Text) (state : AssetState) : Prop where
  balance : ∀ position : Position,
    c.balanceOfPrincipal asset (position.principal asset) = .ok (position.balance asset state)
  value : ∀ position : Position,
    c.valueOfPrincipal asset (position.principal asset) = c.valueOfBalance asset (position.balance asset state)

namespace Converter
variable {c : Converter} {asset : Text} {state : AssetState}

theorem matches_of_balance (h : ∀ position : Position,
    c.balanceOfPrincipal asset (position.principal asset) = .ok (position.balance asset state)) :
    c.Matches asset state where
  balance := h
  value position := by rw [valueOfPrincipal, h position]; rfl

theorem matches_of_scale (known : c.source.state asset = some state) (hscale : c.params.factorScale = indexScale) :
    c.Matches asset state := by
  have hne : c.params.factorScale ≠ 0 := hscale ▸ Int.ne_of_gt indexScale_pos
  refine matches_of_balance fun position => ?_
  rcases Int.le_total 0 (position.principal asset) with hsupply | hdebt
  · rw [balanceOfPrincipal_of_nonneg known hne hsupply, hscale, Position.balance, Position.balanceOf_of_nonneg hsupply]
  · rw [balanceOfPrincipal_of_nonpos known hne hdebt, hscale, Position.balance, Position.balanceOf_of_nonpos hdebt]

/-- Without indices there are no balances. -/
theorem matches_of_index_eq_zero (known : c.source.state asset = some state) (hne : c.params.factorScale ≠ 0)
    (hsupply : state.supplyIndex = 0) (hborrow : state.borrowIndex = 0) : c.Matches asset state := by
  refine matches_of_balance fun position => ?_
  rcases Int.le_total 0 (position.principal asset) with h | h
  · rw [balanceOfPrincipal_of_nonneg known hne h, Position.balance, Position.balanceOf_of_nonneg h, hsupply,
      scaled_zero_middle, scaled_zero_middle]
  · rw [balanceOfPrincipal_of_nonpos known hne h, Position.balance, Position.balanceOf_of_nonpos h, hborrow,
      scaled_zero_middle, scaled_zero_middle]

/-- A product that holds two divisors is cut by neither of them, so that it tells them apart. -/
theorem eq_of_scaled_eq {y z w : Int} (hz : z ≠ 0) (hw : w ≠ 0) (h : scaled (w * z) y z = scaled (w * z) y w) :
    z = w ∨ y = 0 := by
  rw [scaled_mul_left hz, Int.mul_comm w z, scaled_mul_left hw] at h
  by_cases hy : y = 0
  · exact Or.inr hy
  · exact Or.inl (Int.eq_of_mul_eq_mul_right hy h).symm

namespace Matches

theorem supply (h : c.Matches asset state) (known : c.source.state asset = some state)
    (positive : 0 < c.params.factorScale) : c.params.factorScale = indexScale ∨ state.supplyIndex = 0 := by
  have hprincipal : 0 ≤ indexScale * c.params.factorScale :=
    Int.mul_nonneg (Int.le_of_lt indexScale_pos) (Int.le_of_lt positive)
  have hmatch := h.balance (.single asset (indexScale * c.params.factorScale))
  rw [Position.balance, Position.principal_single,
    balanceOfPrincipal_of_nonneg known (Int.ne_of_gt positive) hprincipal, Position.balanceOf_of_nonneg hprincipal]
    at hmatch
  exact eq_of_scaled_eq (Int.ne_of_gt positive) (Int.ne_of_gt indexScale_pos) (Except.ok.inj hmatch)

theorem debt (h : c.Matches asset state) (known : c.source.state asset = some state)
    (positive : 0 < c.params.factorScale) : c.params.factorScale = indexScale ∨ state.borrowIndex = 0 := by
  have hprincipal : -(indexScale * c.params.factorScale) ≤ 0 :=
    Int.neg_nonpos_of_nonneg (Int.mul_nonneg (Int.le_of_lt indexScale_pos) (Int.le_of_lt positive))
  have hmatch := h.balance (.single asset (-(indexScale * c.params.factorScale)))
  rw [Position.balance, Position.principal_single,
    balanceOfPrincipal_of_nonpos known (Int.ne_of_gt positive) hprincipal, Position.balanceOf_of_nonpos hprincipal,
    scaled_neg_left, scaled_neg_left] at hmatch
  exact eq_of_scaled_eq (Int.ne_of_gt positive) (Int.ne_of_gt indexScale_pos) (Int.neg_inj.mp (Except.ok.inj hmatch))

end Matches

end Converter

/-- The balances of a converter match those of the positions exactly if its scale is that of the indices, or if the asset
    has no index on either side. -/
theorem balances_match_iff (c : Converter) (asset : Text) (state : AssetState)
    (positive : 0 < c.params.factorScale) (known : c.source.state asset = some state) :
    c.Matches asset state ↔
      c.params.factorScale = indexScale ∨ (state.supplyIndex = 0 ∧ state.borrowIndex = 0) := by
  constructor
  · intro h
    rcases h.supply known positive with hscale | hsupply
    · exact Or.inl hscale
    · rcases h.debt known positive with hscale | hborrow
      · exact Or.inl hscale
      · exact Or.inr ⟨hsupply, hborrow⟩
  · rintro (hscale | ⟨hsupply, hborrow⟩)
    · exact Converter.matches_of_scale known hscale
    · exact Converter.matches_of_index_eq_zero known (Int.ne_of_gt positive) hsupply hborrow

/-- With the default parameters of a master, every balance matches. -/
theorem balances_match_iff_leveraged :
    let c : Converter := ⟨leveragedStore.source, leveragedPrices.get?, {}⟩
    0 < c.params.factorScale ∧ c.source.state "1" = some overlentState ∧ c.Matches "1" overlentState := by
  intro c
  have positive : 0 < c.params.factorScale := by decide
  have known : c.source.state "1" = some overlentState := by decide +kernel
  exact ⟨positive, known, (balances_match_iff c "1" overlentState positive known).mpr (Or.inl rfl)⟩

/-- A file that configures a coarser scale for balances than the indices have. -/
def coarseScale : Document :=
  .map [(.text "preset", .ofText "mainnet"),
    (.text "params", .map [(.text "factor_scale", .scalar (.integer 1000000000))])]

/-- The deployment is valid, and its converter makes a thousand times more of a principal than the position does. -/
theorem balances_differ_at_coarse_scale :
    let params := (Deployment.ofDocument 500 (fun _ => none) coarseScale).map Deployment.params
    let c : Converter := ⟨leveragedStore.source, leveragedPrices.get?, { factorScale := 1000000000 }⟩
    params = .ok c.params ∧ 0 < c.params.factorScale ∧ c.source.state "1" = some overlentState ∧
      c.balanceOfPrincipal "1" ((Position.single "1" 5000000007).principal "1") = .ok 5150000007245 ∧
      (Position.single "1" 5000000007).balance "1" overlentState = 5150000007 := by
  decide +kernel

end Solvency
