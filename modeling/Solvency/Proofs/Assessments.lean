import Solvency.Health.Assessment
import Solvency.Proofs.Conversions
import Solvency.Proofs.Interest
import Solvency.Proofs.Tables

/-! Assessments: the lines of a position. The line of an asset depends on the position through one principal, so that a
    change of one principal replaces one line, and the totals move by what this line does. -/

namespace Solvency

namespace Position
variable {position : Position} {asset key : Text} {principal delta : Int} {state : AssetState}

theorem principal_change (position : Position) (asset : Text) (delta : Int) (key : Text) :
    (position.change asset delta).principal key =
      if key = asset then position.principal asset + delta else position.principal key := by
  rw [Position.principal, change, Table.get?_insert]
  split <;> rfl

theorem balanceOf_of_nonneg (h : 0 ≤ principal) :
    balanceOf principal state = scaled principal state.supplyIndex indexScale := by
  unfold balanceOf
  split
  · rename_i hzero
    rw [hzero, scaled_zero_left]
  · rw [if_pos (by omega)]

theorem balanceOf_of_nonpos (h : principal ≤ 0) :
    balanceOf principal state = scaled principal state.borrowIndex indexScale := by
  unfold balanceOf
  split
  · rename_i hzero
    rw [hzero, scaled_zero_left]
  · rw [if_neg (by omega)]

theorem principal_nonneg_of_hasNoDebt (h : position.hasNoDebt = true) (asset : Text) :
    0 ≤ position.principal asset := by
  unfold Position.principal
  cases hget : position.principals.get? asset with
  | none => exact Int.le_refl 0
  | some principal =>
    have hmem : principal ∈ position.principals.values :=
      List.mem_map.mpr ⟨(asset, principal), Table.get?_eq_some.mp hget, rfl⟩
    simpa using List.all_eq_true.mp h principal hmem

theorem hasNoDebt_change (h : position.hasNoDebt = true) (hdelta : 0 ≤ position.principal asset + delta) :
    (position.change asset delta).hasNoDebt = true := by
  refine List.all_eq_true.mpr fun principal hmem => ?_
  obtain ⟨row, hrow, rfl⟩ := List.mem_map.mp hmem
  rcases mem_writeRow hrow with rfl | hold
  · simpa using hdelta
  · exact List.all_eq_true.mp h row.2 (List.mem_map.mpr ⟨row, hold, rfl⟩)

end Position

namespace HealthLine

theorem total_cons (amount : HealthLine → Int) (line : HealthLine) (lines : List HealthLine) :
    total amount (line :: lines) = amount line + total amount lines := rfl

theorem total_nonneg {amount : HealthLine → Int} {lines : List HealthLine} (h : ∀ line ∈ lines, 0 ≤ amount line) :
    0 ≤ total amount lines := by
  induction lines with
  | nil => exact Int.le_refl 0
  | cons line lines ih =>
    rw [total_cons]
    have hline := h line List.mem_cons_self
    have hlines := ih fun l hl => h l (List.mem_cons_of_mem line hl)
    omega

theorem total_eq_zero {amount : HealthLine → Int} {lines : List HealthLine} (h : ∀ line ∈ lines, amount line = 0) :
    total amount lines = 0 := by
  induction lines with
  | nil => rfl
  | cons line lines ih =>
    rw [total_cons, h line List.mem_cons_self, ih fun l hl => h l (List.mem_cons_of_mem line hl)]
    rfl

/-- A traversal that differs in one of its items collects the same lines but for the line of this item. -/
theorem exists_mapM_replaced {ε α : Type} {f g : α → Except ε HealthLine} {xs : List α} {x : α}
    {line line' : HealthLine} {lines : List HealthLine} (hx : x ∈ xs) (hnodup : xs.Nodup) (h : xs.mapM f = .ok lines)
    (hsame : ∀ y ∈ xs, y ≠ x → g y = f y) (hf : f x = .ok line) (hg : g x = .ok line') :
    ∃ lines', xs.mapM g = .ok lines' ∧
      ∀ amount : HealthLine → Int, total amount lines' = total amount lines + (amount line' - amount line) := by
  induction xs generalizing lines with
  | nil => cases hx
  | cons y ys ih =>
    obtain ⟨hnew, hnodup⟩ := List.nodup_cons.mp hnodup
    obtain ⟨m, ms, hm, hms, rfl⟩ := List.forall₂_cons_left_iff.mp (mapM_eq_ok.mp h)
    by_cases hyx : y = x
    · -- The item stands only here, so that the rest is traversed as before.
      subst hyx
      obtain rfl : m = line := Except.ok.inj (hm.symm.trans hf)
      have hrest : List.Forall₂ (fun z l => g z = .ok l) ys ms :=
        Forall₂.imp_mem hms fun z hz l hl =>
          (hsame z (List.mem_cons_of_mem y hz) fun heq => hnew (heq ▸ hz)).trans hl
      refine ⟨line' :: ms, mapM_eq_ok.mpr (.cons hg hrest), fun amount => ?_⟩
      rw [total_cons, total_cons]
      omega
    · obtain ⟨ms', hms', htotal⟩ := ih ((List.mem_cons.mp hx).resolve_left (Ne.symm hyx)) hnodup (mapM_eq_ok.mpr hms)
        fun z hz => hsame z (List.mem_cons_of_mem y hz)
      have hhead : g y = .ok m := (hsame y List.mem_cons_self hyx).trans hm
      refine ⟨m :: ms', mapM_eq_ok.mpr (.cons hhead (mapM_eq_ok.mp hms')), fun amount => ?_⟩
      rw [total_cons, total_cons, htotal amount]
      omega

end HealthLine

theorem AssetSource.assets?_inv {source : AssetSource} {assets : List (Text × Int)} (h : source.assets? = some assets) :
    assets.map Prod.fst = source.keys ∧ ∀ asset ∈ assets, Text.readInteger asset.1 = some asset.2 := by
  have hread : List.Forall₂ (fun key asset => (Text.readInteger key).map (fun id => (key, id)) = some asset)
      source.keys assets := by
    rw [← List.forall₂_map_right_iff (f := some), ← List.forall₂_map_left_iff, List.forall₂_eq_eq_eq]
    exact mapM_eq_some.mp h
  have hpaired : List.Forall₂ (fun key asset => key = asset.1 ∧ Text.readInteger key = some asset.2)
      source.keys assets := hread.imp fun key asset hkey => by
    obtain ⟨id, hid, rfl⟩ := Option.map_eq_some_iff.mp hkey
    exact ⟨rfl, hid⟩
  constructor
  · rw [← List.map_id source.keys]
    exact (Forall₂.map_eq (hpaired.imp fun _ _ h => h.1)).symm
  · intro asset hasset
    obtain ⟨key, -, rfl, hid⟩ := Forall₂.exists_left hpaired hasset
    exact hid

namespace Assessment

/-- No field of a known record is negative, and every known price is positive. -/
structure Sound (a : Assessment) : Prop where
  terms : ∀ key terms, a.source.terms key = some terms → terms.Nonneg
  state : ∀ key state, a.source.state key = some state → state.Nonneg
  price : ∀ key price, a.prices key = some price → 0 < price

variable {a : Assessment} {weight : AssetTerms → Int} {scale : Int} {asset : Text × Int} {line : HealthLine}
  {terms : AssetTerms} {state : AssetState} {price : Int}

theorem decoded_eq_ok {key : Text} : a.decoded key = .ok (terms, state) ↔
    a.source.terms key = some terms ∧ a.source.state key = some state := by
  unfold decoded
  split
  · rename_i hterms hstate
    simp [hterms, hstate]
  · rename_i hunknown
    constructor
    · intro h
      cases h
    · rintro ⟨hterms, hstate⟩
      exact absurd hstate (hunknown terms state hterms)

theorem line_eq_ok : a.line weight scale asset = .ok line ↔
    (a.position.principal asset.1 = 0 ∧ line = .nothing) ∨
    (a.position.principal asset.1 ≠ 0 ∧ ∃ terms state,
      (a.source.terms asset.1 = some terms ∧ a.source.state asset.1 = some state) ∧
      ((0 < a.position.balance asset.1 state ∧ ∃ worth limit,
          a.converter.valueOfBalance asset.1 (a.position.balance asset.1 state) = .ok worth ∧
          proportion worth (weight terms) scale = .ok limit ∧ line = .supply asset.2 worth limit) ∨
        (a.position.balance asset.1 state < 0 ∧ ∃ worth,
          a.converter.valueOfBalance asset.1 (-a.position.balance asset.1 state) = .ok worth ∧
          line = .debt asset.2 worth) ∨
        (a.position.balance asset.1 state = 0 ∧ line = .nothing))) := by
  unfold Assessment.line
  by_cases hprincipal : a.position.principal asset.1 = 0
  · rw [if_pos hprincipal, pure_eq_ok]
    simp [hprincipal, eq_comm]
  · rw [if_neg hprincipal]
    constructor
    · intro h
      obtain ⟨⟨terms, state⟩, hdecoded, h⟩ := bind_eq_ok.mp h
      refine Or.inr ⟨hprincipal, terms, state, decoded_eq_ok.mp hdecoded, ?_⟩
      simp only at h
      split at h
      · rename_i hpos
        obtain ⟨worth, hworth, h⟩ := bind_eq_ok.mp h
        obtain ⟨limit, hlimit, h⟩ := bind_eq_ok.mp h
        exact Or.inl ⟨hpos, worth, limit, hworth, hlimit, (pure_eq_ok.mp h).symm⟩
      · split at h
        · rename_i hneg
          obtain ⟨worth, hworth, h⟩ := bind_eq_ok.mp h
          exact Or.inr (Or.inl ⟨hneg, worth, hworth, (pure_eq_ok.mp h).symm⟩)
        · exact Or.inr (Or.inr ⟨by omega, (pure_eq_ok.mp h).symm⟩)
    · rintro (⟨hzero, -⟩ | ⟨-, terms, state, hdecoded, h⟩)
      · exact absurd hzero hprincipal
      · refine bind_eq_ok.mpr ⟨(terms, state), decoded_eq_ok.mpr hdecoded, ?_⟩
        simp only
        rcases h with ⟨hpos, worth, limit, hworth, hlimit, rfl⟩ | ⟨hneg, worth, hworth, rfl⟩ | ⟨hzero, rfl⟩
        · rw [if_pos hpos]
          exact bind_eq_ok.mpr ⟨worth, hworth, bind_eq_ok.mpr ⟨limit, hlimit, rfl⟩⟩
        · rw [if_neg (by omega), if_pos hneg]
          exact bind_eq_ok.mpr ⟨worth, hworth, rfl⟩
        · rw [if_neg (by omega), if_neg (by omega)]
          rfl

/-- The line of what is held of an asset is a supply at its worth. -/
theorem supply_of_line (h : a.line weight scale asset = .ok line) (hstate : a.source.state asset.1 = some state)
    (hheld : 0 < a.position.balance asset.1 state) : ∃ worth limit,
      a.converter.valueOfBalance asset.1 (a.position.balance asset.1 state) = .ok worth ∧
        line = .supply asset.2 worth limit := by
  rcases line_eq_ok.mp h with ⟨hnone, -⟩ | ⟨-, _, state', ⟨-, hstate'⟩, hcases⟩
  · rw [Position.balance, hnone] at hheld
    exact absurd hheld (Int.lt_irrefl 0)
  · obtain rfl : state = state' := Option.some.inj (hstate.symm.trans hstate')
    rcases hcases with ⟨-, worth, limit, hworth, -, hline⟩ | ⟨hneg, -⟩ | ⟨hzero, -⟩
    · exact ⟨worth, limit, hworth, hline⟩
    · exact absurd hheld (Int.not_lt.mpr (Int.le_of_lt hneg))
    · exact absurd hzero (Int.ne_of_gt hheld)

/-- The line of an asset is made of its balance: what is supplied and what is owed, at the price of the asset. -/
theorem exists_line_of_known {key : Text} (weight : AssetTerms → Int) (id : Int)
    (hterms : a.source.terms key = some terms) (hstate : a.source.state key = some state)
    (hprice : a.prices key = some price) (hscale : scale ≠ 0) :
    ∃ line, a.line weight scale (key, id) = .ok line ∧
      line.limit = scaled (scaled (max (a.position.balance key state) 0) price terms.unitScale) (weight terms) scale ∧
      line.debtWorth = scaled (max (-a.position.balance key state) 0) price terms.unitScale := by
  have hvalue := fun balance => Converter.valueOfBalance_of_known (c := a.converter) hprice hterms balance
  by_cases hprincipal : a.position.principal key = 0
  · have hbalance : a.position.balance key state = 0 := by
      rw [Position.balance, hprincipal]
      rfl
    refine ⟨.nothing, line_eq_ok.mpr (Or.inl ⟨hprincipal, rfl⟩), ?_⟩
    simp [hbalance, HealthLine.limit, HealthLine.debtWorth]
  · rcases Int.lt_trichotomy (a.position.balance key state) 0 with hneg | hzero | hpos
    · refine ⟨_, line_eq_ok.mpr (Or.inr ⟨hprincipal, terms, state, ⟨hterms, hstate⟩,
        Or.inr (Or.inl ⟨hneg, _, hvalue _, rfl⟩)⟩), ?_⟩
      rw [Int.max_eq_right (Int.le_of_lt hneg), Int.max_eq_left (by omega)]
      simp [HealthLine.limit, HealthLine.debtWorth]
    · refine ⟨_, line_eq_ok.mpr (Or.inr ⟨hprincipal, terms, state, ⟨hterms, hstate⟩, Or.inr (Or.inr ⟨hzero, rfl⟩)⟩), ?_⟩
      simp [hzero, HealthLine.limit, HealthLine.debtWorth]
    · refine ⟨_, line_eq_ok.mpr (Or.inr ⟨hprincipal, terms, state, ⟨hterms, hstate⟩,
        Or.inl ⟨hpos, _, _, hvalue _, proportion_of_ne_zero hscale, rfl⟩⟩), ?_⟩
      rw [Int.max_eq_left (Int.le_of_lt hpos), Int.max_eq_right (by omega)]
      simp [HealthLine.limit, HealthLine.debtWorth]

theorem lines_eq_ok {lines : List HealthLine} : a.lines weight scale = .ok lines ↔
    ∃ assets, a.source.assets? = some assets ∧ assets.mapM (a.line weight scale) = .ok lines := by
  unfold Assessment.lines
  split
  · rename_i assets hassets
    simp [hassets]
  · rename_i hnone
    simp [hnone]

theorem exists_listed {key : Text} {assets : List (Text × Int)} (hassets : a.source.assets? = some assets)
    (h : key ∈ a.source.keys) : ∃ id, (key, id) ∈ assets := by
  rw [← (AssetSource.assets?_inv hassets).1] at h
  obtain ⟨⟨_, id⟩, hmem, rfl⟩ := List.mem_map.mp h
  exact ⟨id, hmem⟩

theorem mem_lines {lines : List HealthLine} (h : a.lines weight scale = .ok lines) (hline : line ∈ lines) :
    ∃ key ∈ a.source.keys, ∃ id, Text.readInteger key = some id ∧ a.line weight scale (key, id) = .ok line := by
  obtain ⟨assets, hassets, h⟩ := lines_eq_ok.mp h
  obtain ⟨hkeys, hread⟩ := AssetSource.assets?_inv hassets
  obtain ⟨asset, hasset, hline⟩ := Forall₂.exists_left (mapM_eq_ok.mp h) hline
  exact ⟨asset.1, hkeys ▸ List.mem_map_of_mem hasset, asset.2, hread asset hasset, hline⟩

theorem exists_line {key : Text} {lines : List HealthLine} (h : a.lines weight scale = .ok lines)
    (hkey : key ∈ a.source.keys) : ∃ id, ∃ line ∈ lines, a.line weight scale (key, id) = .ok line := by
  obtain ⟨assets, hassets, h⟩ := lines_eq_ok.mp h
  obtain ⟨id, hmem⟩ := exists_listed hassets hkey
  obtain ⟨line, hline, hok⟩ := Forall₂.exists_right (mapM_eq_ok.mp h) hmem
  exact ⟨id, line, hline, hok⟩

theorem borrowable_eq_ok {room : Int} : a.borrowable = .ok room ↔
    ∃ lines, a.lines AssetTerms.collateralFactor a.params.coefficientScale = .ok lines ∧
      room = HealthLine.total HealthLine.limit lines - HealthLine.total HealthLine.debtWorth lines := by
  unfold borrowable
  rw [bind_eq_ok]
  exact exists_congr fun lines => and_congr_right fun _ => by rw [pure_eq_ok, eq_comm]

theorem limit_nonneg (sound : a.Sound) (hweight : ∀ terms : AssetTerms, terms.Nonneg → 0 ≤ weight terms)
    (hscale : 0 ≤ scale) (h : a.line weight scale asset = .ok line) : 0 ≤ line.limit := by
  rcases line_eq_ok.mp h with ⟨-, rfl⟩ | ⟨-, terms, state, ⟨hterms, -⟩, hcases⟩
  · exact Int.le_refl 0
  · rcases hcases with ⟨hpos, worth, limit, hworth, hlimit, rfl⟩ | ⟨-, worth, -, rfl⟩ | ⟨-, rfl⟩
    · obtain ⟨price, terms', hprice, hterms'⟩ := Converter.known_of_valueOfBalance hworth (Int.ne_of_gt hpos)
      obtain rfl := Except.ok.inj (hworth.symm.trans (Converter.valueOfBalance_of_known hprice hterms' _))
      obtain ⟨-, rfl⟩ := proportion_eq_ok.mp hlimit
      have hvalue := scaled_nonneg (Int.le_of_lt hpos) (Int.le_of_lt (sound.price _ _ hprice))
        (Int.le_of_lt terms'.unitScale_pos)
      exact scaled_nonneg hvalue (hweight terms (sound.terms _ _ hterms)) hscale
    · exact Int.le_refl 0
    · exact Int.le_refl 0

theorem debtWorth_of_hasNoDebt (sound : a.Sound) (hdebt : a.position.hasNoDebt = true)
    (h : a.line weight scale asset = .ok line) : line.debtWorth = 0 := by
  rcases line_eq_ok.mp h with ⟨-, rfl⟩ | ⟨-, terms, state, ⟨-, hstate⟩, hcases⟩
  · rfl
  · rcases hcases with ⟨-, worth, limit, -, -, rfl⟩ | ⟨hneg, -⟩ | ⟨-, rfl⟩
    · rfl
    · have hsupplyIndex := (sound.state _ _ hstate).amounts.1
      have hprincipal := Position.principal_nonneg_of_hasNoDebt hdebt asset.1
      rw [Position.balance, Position.balanceOf_of_nonneg hprincipal] at hneg
      exact absurd hneg (Int.not_lt.mpr (scaled_nonneg hprincipal hsupplyIndex (by decide)))
    · rfl

/-- Without debt there is room for debt, if only of nothing. -/
theorem borrowable_nonneg_of_hasNoDebt {room : Int} (sound : a.Sound) (hscale : 0 ≤ a.params.coefficientScale)
    (hdebt : a.position.hasNoDebt = true) (h : a.borrowable = .ok room) : 0 ≤ room := by
  obtain ⟨lines, hlines, rfl⟩ := borrowable_eq_ok.mp h
  have hlimits : 0 ≤ HealthLine.total HealthLine.limit lines := HealthLine.total_nonneg fun line hmem => by
    obtain ⟨_, -, _, -, hline⟩ := mem_lines hlines hmem
    exact limit_nonneg sound (fun terms hterms => hterms _ (by simp [AssetTerms.fields])) hscale hline
  have hdebts : HealthLine.total HealthLine.debtWorth lines = 0 := HealthLine.total_eq_zero fun line hmem => by
    obtain ⟨_, -, _, -, hline⟩ := mem_lines hlines hmem
    exact debtWorth_of_hasNoDebt sound hdebt hline
  omega

/-! ### A change of one principal -/

/-- The assessment of the position with `delta` more principal in an asset. -/
def change (a : Assessment) (key : Text) (delta : Int) : Assessment :=
  { a with position := a.position.change key delta }

theorem sound_change (sound : a.Sound) (key : Text) (delta : Int) : (a.change key delta).Sound :=
  ⟨sound.terms, sound.state, sound.price⟩

/-- The line of an asset does not see a change of the principal in another one. -/
theorem line_change_of_ne {key : Text} (h : asset.1 ≠ key) (delta : Int) :
    (a.change key delta).line weight scale asset = a.line weight scale asset := by
  have hprincipal : (a.position.change key delta).principal asset.1 = a.position.principal asset.1 := by
    rw [Position.principal_change, if_neg h]
  unfold Assessment.line
  simp only [change, Position.balance, hprincipal]
  rfl

/-- What a balance adds to the room for debt. -/
def capacity (terms : AssetTerms) (price scale balance : Int) : Int :=
  scaled (scaled (max balance 0) price terms.unitScale) terms.collateralFactor scale -
    scaled (max (-balance) 0) price terms.unitScale

/-- A change of the principal in a listed asset moves the room for debt by what it does to the asset's balance. -/
theorem borrowable_change {key : Text} {room : Int} (hlisted : key ∈ a.source.keys) (hnodup : a.source.keys.Nodup)
    (hterms : a.source.terms key = some terms) (hstate : a.source.state key = some state)
    (hprice : a.prices key = some price) (hscale : a.params.coefficientScale ≠ 0) (h : a.borrowable = .ok room)
    (delta : Int) :
    (a.change key delta).borrowable =
      .ok (room + capacity terms price a.params.coefficientScale
          (Position.balanceOf (a.position.principal key + delta) state) -
        capacity terms price a.params.coefficientScale (a.position.balance key state)) := by
  obtain ⟨lines, hlines, rfl⟩ := borrowable_eq_ok.mp h
  obtain ⟨assets, hassets, hlines⟩ := lines_eq_ok.mp hlines
  obtain ⟨id, hmem⟩ := exists_listed hassets hlisted
  have hkeys := (AssetSource.assets?_inv hassets).1
  have hdistinct : (assets.map Prod.fst).Nodup := hkeys ▸ hnodup
  have hother : ∀ asset ∈ assets, asset ≠ (key, id) →
      (a.change key delta).line AssetTerms.collateralFactor a.params.coefficientScale asset =
        a.line AssetTerms.collateralFactor a.params.coefficientScale asset :=
    fun asset hasset hne => line_change_of_ne
      (fun hkey => hne (List.inj_on_of_nodup_map hdistinct hasset hmem hkey)) delta
  obtain ⟨before, hbefore, hlimit, hdebt⟩ :=
    exists_line_of_known (a := a) AssetTerms.collateralFactor id hterms hstate hprice hscale
  obtain ⟨after, hafter, hlimit', hdebt'⟩ :=
    exists_line_of_known (a := a.change key delta) AssetTerms.collateralFactor id hterms hstate hprice hscale
  obtain ⟨lines', hlines', htotal⟩ := HealthLine.exists_mapM_replaced hmem (List.Nodup.of_map _ hdistinct) hlines hother
    hbefore hafter
  refine borrowable_eq_ok.mpr ⟨lines', lines_eq_ok.mpr ⟨assets, hassets, hlines'⟩, ?_⟩
  have hbalance : (a.change key delta).position.balance key state =
      Position.balanceOf (a.position.principal key + delta) state := by
    rw [Position.balance, change, Position.principal_change, if_pos rfl]
  rw [htotal, htotal, hlimit, hlimit', hdebt, hdebt', hbalance, capacity, capacity]
  omega

end Assessment

theorem AssetStore.sound_assess {store : AssetStore} {position : Position} {prices : Table Text Int}
    (hterms : ∀ row ∈ store.terms.rows, row.2.Nonneg) (hstates : ∀ row ∈ store.states.rows, row.2.Nonneg)
    (hprices : ∀ row ∈ prices.rows, 0 < row.2) : (store.assess position prices.get?).Sound where
  terms _ _ h := hterms _ (Table.get?_eq_some.mp h)
  state _ _ h := hstates _ (Table.get?_eq_some.mp h)
  price _ _ h := hprices _ (Table.get?_eq_some.mp h)

/-- A store of two assets, whose amounts have different numbers of decimals. -/
def leveragedStore : AssetStore where
  ids := .ofList [("1", 1), ("2", 2)]
  terms := .ofList [("1", kinkedTerms), ("2", { kinkedTerms with decimals := 6 })]
  states := .ofList [("1", overlentState), ("2", overlentState)]

def leveragedPrices : Table Text Int := .ofList [("1", 3210000001), ("2", 1000000007)]

end Solvency
