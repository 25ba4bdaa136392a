import Mathlib.Algebra.BigOperators.Group.List.Basic
import Mathlib.Algebra.Group.Int.Defs
import Solvency.Proofs.Assessments
import Solvency.Proofs.Decimals

/-! Appraisals: what an assessment comes to, asset by asset. Every total is a sum over the listed assets, and the
    greatest supply and the greatest debt are the first ones of the greatest worth, so that the order in which a source
    lists its assets decides nothing but ties. -/

namespace Solvency

/-! ### The greatest worth -/

section Greatest
variable {best : Option Int × Int} {rows : List (Int × Int)} {asset : Int}

/-- Either no row is worth more than the best one so far, or the first of those that are worth the most is the greatest
    one. -/
theorem greatest_cases (best : Option Int × Int) (rows : List (Int × Int)) :
    (greatest best rows = best ∧ ∀ row ∈ rows, row.2 ≤ best.2) ∨
      ∃ earlier row later, rows = earlier ++ row :: later ∧ greatest best rows = (some row.1, row.2) ∧
        best.2 < row.2 ∧ (∀ r ∈ earlier, r.2 < row.2) ∧ ∀ r ∈ later, r.2 ≤ row.2 := by
  induction rows generalizing best with
  | nil => exact Or.inl ⟨rfl, fun _ hrow => absurd hrow List.not_mem_nil⟩
  | cons first rows ih =>
    rw [greatest]
    split
    · rename_i hless
      rcases ih (some first.1, first.2) with ⟨hfirst, hrows⟩ | ⟨earlier, row, later, rfl, hgreatest, hmore, hearlier, hlater⟩
      · exact Or.inr ⟨[], first, rows, rfl, hfirst, hless, fun _ hr => absurd hr List.not_mem_nil, hrows⟩
      · exact Or.inr ⟨first :: earlier, row, later, rfl, hgreatest, Int.lt_trans hless hmore,
          List.forall_mem_cons.mpr ⟨hmore, hearlier⟩, hlater⟩
    · rename_i hmost
      have hfirst := Int.not_lt.mp hmost
      rcases ih best with ⟨hsame, hrows⟩ | ⟨earlier, row, later, rfl, hgreatest, hmore, hearlier, hlater⟩
      · exact Or.inl ⟨hsame, List.forall_mem_cons.mpr ⟨hfirst, hrows⟩⟩
      · exact Or.inr ⟨first :: earlier, row, later, rfl, hgreatest, hmore,
          List.forall_mem_cons.mpr ⟨Int.lt_of_le_of_lt hfirst hmore, hearlier⟩, hlater⟩

theorem mem_of_greatest (h : (greatest (none, 0) rows).1 = some asset) :
    (asset, (greatest (none, 0) rows).2) ∈ rows ∧ 0 < (greatest (none, 0) rows).2 := by
  rcases greatest_cases (none, 0) rows with ⟨hnone, -⟩ | ⟨earlier, row, later, hrows, hgreatest, hpos, -⟩
  · rw [hnone] at h
    cases h
  · rw [hgreatest] at h ⊢
    obtain rfl : row.1 = asset := Option.some.inj h
    exact ⟨hrows ▸ List.mem_append_right earlier List.mem_cons_self, hpos⟩

theorem greatest_eq_none : (greatest (none, 0) rows).1 = none ↔ ∀ row ∈ rows, row.2 ≤ 0 := by
  rcases greatest_cases (none, 0) rows with ⟨hnone, hworthless⟩ | ⟨earlier, row, later, hrows, hgreatest, hpos, -⟩
  · exact ⟨fun _ => hworthless, fun _ => by rw [hnone]⟩
  · refine ⟨fun hnone => ?_, fun hworthless => ?_⟩
    · rw [hgreatest] at hnone
      cases hnone
    · exact absurd (hworthless row (hrows ▸ List.mem_append_right earlier List.mem_cons_self)) (Int.not_le.mpr hpos)

/-- Rows that are left out change nothing if they would be worth nothing. -/
theorem greatest_filterMap {α : Type} {row? : α → Option (Int × Int)} (row : α → Int × Int) {xs : List α}
    (h : ∀ x ∈ xs, row? x = some (row x) ∨ row? x = none ∧ (row x).2 ≤ 0) (hbest : 0 ≤ best.2) :
    greatest best (xs.filterMap row?) = greatest best (xs.map row) := by
  induction xs generalizing best with
  | nil => rfl
  | cons x xs ih =>
    have hxs := fun y hy => h y (List.mem_cons_of_mem x hy)
    rcases h x List.mem_cons_self with hrow | ⟨hnone, hworthless⟩
    · rw [List.filterMap_cons_some hrow, List.map_cons, greatest, greatest]
      refine ih hxs ?_
      split
      · rename_i hless
        exact Int.le_of_lt (Int.lt_of_le_of_lt hbest hless)
      · exact hbest
    · rw [List.filterMap_cons_none hnone, List.map_cons, greatest,
        if_neg (Int.not_lt.mpr (Int.le_trans hworthless hbest))]
      exact ih hxs hbest

end Greatest

/-- The first of some keys with the greatest worth leads them, if that is positive; otherwise nothing does. -/
inductive Leads (worth : Text → Int) (keys : List Text) : Option Int → Int → Prop where
  | nothing (worthless : ∀ key ∈ keys, worth key ≤ 0) : Leads worth keys none 0
  | first {earlier later : List Text} {key : Text} {id : Int} (listed : keys = earlier ++ key :: later)
      (number : Text.decimal? id = some key) (positive : 0 < worth key) (above : ∀ k ∈ earlier, worth k < worth key)
      (most : ∀ k ∈ later, worth k ≤ worth key) : Leads worth keys (some id) (worth key)

/-- No two of some keys have a given worth. -/
def AttainedOnce (worth : Text → Int) (keys : List Text) (value : Int) : Prop :=
  ∀ k ∈ keys, ∀ k' ∈ keys, worth k = value → worth k' = value → k = k'

namespace Leads
variable {worth : Text → Int} {keys keys' : List Text} {leader leader' : Option Int} {value value' : Int}

theorem le_value (h : Leads worth keys leader value) {key : Text} (hkey : key ∈ keys) : worth key ≤ value := by
  cases h with
  | nothing worthless => exact worthless key hkey
  | first listed _ _ above most =>
    rcases List.mem_append.mp (listed ▸ hkey) with hearlier | hrest
    · exact Int.le_of_lt (above key hearlier)
    · rcases List.mem_cons.mp hrest with rfl | hlater
      · exact Int.le_refl _
      · exact most key hlater

/-- The leading worth is nothing, or that of the key that leads. -/
theorem attained (h : Leads worth keys leader value) : (leader = none ∧ value = 0) ∨
    ∃ key ∈ keys, ∃ id, Text.decimal? id = some key ∧ leader = some id ∧ worth key = value ∧ 0 < value := by
  cases h with
  | nothing => exact Or.inl ⟨rfl, rfl⟩
  | first listed number positive =>
    exact Or.inr ⟨_, listed ▸ List.mem_append_right _ List.mem_cons_self, _, number, rfl, rfl, positive⟩

theorem congr {worth' : Text → Int} (h : Leads worth keys leader value) (same : ∀ key ∈ keys, worth' key = worth key) :
    Leads worth' keys leader value := by
  cases h with
  | nothing worthless => exact .nothing fun key hkey => same key hkey ▸ worthless key hkey
  | @first earlier later key id listed number positive above most =>
    have hkey : worth' key = worth key := same key (listed ▸ List.mem_append_right _ List.mem_cons_self)
    rw [← hkey] at positive above most ⊢
    refine .first listed number positive (fun k hk => ?_) fun k hk => ?_
    · rw [same k (listed ▸ List.mem_append_left _ hk)]
      exact above k hk
    · rw [same k (listed ▸ List.mem_append_right _ (List.mem_cons_of_mem _ hk))]
      exact most k hk

theorem value_le (h : Leads worth keys leader value) (h' : Leads worth keys' leader' value')
    (hsub : ∀ key ∈ keys, key ∈ keys') : value ≤ value' := by
  rcases h.attained with ⟨-, rfl⟩ | ⟨key, hkey, -, -, -, rfl, -⟩
  · rcases h'.attained with ⟨-, rfl⟩ | ⟨-, -, -, -, -, -, hpos⟩
    · exact Int.le_refl 0
    · exact Int.le_of_lt hpos
  · exact h'.le_value (hsub key hkey)

/-- The leading worth depends on which keys there are only, and so does the leader if its worth is attained once. -/
theorem unique (h : Leads worth keys leader value) (h' : Leads worth keys' leader' value')
    (hsame : ∀ key, key ∈ keys ↔ key ∈ keys') :
    value = value' ∧ (AttainedOnce worth keys value → leader = leader') := by
  have hvalue : value = value' :=
    Int.le_antisymm (h.value_le h' fun key => (hsame key).mp) (h'.value_le h fun key => (hsame key).mpr)
  refine ⟨hvalue, fun once => ?_⟩
  rcases h.attained with ⟨rfl, hzero⟩ | ⟨key, hkey, id, hnumber, rfl, hworth, hpos⟩
  · rcases h'.attained with ⟨rfl, -⟩ | ⟨-, -, -, -, -, -, hpos'⟩
    · rfl
    · omega
  · rcases h'.attained with ⟨-, hzero⟩ | ⟨key', hkey', id', hnumber', rfl, hworth', -⟩
    · omega
    · obtain rfl := once key hkey key' ((hsame key').mpr hkey') hworth (hworth'.trans hvalue.symm)
      rw [Text.eq_of_decimal? hnumber hnumber']

end Leads

/-- The greatest row leads, where the rows are made of the assets that are worth anything. -/
theorem leads_greatest {worth : Text → Int} {assets : List (Text × Int)} {line : Text × Int → HealthLine}
    {row? : HealthLine → Option (Int × Int)} (hnumbers : ∀ asset ∈ assets, Text.decimal? asset.2 = some asset.1)
    (hrows : ∀ asset, row? (line asset) = some (asset.2, worth asset.1) ∨
      row? (line asset) = none ∧ worth asset.1 ≤ 0) :
    Leads worth (assets.map Prod.fst) (greatest (none, 0) ((assets.map line).filterMap row?)).1
      (greatest (none, 0) ((assets.map line).filterMap row?)).2 := by
  have hrow : greatest (none, 0) ((assets.map line).filterMap row?) =
      greatest (none, 0) (assets.map fun asset => (asset.2, worth asset.1)) := by
    rw [List.filterMap_map]
    exact greatest_filterMap _ (fun asset _ => hrows asset) (Int.le_refl 0)
  rw [hrow]
  rcases greatest_cases (none, 0) (assets.map fun asset => (asset.2, worth asset.1)) with
    ⟨hnone, hworthless⟩ | ⟨_, row, _, hsplit, hgreatest, hpos, habove, hmost⟩
  · rw [hnone]
    refine .nothing fun key hkey => ?_
    obtain ⟨asset, hasset, rfl⟩ := List.mem_map.mp hkey
    exact hworthless _ (List.mem_map_of_mem hasset)
  · -- the rows split where the assets do
    obtain ⟨earlier, rest, rfl, rfl, hrest⟩ := List.map_eq_append_iff.mp hsplit
    obtain ⟨asset, later, rfl, rfl, rfl⟩ := List.map_eq_cons_iff.mp hrest
    have hlisted : (earlier ++ asset :: later).map Prod.fst =
        earlier.map Prod.fst ++ asset.1 :: later.map Prod.fst := by rw [List.map_append, List.map_cons]
    rw [hgreatest]
    refine .first hlisted (hnumbers asset ?_) hpos (fun key hkey => ?_) fun key hkey => ?_
    · exact List.mem_append_right earlier List.mem_cons_self
    · obtain ⟨asset', hasset', rfl⟩ := List.mem_map.mp hkey
      exact habove _ (List.mem_map_of_mem hasset')
    · obtain ⟨asset', hasset', rfl⟩ := List.mem_map.mp hkey
      exact hmost _ (List.mem_map_of_mem hasset')

namespace Assessment

/-! ### What an asset is worth to a position -/

/-- The balance in an asset; nothing where its state is not known. -/
def balanceAt (a : Assessment) (key : Text) : Int := ((a.source.state key).map (a.position.balance key)).getD 0

/-- The worth of an amount of an asset; nothing where its price or terms are not known. -/
def worthOf (a : Assessment) (key : Text) (amount : Int) : Int :=
  match a.prices key, a.source.terms key with
  | some price, some terms => scaled amount price terms.unitScale
  | _, _ => 0

/-- The worth of what is supplied of an asset. -/
def suppliedWorth (a : Assessment) (key : Text) : Int := a.worthOf key (max (a.balanceAt key) 0)

/-- The worth of what is owed of an asset. -/
def owedWorth (a : Assessment) (key : Text) : Int := a.worthOf key (max (-a.balanceAt key) 0)

/-- The debt that is allowed for what is supplied of an asset. -/
def allowance (a : Assessment) (weight : AssetTerms → Int) (scale : Int) (key : Text) : Int :=
  ((a.source.terms key).map fun terms => scaled (a.suppliedWorth key) (weight terms) scale).getD 0

/-- Everything that the line of an asset needs is known: its terms and state if there is a principal in it, and its price
    if there is a balance. -/
structure Appraisable (a : Assessment) (key : Text) : Prop where
  decoded : a.position.principal key ≠ 0 →
    (∃ terms, a.source.terms key = some terms) ∧ ∃ state, a.source.state key = some state
  priced : a.balanceAt key ≠ 0 → ∃ price, a.prices key = some price

/-- The line of an asset that can be appraised. -/
def appraised (a : Assessment) (weight : AssetTerms → Int) (scale : Int) (asset : Text × Int) : HealthLine :=
  if 0 < a.balanceAt asset.1 then .supply asset.2 (a.suppliedWorth asset.1) (a.allowance weight scale asset.1)
  else if a.balanceAt asset.1 < 0 then .debt asset.2 (a.owedWorth asset.1)
  else .nothing

section Lines
variable {a : Assessment} {weight : AssetTerms → Int} {scale : Int} {asset : Text × Int} {line : HealthLine} {key : Text}
  {terms : AssetTerms} {state : AssetState} {price amount : Int}

theorem balanceAt_of_state (h : a.source.state key = some state) : a.balanceAt key = a.position.balance key state := by
  rw [balanceAt, h]
  rfl

theorem balanceAt_of_principal_eq_zero (h : a.position.principal key = 0) : a.balanceAt key = 0 := by
  cases hstate : a.source.state key with
  | none => rw [balanceAt, hstate]; rfl
  | some state => rw [balanceAt_of_state hstate, Position.balance, h]; rfl

theorem worthOf_of_known (hprice : a.prices key = some price) (hterms : a.source.terms key = some terms) (amount : Int) :
    a.worthOf key amount = scaled amount price terms.unitScale := by
  rw [worthOf, hprice, hterms]

@[simp] theorem worthOf_zero (a : Assessment) (key : Text) : a.worthOf key 0 = 0 := by
  unfold worthOf
  split
  · exact scaled_zero_left _ _
  · rfl

theorem suppliedWorth_of_nonneg (h : 0 ≤ a.balanceAt key) : a.suppliedWorth key = a.worthOf key (a.balanceAt key) := by
  rw [suppliedWorth, Int.max_eq_left h]

theorem suppliedWorth_of_nonpos (h : a.balanceAt key ≤ 0) : a.suppliedWorth key = 0 := by
  rw [suppliedWorth, Int.max_eq_right h, worthOf_zero]

theorem owedWorth_of_nonpos (h : a.balanceAt key ≤ 0) : a.owedWorth key = a.worthOf key (-a.balanceAt key) := by
  rw [owedWorth, Int.max_eq_left (by omega)]

theorem owedWorth_of_nonneg (h : 0 ≤ a.balanceAt key) : a.owedWorth key = 0 := by
  rw [owedWorth, Int.max_eq_right (by omega), worthOf_zero]

theorem allowance_of_nonpos (h : a.balanceAt key ≤ 0) : a.allowance weight scale key = 0 := by
  rw [allowance, suppliedWorth_of_nonpos h]
  cases a.source.terms key with
  | none => rfl
  | some terms => exact scaled_zero_left _ _

theorem valueOfBalance_of_priced (hprice : a.prices key = some price) (hterms : a.source.terms key = some terms)
    (amount : Int) : a.converter.valueOfBalance key amount = .ok (a.worthOf key amount) := by
  rw [worthOf_of_known hprice hterms]
  exact Converter.valueOfBalance_of_known hprice hterms amount

theorem appraised_of_line (h : a.line weight scale asset = .ok line) :
    a.Appraisable asset.1 ∧ a.appraised weight scale asset = line := by
  rcases line_eq_ok.mp h with ⟨hprincipal, rfl⟩ | ⟨-, terms, state, ⟨hterms, hstate⟩, hcases⟩
  · have hbalance := balanceAt_of_principal_eq_zero hprincipal
    exact ⟨⟨fun hne => absurd hprincipal hne, fun hne => absurd hbalance hne⟩, by rw [appraised, hbalance]; rfl⟩
  · rw [← balanceAt_of_state hstate] at hcases
    have hdecoded : a.position.principal asset.1 ≠ 0 →
        (∃ terms, a.source.terms asset.1 = some terms) ∧ ∃ state, a.source.state asset.1 = some state :=
      fun _ => ⟨⟨terms, hterms⟩, state, hstate⟩
    rcases hcases with ⟨hpos, worth, limit, hworth, hlimit, rfl⟩ | ⟨hneg, worth, hworth, rfl⟩ | ⟨hzero, rfl⟩
    · obtain ⟨price, _, hprice, -⟩ := Converter.known_of_valueOfBalance hworth (Int.ne_of_gt hpos)
      refine ⟨⟨hdecoded, fun _ => ⟨price, hprice⟩⟩, ?_⟩
      obtain rfl := Except.ok.inj (hworth.symm.trans (valueOfBalance_of_priced hprice hterms _))
      obtain ⟨-, rfl⟩ := proportion_eq_ok.mp hlimit
      rw [appraised, if_pos hpos, allowance, hterms, suppliedWorth_of_nonneg (Int.le_of_lt hpos)]
      rfl
    · obtain ⟨price, _, hprice, -⟩ := Converter.known_of_valueOfBalance hworth (by omega)
      refine ⟨⟨hdecoded, fun _ => ⟨price, hprice⟩⟩, ?_⟩
      obtain rfl := Except.ok.inj (hworth.symm.trans (valueOfBalance_of_priced hprice hterms _))
      rw [appraised, if_neg (by omega), if_pos hneg, owedWorth_of_nonpos (Int.le_of_lt hneg)]
    · exact ⟨⟨hdecoded, fun hne => absurd hzero hne⟩, by rw [appraised, hzero]; rfl⟩

theorem line_of_appraisable (hscale : scale ≠ 0) (h : a.Appraisable asset.1) :
    a.line weight scale asset = .ok (a.appraised weight scale asset) := by
  by_cases hprincipal : a.position.principal asset.1 = 0
  · refine line_eq_ok.mpr (Or.inl ⟨hprincipal, ?_⟩)
    rw [appraised, balanceAt_of_principal_eq_zero hprincipal]
    rfl
  · obtain ⟨⟨terms, hterms⟩, state, hstate⟩ := h.decoded hprincipal
    refine line_eq_ok.mpr (Or.inr ⟨hprincipal, terms, state, ⟨hterms, hstate⟩, ?_⟩)
    rw [← balanceAt_of_state hstate, appraised]
    rcases Int.lt_trichotomy (a.balanceAt asset.1) 0 with hneg | hzero | hpos
    · obtain ⟨price, hprice⟩ := h.priced (Int.ne_of_lt hneg)
      refine Or.inr (Or.inl ⟨hneg, _, valueOfBalance_of_priced hprice hterms _, ?_⟩)
      rw [if_neg (by omega), if_pos hneg, owedWorth_of_nonpos (Int.le_of_lt hneg)]
    · refine Or.inr (Or.inr ⟨hzero, ?_⟩)
      rw [if_neg (by omega), if_neg (by omega)]
    · obtain ⟨price, hprice⟩ := h.priced (Int.ne_of_gt hpos)
      refine Or.inl ⟨hpos, _, _, valueOfBalance_of_priced hprice hterms _, proportion_of_ne_zero hscale, ?_⟩
      rw [if_pos hpos, allowance, hterms, suppliedWorth_of_nonneg (Int.le_of_lt hpos)]
      rfl

/-- An asset has a line exactly if it can be appraised, and the line is then made of its worth. -/
theorem line_eq_ok_iff (hscale : scale ≠ 0) :
    a.line weight scale asset = .ok line ↔ a.Appraisable asset.1 ∧ a.appraised weight scale asset = line := by
  refine ⟨appraised_of_line, ?_⟩
  rintro ⟨happraisable, rfl⟩
  exact line_of_appraisable hscale happraisable

theorem supplyWorth_appraised (a : Assessment) (weight : AssetTerms → Int) (scale : Int) (asset : Text × Int) :
    (a.appraised weight scale asset).supplyWorth = a.suppliedWorth asset.1 := by
  unfold appraised
  split
  · rfl
  · rename_i hnot
    rw [suppliedWorth_of_nonpos (Int.not_lt.mp hnot)]
    split <;> rfl

theorem limit_appraised (a : Assessment) (weight : AssetTerms → Int) (scale : Int) (asset : Text × Int) :
    (a.appraised weight scale asset).limit = a.allowance weight scale asset.1 := by
  unfold appraised
  split
  · rfl
  · rename_i hnot
    rw [allowance_of_nonpos (Int.not_lt.mp hnot)]
    split <;> rfl

theorem debtWorth_appraised (a : Assessment) (weight : AssetTerms → Int) (scale : Int) (asset : Text × Int) :
    (a.appraised weight scale asset).debtWorth = a.owedWorth asset.1 := by
  unfold appraised
  split
  · rename_i hpos
    rw [owedWorth_of_nonneg (Int.le_of_lt hpos)]
    rfl
  · split
    · rfl
    · rename_i hnot
      rw [owedWorth_of_nonneg (Int.not_lt.mp hnot)]
      rfl

theorem collateral?_appraised (a : Assessment) (weight : AssetTerms → Int) (scale : Int) (asset : Text × Int) :
    (a.appraised weight scale asset).collateral? = some (asset.2, a.suppliedWorth asset.1) ∨
      (a.appraised weight scale asset).collateral? = none ∧ a.suppliedWorth asset.1 ≤ 0 := by
  unfold appraised
  split
  · exact Or.inl rfl
  · rename_i hnot
    rw [suppliedWorth_of_nonpos (Int.not_lt.mp hnot)]
    split <;> exact Or.inr ⟨rfl, Int.le_refl 0⟩

theorem loan?_appraised (a : Assessment) (weight : AssetTerms → Int) (scale : Int) (asset : Text × Int) :
    (a.appraised weight scale asset).loan? = some (asset.2, a.owedWorth asset.1) ∨
      (a.appraised weight scale asset).loan? = none ∧ a.owedWorth asset.1 ≤ 0 := by
  unfold appraised
  split
  · rename_i hpos
    rw [owedWorth_of_nonneg (Int.le_of_lt hpos)]
    exact Or.inr ⟨rfl, Int.le_refl 0⟩
  · split
    · exact Or.inl rfl
    · rename_i hnot
      rw [owedWorth_of_nonneg (Int.not_lt.mp hnot)]
      exact Or.inr ⟨rfl, Int.le_refl 0⟩

end Lines

end Assessment

/-! ### What all assets come to -/

namespace AssetSource

/-- The keys of a source are the decimal texts of the ids of its assets. -/
def Numbered (source : AssetSource) : Prop := ∀ key ∈ source.keys, ∃ id, Text.decimal? id = some key

/-- A source lists the assets of another one, in any order, and knows the same about each. -/
structure SameAssets (source other : AssetSource) : Prop where
  keys : source.keys.Perm other.keys
  terms : ∀ key ∈ source.keys, other.terms key = source.terms key
  state : ∀ key ∈ source.keys, other.state key = source.state key

section
variable {source other : AssetSource} {assets : List (Text × Int)}

theorem Numbered.exists_assets (numbered : source.Numbered) : ∃ assets, source.assets? = some assets := by
  have hread : ∀ key ∈ source.keys, ∃ asset, (Text.readInteger key).map (fun id => (key, id)) = some asset := by
    intro key hkey
    obtain ⟨id, hid⟩ := numbered key hkey
    exact ⟨(key, id), by rw [Text.readInteger_of_decimal? hid, Option.map_some]⟩
  obtain ⟨assets, hassets⟩ := exists_forall₂ hread
  exact ⟨assets, mapM_eq_some.mpr (Forall₂.map_eq hassets)⟩

theorem Numbered.number_of_mem (numbered : source.Numbered) (hassets : source.assets? = some assets) :
    ∀ asset ∈ assets, Text.decimal? asset.2 = some asset.1 := by
  obtain ⟨hkeys, hread⟩ := assets?_inv hassets
  intro asset hasset
  obtain ⟨id, hid⟩ := numbered asset.1 (hkeys ▸ List.mem_map_of_mem hasset)
  have hsame : id = asset.2 := Option.some.inj ((Text.readInteger_of_decimal? hid).symm.trans (hread asset hasset))
  exact hsame ▸ hid

theorem SameAssets.numbered (same : source.SameAssets other) (numbered : source.Numbered) : other.Numbered :=
  fun key hkey => numbered key (same.keys.mem_iff.mpr hkey)

end

end AssetSource

/-- Two snapshots agree in everything but the assets that they name. -/
structure HealthSnapshot.SameTotals (health other : HealthSnapshot) : Prop where
  supply : other.totalSupply = health.totalSupply
  debt : other.totalDebt = health.totalDebt
  limit : other.totalLimit = health.totalLimit
  collateral : other.greatestCollateralValue = health.greatestCollateralValue
  loan : other.greatestLoanValue = health.greatestLoanValue

namespace Assessment

/-- A snapshot is what the listed assets are worth in total, with the first supply and the first debt of the greatest
    worth. -/
structure Summarizes (a : Assessment) (health : HealthSnapshot) : Prop where
  supply : health.totalSupply = (a.source.keys.map a.suppliedWorth).sum
  debt : health.totalDebt = (a.source.keys.map a.owedWorth).sum
  limit : health.totalLimit = (a.source.keys.map
    (a.allowance AssetTerms.liquidationThreshold a.params.liquidationThresholdScale)).sum
  collateral : Leads a.suppliedWorth a.source.keys health.greatestCollateralAsset health.greatestCollateralValue
  loan : Leads a.owedWorth a.source.keys health.greatestLoanAsset health.greatestLoanValue

section Whole
variable {a : Assessment} {weight : AssetTerms → Int} {scale : Int} {lines : List HealthLine} {health : HealthSnapshot}

theorem health_eq_ok : a.health = .ok health ↔
    ∃ lines, a.lines AssetTerms.liquidationThreshold a.params.liquidationThresholdScale = .ok lines ∧
      health = summarize lines := by
  unfold Assessment.health
  rw [bind_eq_ok]
  exact exists_congr fun lines => and_congr_right fun _ => by rw [pure_eq_ok, eq_comm]

/-- There are lines exactly if every listed asset can be appraised. -/
theorem lines_eq_ok_iff (hscale : scale ≠ 0) : a.lines weight scale = .ok lines ↔
    ∃ assets, a.source.assets? = some assets ∧ (∀ asset ∈ assets, a.Appraisable asset.1) ∧
      assets.map (a.appraised weight scale) = lines := by
  rw [lines_eq_ok]
  refine exists_congr fun assets => and_congr_right fun _ => ?_
  rw [mapM_eq_ok]
  simp only [line_eq_ok_iff hscale]
  rw [List.forall₂_and_left, ← List.forall₂_map_left_iff (f := a.appraised weight scale), List.forall₂_eq_eq_eq]

theorem total_appraised {amount : HealthLine → Int} {worth : Text → Int}
    (h : ∀ asset, amount (a.appraised weight scale asset) = worth asset.1) (assets : List (Text × Int)) :
    HealthLine.total amount (assets.map (a.appraised weight scale)) = ((assets.map Prod.fst).map worth).sum := by
  induction assets with
  | nil => rfl
  | cons asset assets ih =>
    rw [List.map_cons, HealthLine.total_cons, h, ih]
    rfl

/-- A snapshot is made of the appraisals of all listed assets. -/
theorem health_eq_ok_iff (hscale : a.params.liquidationThresholdScale ≠ 0) : a.health = .ok health ↔
    ∃ assets, a.source.assets? = some assets ∧ (∀ asset ∈ assets, a.Appraisable asset.1) ∧ health = summarize
      (assets.map (a.appraised AssetTerms.liquidationThreshold a.params.liquidationThresholdScale)) := by
  rw [health_eq_ok]
  constructor
  · rintro ⟨lines, hlines, rfl⟩
    obtain ⟨assets, hassets, happraisable, rfl⟩ := (lines_eq_ok_iff hscale).mp hlines
    exact ⟨assets, hassets, happraisable, rfl⟩
  · rintro ⟨assets, hassets, happraisable, rfl⟩
    exact ⟨_, (lines_eq_ok_iff hscale).mpr ⟨assets, hassets, happraisable, rfl⟩, rfl⟩

theorem appraisable_of_health (hscale : a.params.liquidationThresholdScale ≠ 0) (h : a.health = .ok health) :
    ∀ key ∈ a.source.keys, a.Appraisable key := by
  obtain ⟨assets, hassets, happraisable, -⟩ := (health_eq_ok_iff hscale).mp h
  rwa [← (AssetSource.assets?_inv hassets).1, List.forall_mem_map]

theorem exists_health_iff (hscale : a.params.liquidationThresholdScale ≠ 0) (numbered : a.source.Numbered) :
    (∃ health, a.health = .ok health) ↔ ∀ key ∈ a.source.keys, a.Appraisable key := by
  constructor
  · rintro ⟨health, hhealth⟩
    exact appraisable_of_health hscale hhealth
  · intro happraisable
    obtain ⟨assets, hassets⟩ := numbered.exists_assets
    rw [← (AssetSource.assets?_inv hassets).1, List.forall_mem_map] at happraisable
    exact ⟨_, (health_eq_ok_iff hscale).mpr ⟨assets, hassets, happraisable, rfl⟩⟩

theorem totals_of_health (hscale : a.params.liquidationThresholdScale ≠ 0) (h : a.health = .ok health) :
    health.totalSupply = (a.source.keys.map a.suppliedWorth).sum ∧
      health.totalDebt = (a.source.keys.map a.owedWorth).sum ∧
      health.totalLimit = (a.source.keys.map
        (a.allowance AssetTerms.liquidationThreshold a.params.liquidationThresholdScale)).sum := by
  obtain ⟨assets, hassets, -, rfl⟩ := (health_eq_ok_iff hscale).mp h
  rw [← (AssetSource.assets?_inv hassets).1]
  exact ⟨total_appraised (supplyWorth_appraised a _ _) assets, total_appraised (debtWorth_appraised a _ _) assets,
    total_appraised (limit_appraised a _ _) assets⟩

theorem summarizes_of_health (hscale : a.params.liquidationThresholdScale ≠ 0) (numbered : a.source.Numbered)
    (h : a.health = .ok health) : a.Summarizes health := by
  obtain ⟨hsupply, hdebt, hlimit⟩ := totals_of_health hscale h
  obtain ⟨assets, hassets, -, rfl⟩ := (health_eq_ok_iff hscale).mp h
  have hkeys := (AssetSource.assets?_inv hassets).1
  have hnumbers := numbered.number_of_mem hassets
  exact {
    supply := hsupply
    debt := hdebt
    limit := hlimit
    collateral := hkeys ▸ leads_greatest hnumbers (collateral?_appraised a _ _)
    loan := hkeys ▸ leads_greatest hnumbers (loan?_appraised a _ _) }

end Whole

/-! ### Sources that list the same assets -/

section Reordered
variable {a : Assessment} {source : AssetSource} {weight : AssetTerms → Int} {scale : Int} {key : Text}

/-- The assessment of the position against another source. -/
def against (a : Assessment) (source : AssetSource) : Assessment := { a with source }

section
variable (same : a.source.SameAssets source) (hkey : key ∈ a.source.keys)
include same hkey

theorem balanceAt_against : (a.against source).balanceAt key = a.balanceAt key := by
  show ((source.state key).map _).getD 0 = _
  rw [same.state key hkey]
  rfl

theorem worthOf_against (amount : Int) : (a.against source).worthOf key amount = a.worthOf key amount := by
  show (match a.prices key, source.terms key with
    | some price, some terms => scaled amount price terms.unitScale
    | _, _ => 0) = _
  rw [same.terms key hkey]
  rfl

theorem suppliedWorth_against : (a.against source).suppliedWorth key = a.suppliedWorth key := by
  rw [suppliedWorth, suppliedWorth, balanceAt_against same hkey, worthOf_against same hkey]

theorem owedWorth_against : (a.against source).owedWorth key = a.owedWorth key := by
  rw [owedWorth, owedWorth, balanceAt_against same hkey, worthOf_against same hkey]

theorem allowance_against : (a.against source).allowance weight scale key = a.allowance weight scale key := by
  rw [allowance, allowance, suppliedWorth_against same hkey]
  exact congrArg (fun terms => (Option.map _ terms).getD 0) (same.terms key hkey)

theorem appraisable_against (h : a.Appraisable key) : (a.against source).Appraisable key where
  decoded := fun hprincipal => by
    obtain ⟨hterms, hstate⟩ := h.decoded hprincipal
    exact ⟨(same.terms key hkey).symm ▸ hterms, (same.state key hkey).symm ▸ hstate⟩
  priced := fun hbalance => h.priced (balanceAt_against same hkey ▸ hbalance)

end

theorem sum_against (same : a.source.SameAssets source) {worth worth' : Text → Int}
    (h : ∀ key ∈ a.source.keys, worth' key = worth key) :
    (source.keys.map worth').sum = (a.source.keys.map worth).sum := by
  rw [(same.keys.map worth').symm.sum_eq, List.map_congr_left h]

/-- Against a source that lists the same assets the snapshot is the same but for the assets that it names, and these
    are the same too where the greatest worth is that of one asset only. -/
theorem health_against (scale : a.params.liquidationThresholdScale ≠ 0) (numbered : a.source.Numbered)
    (same : a.source.SameAssets source) {health : HealthSnapshot} (h : a.health = .ok health) :
    ∃ health', (a.against source).health = .ok health' ∧ health.SameTotals health' ∧
      (AttainedOnce a.suppliedWorth a.source.keys health.greatestCollateralValue →
        health'.greatestCollateralAsset = health.greatestCollateralAsset) ∧
      (AttainedOnce a.owedWorth a.source.keys health.greatestLoanValue →
        health'.greatestLoanAsset = health.greatestLoanAsset) := by
  have happraisable := (exists_health_iff scale numbered).mp ⟨health, h⟩
  obtain ⟨health', h'⟩ := (exists_health_iff (a := a.against source) scale (same.numbered numbered)).mpr fun key hkey =>
    have hlisted := same.keys.mem_iff.mpr hkey
    appraisable_against same hlisted (happraisable key hlisted)
  have hsummary := summarizes_of_health scale numbered h
  have hsummary' := summarizes_of_health (a := a.against source) scale (same.numbered numbered) h'
  have hmem := fun key => same.keys.mem_iff (a := key)
  have hcollateral := hsummary.collateral.unique (hsummary'.collateral.congr fun key hkey =>
    (suppliedWorth_against same ((hmem key).mpr hkey)).symm) hmem
  have hloan := hsummary.loan.unique (hsummary'.loan.congr fun key hkey =>
    (owedWorth_against same ((hmem key).mpr hkey)).symm) hmem
  refine ⟨health', h', ?_, fun once => (hcollateral.2 once).symm, fun once => (hloan.2 once).symm⟩
  exact {
    supply := by
      rw [hsummary.supply, hsummary'.supply]
      exact sum_against same fun key => suppliedWorth_against same
    debt := by
      rw [hsummary.debt, hsummary'.debt]
      exact sum_against same fun key => owedWorth_against same
    limit := by
      rw [hsummary.limit, hsummary'.limit]
      exact sum_against same fun key => allowance_against same
    collateral := hcollateral.1.symm
    loan := hloan.1.symm }

end Reordered

end Assessment

/-- An assessment gives a snapshot exactly if every listed asset can be appraised. The snapshot is what the assets are
    worth in total, with the first supply and the first debt of the greatest worth, and the order in which a source lists
    them decides nothing else. -/
theorem health_appraised (a : Assessment) (scale : a.params.liquidationThresholdScale ≠ 0)
    (numbered : a.source.Numbered) :
    ((∃ health, a.health = .ok health) ↔ ∀ key ∈ a.source.keys, a.Appraisable key) ∧
      ∀ health, a.health = .ok health → a.Summarizes health ∧
        ∀ source, a.source.SameAssets source →
          ∃ health', (a.against source).health = .ok health' ∧ health.SameTotals health' ∧
            (AttainedOnce a.suppliedWorth a.source.keys health.greatestCollateralValue →
              health'.greatestCollateralAsset = health.greatestCollateralAsset) ∧
            (AttainedOnce a.owedWorth a.source.keys health.greatestLoanValue →
              health'.greatestLoanAsset = health.greatestLoanAsset) :=
  ⟨Assessment.exists_health_iff scale numbered, fun _ hhealth =>
    ⟨Assessment.summarizes_of_health scale numbered hhealth, fun _ same =>
      Assessment.health_against scale numbered same hhealth⟩⟩

def overdrawnPosition : Position := { principals := .ofList [("1", 500000000007), ("2", -1350000003)] }

def overdrawnHealth : HealthSnapshot where
  totalSupply := 1653150000547
  totalDebt := 1485000013395
  totalLimit := 1405177500464
  greatestCollateralAsset := some 1
  greatestCollateralValue := 1653150000547
  greatestLoanAsset := some 2
  greatestLoanValue := 1485000013395

/-- A supply and a debt, which come to the same if the debt is listed first. -/
theorem health_appraised_overdrawn :
    let a := leveragedStore.assess overdrawnPosition leveragedPrices.get?
    let swapped := { a.source with keys := ["2", "1"] }
    a.params.liquidationThresholdScale ≠ 0 ∧ a.source.Numbered ∧ a.health = .ok overdrawnHealth ∧
      a.Summarizes overdrawnHealth ∧
      ∃ health, (a.against swapped).health = .ok health ∧ overdrawnHealth.SameTotals health := by
  intro a swapped
  have hkeys : a.source.keys = [Text.ofString "1", Text.ofString "2"] := by decide +kernel
  have numbered : a.source.Numbered := by
    intro key hkey
    rw [hkeys] at hkey
    rcases List.mem_pair.mp hkey with rfl | rfl
    · exact ⟨1, by decide +kernel⟩
    · exact ⟨2, by decide +kernel⟩
  have same : a.source.SameAssets swapped :=
    { keys := hkeys ▸ List.Perm.swap _ _ [], terms := fun _ _ => rfl, state := fun _ _ => rfl }
  have hhealth : a.health = .ok overdrawnHealth := by decide +kernel
  obtain ⟨hsummary, hreordered⟩ := (health_appraised a (by decide) numbered).2 overdrawnHealth hhealth
  obtain ⟨health, hswapped, htotals, -⟩ := hreordered swapped same
  exact ⟨by decide, numbered, hhealth, hsummary, health, hswapped, htotals⟩

end Solvency
