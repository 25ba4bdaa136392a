import Solvency.Asset.Record
import Solvency.Proofs.Interest
import Solvency.Proofs.Readers

/-! Asset records: which cells are read as records, and as which. A cell is read by what its tokens start with, field by
    field, so that a record whose fields fit their widths is read back from the cell that it is written to. -/

namespace Solvency

/-! ### Fields -/

/-- The fields can be stored in their widths. -/
def FieldsFit (fields : List (Int × Nat)) : Prop :=
  ∀ field : Int × Nat, field ∈ fields → 0 ≤ field.1 ∧ field.1 < Nat.pow 2 field.2

instance (fields : List (Int × Nat)) : Decidable (FieldsFit fields) :=
  List.decidableBAll (fun field : Int × Nat => 0 ≤ field.1 ∧ field.1 < Nat.pow 2 field.2) fields

theorem writeFields_of_fit {b : CellBuilder} {fields : List (Int × Nat)} (fit : FieldsFit fields) :
    writeFields b fields = .ok { b with tokens := b.tokens ++ Token.uints fields } := by
  induction fields generalizing b with
  | nil => simp [writeFields, Token.uints]
  | cons field fields ih =>
    obtain ⟨hfield, hfields⟩ := List.forall_mem_cons.mp fit
    have huint : b.uint field.1 field.2 = .ok (b.token (.uint field.2 field.1)) := if_pos hfield
    rw [writeFields, huint]
    show writeFields (b.token (.uint field.2 field.1)) fields = _
    rw [ih hfields]
    simp [CellBuilder.token, Token.uints]

/-- A cell starts with unsigned integers of some widths; what stands behind them does not matter. -/
def Cell.StartsWith (cell : Cell) (widths : List Nat) (values : List Int) : Prop :=
  values.length = widths.length ∧ Token.uints (values.zip widths) <+: cell.tokens

theorem parse_uints_eq_ok {cell : Cell} {widths : List Nat} {values : List Int} :
    cell.parse (widths.mapM CellReader.uint) = .ok values ↔ cell.StartsWith widths values := by
  simp only [Cell.parse_eq_ok, CellReader.run_uints_eq_ok, Cell.slice, Slice.mk.injEq]
  constructor
  · rintro ⟨rest, hlength, htokens, -⟩
    exact ⟨hlength, rest.tokens, htokens.symm⟩
  · rintro ⟨hlength, more, htokens⟩
    exact ⟨⟨more, cell.refs⟩, hlength, htokens.symm, rfl⟩

/-- Fields in front of a reference, and what is read of the cell behind it. -/
theorem parse_head_eq_ok {α : Type} {cell : Cell} {widths : List Nat} {inner : List Int → CellReader α} {a : α} :
    cell.parse (do
      let head ← widths.mapM CellReader.uint
      let tail ← CellReader.ref
      tail.parse (inner head)) = .ok a ↔
    ∃ head tail, cell.StartsWith widths head ∧ cell.refs.head? = some tail ∧ tail.parse (inner head) = .ok a := by
  rw [Cell.parse_eq_ok]
  simp only [CellReader.run_bind_eq_ok, CellReader.run_uints_eq_ok, CellReader.run_ref_eq_ok,
    CellReader.run_lift_eq_ok, Cell.slice, Slice.mk.injEq]
  constructor
  · rintro ⟨_, head, _, ⟨hlength, htokens, hrefs⟩, tail, _, rfl, ha, -⟩
    exact ⟨head, tail, ⟨hlength, _, htokens.symm⟩, by rw [hrefs]; rfl, ha⟩
  · rintro ⟨head, tail, ⟨hlength, more, htokens⟩, hrefs, ha⟩
    obtain ⟨refs, hrefs⟩ := List.head?_eq_some_iff.mp hrefs
    exact ⟨_, head, ⟨more, cell.refs⟩, ⟨hlength, htokens.symm, rfl⟩, tail, ⟨more, refs⟩, by rw [hrefs]; rfl, ha, rfl⟩

/-! ### What is made of what a reader finds -/

theorem Cell.map_parse {α β : Type} (cell : Cell) (reader : CellReader α) (f : α → β) :
    f <$> cell.parse reader = cell.parse (f <$> reader) := by
  unfold Cell.parse
  rw [StateT.run_map]
  cases reader.run cell.slice <;> rfl

theorem CellReader.map_lift {α β : Type} (x : Except CellError α) (f : α → β) :
    f <$> (liftM x : CellReader α) = liftM (f <$> x) := by
  cases x <;> rfl

theorem Cell.parse_map_eq_ok {α β : Type} {cell : Cell} {reader : CellReader α} {f : α → β} {b : β} :
    cell.parse (f <$> reader) = .ok b ↔ ∃ a, cell.parse reader = .ok a ∧ f a = b := by
  rw [← Cell.map_parse, map_eq_ok]

/-- How the records of a kind are stored: what is written of a record that fits is read as that record, a cell is read
    as the record that it stores, and it is refused exactly if it has not the shape of one. -/
structure DecodesExactly {α : Type} (reader : CellReader α) (write : α → Except CellError Cell) (Fits : α → Prop)
    (Stores : Cell → α → Prop) (Shaped : Cell → Prop) : Prop where
  written : ∀ record, Fits record → ∃ cell, write record = .ok cell ∧ cell.parse reader = .ok record
  read_iff : ∀ cell record, cell.parse reader = .ok record ↔ Stores cell record
  refused_iff : ∀ cell, (∃ e, cell.parse reader = .error e) ↔ ¬Shaped cell

theorem exists_parse_error_iff {α : Type} {cell : Cell} {reader : CellReader α} :
    (∃ e, cell.parse reader = .error e) ↔ ¬∃ a, cell.parse reader = .ok a := by
  cases cell.parse reader <;> simp

/-! ### Terms -/

namespace AssetTerms

theorem exists_fields {values : List Int} (h : values.length = 19) : ∃ terms : AssetTerms, terms.fields = values := by
  match values, h with
  | [a, b, c, d, e, f, g, i, j, k, l, m, n, o, p, q, r, s, t], _ =>
    exact ⟨⟨a, b, c, d, e, f, g, i, j, k, l, m, n, o, p, q, r, s, t⟩, rfl⟩

theorem fields_injective {terms terms' : AssetTerms} (h : terms.fields = terms'.fields) : terms = terms' :=
  Option.some.inj ((ofFields?_fields terms).symm.trans ((congrArg ofFields? h).trans (ofFields?_fields terms')))

/-- The terms are read field by field, in the order of their record. -/
theorem fields_reader : fields <$> reader = (do
    let head ← termsHeadWidths.mapM CellReader.uint
    let tail ← CellReader.ref
    tail.parse ((head ++ ·) <$> termsTailWidths.mapM CellReader.uint)) := by
  simp only [reader, termsHeadWidths, termsTailWidths, List.mapM_cons, List.mapM_nil, map_bind, map_pure, bind_assoc,
    pure_bind, CellReader.map_lift, Cell.map_parse, fields, List.cons_append, List.nil_append]

/-- The fields of the terms with their widths. -/
def layout (terms : AssetTerms) : List (Int × Nat) := terms.fields.zip (termsHeadWidths ++ termsTailWidths)

/-- A cell stores terms: it starts with the fields of their head, and the cell behind its first reference with those of
    their tail. -/
def StoredIn (cell : Cell) (terms : AssetTerms) : Prop :=
  cell.StartsWith termsHeadWidths (terms.fields.take 2) ∧
    ∃ tail, cell.refs.head? = some tail ∧ tail.StartsWith termsTailWidths (terms.fields.drop 2)

/-- A cell has the shape of stored terms, whatever the values. -/
def Shaped (cell : Cell) : Prop :=
  (∃ head, cell.StartsWith termsHeadWidths head) ∧
    ∃ tail, cell.refs.head? = some tail ∧ ∃ rest, tail.StartsWith termsTailWidths rest

theorem parse_eq_ok_iff {cell : Cell} {terms : AssetTerms} :
    cell.parse reader = .ok terms ↔ StoredIn cell terms := by
  have hfields : cell.parse reader = .ok terms ↔ cell.parse (fields <$> reader) = .ok terms.fields := by
    rw [Cell.parse_map_eq_ok]
    exact ⟨fun h => ⟨terms, h, rfl⟩, fun ⟨terms', h, hsame⟩ => fields_injective hsame ▸ h⟩
  rw [hfields, fields_reader, parse_head_eq_ok]
  constructor
  · rintro ⟨head, tail, hhead, htail, h⟩
    obtain ⟨rest, hrest, hsame⟩ := Cell.parse_map_eq_ok.mp h
    have hlength : head.length = 2 := hhead.1
    refine ⟨?_, tail, htail, ?_⟩
    · rwa [← hsame, ← hlength, List.take_left]
    · rw [← hsame, ← hlength, List.drop_left]
      exact parse_uints_eq_ok.mp hrest
  · rintro ⟨hhead, tail, htail, hrest⟩
    exact ⟨_, tail, hhead, htail, Cell.parse_map_eq_ok.mpr ⟨_, parse_uints_eq_ok.mpr hrest, List.take_append_drop 2 _⟩⟩

theorem exists_storedIn_iff {cell : Cell} : (∃ terms, StoredIn cell terms) ↔ Shaped cell := by
  constructor
  · rintro ⟨terms, hhead, tail, htail, hrest⟩
    exact ⟨⟨_, hhead⟩, tail, htail, _, hrest⟩
  · rintro ⟨⟨head, hhead⟩, tail, htail, rest, hrest⟩
    have hlength : head.length = 2 := hhead.1
    have hlength' : rest.length = 17 := hrest.1
    have hfields : (head ++ rest).length = 19 := by rw [List.length_append, hlength, hlength']
    obtain ⟨terms, hterms⟩ := exists_fields hfields
    refine ⟨terms, ?_, tail, htail, ?_⟩
    · rwa [hterms, ← hlength, List.take_left]
    · rwa [hterms, ← hlength, List.drop_left]

theorem toCell_of_fit {terms : AssetTerms} (fit : FieldsFit terms.layout) :
    ∃ cell, terms.toCell = .ok cell ∧ StoredIn cell terms := by
  have hlayout : terms.layout =
      (terms.fields.take 2).zip termsHeadWidths ++ (terms.fields.drop 2).zip termsTailWidths := rfl
  obtain ⟨hhead, htail⟩ := List.forall_mem_append.mp (hlayout ▸ fit)
  refine ⟨_, bind_eq_ok.mpr ⟨_, writeFields_of_fit htail, bind_eq_ok.mpr ⟨_, writeFields_of_fit hhead, rfl⟩⟩, ?_⟩
  exact ⟨⟨rfl, List.prefix_rfl⟩, _, rfl, rfl, List.prefix_rfl⟩

end AssetTerms

/-! ### States -/

namespace AssetState

theorem exists_fields {values : List Int} (h : values.length = 9) : ∃ state : AssetState, state.fields = values := by
  match values, h with
  | [a, b, c, d, e, f, g, h, i], _ => exact ⟨⟨a, b, c, d, e, f, g, h, i⟩, rfl⟩

theorem fields_injective {state state' : AssetState} (h : state.fields = state'.fields) : state = state' :=
  Option.some.inj ((ofFields?_fields state).symm.trans ((congrArg ofFields? h).trans (ofFields?_fields state')))

theorem fields_reader : fields <$> reader = stateWidths.mapM CellReader.uint := by
  simp only [reader, stateWidths, List.mapM_cons, List.mapM_nil, map_bind, map_pure, bind_assoc, pure_bind, fields]

/-- The fields of a state with their widths. -/
def layout (state : AssetState) : List (Int × Nat) := state.fields.zip stateWidths

theorem parse_eq_ok_iff {cell : Cell} {state : AssetState} :
    cell.parse reader = .ok state ↔ cell.StartsWith stateWidths state.fields := by
  rw [← parse_uints_eq_ok, ← fields_reader, Cell.parse_map_eq_ok]
  exact ⟨fun h => ⟨state, h, rfl⟩, fun ⟨state', h, hsame⟩ => fields_injective hsame ▸ h⟩

theorem toCell_of_fit {state : AssetState} (fit : FieldsFit state.layout) :
    ∃ cell, state.toCell = .ok cell ∧ cell.StartsWith stateWidths state.fields :=
  ⟨_, bind_eq_ok.mpr ⟨_, writeFields_of_fit fit, rfl⟩, rfl, List.prefix_rfl⟩

end AssetState

/-- Terms and states are decoded exactly. -/
theorem records_decoded_exactly :
    DecodesExactly AssetTerms.reader AssetTerms.toCell (fun terms => FieldsFit terms.layout) AssetTerms.StoredIn
        AssetTerms.Shaped ∧
      DecodesExactly AssetState.reader AssetState.toCell (fun state => FieldsFit state.layout)
        (fun cell state => cell.StartsWith stateWidths state.fields)
        fun cell => ∃ values, cell.StartsWith stateWidths values := by
  constructor
  · refine ⟨fun terms fit => ?_, fun _ _ => AssetTerms.parse_eq_ok_iff, fun cell => ?_⟩
    · obtain ⟨cell, hcell, hstored⟩ := AssetTerms.toCell_of_fit fit
      exact ⟨cell, hcell, AssetTerms.parse_eq_ok_iff.mpr hstored⟩
    · simp only [exists_parse_error_iff, AssetTerms.parse_eq_ok_iff, AssetTerms.exists_storedIn_iff]
  · refine ⟨fun state fit => ?_, fun _ _ => AssetState.parse_eq_ok_iff, fun cell => ?_⟩
    · obtain ⟨cell, hcell, hstored⟩ := AssetState.toCell_of_fit fit
      exact ⟨cell, hcell, AssetState.parse_eq_ok_iff.mpr hstored⟩
    · simp only [exists_parse_error_iff, AssetState.parse_eq_ok_iff]
      refine not_congr ⟨fun ⟨state, h⟩ => ⟨_, h⟩, fun ⟨values, h⟩ => ?_⟩
      obtain ⟨state, rfl⟩ := AssetState.exists_fields h.1
      exact ⟨state, h⟩

/-- A state is read whatever stands behind its fields. A head without a reference behind it is refused, although its
    fields fit. -/
theorem records_decoded_exactly_overlent :
    FieldsFit kinkedTerms.layout ∧ FieldsFit overlentState.layout ∧
      (∃ cell, kinkedTerms.toCell = .ok cell ∧ cell.parse AssetTerms.reader = .ok kinkedTerms) ∧
      (∀ more refs, (Cell.ofParts (Token.uints overlentState.layout ++ more) refs).parse AssetState.reader =
        .ok overlentState) ∧
      ∃ e, (Cell.ofParts (Token.uints (kinkedTerms.layout.take 2)) []).parse AssetTerms.reader = .error e := by
  obtain ⟨terms, states⟩ := records_decoded_exactly
  have hterms : FieldsFit kinkedTerms.layout := by decide
  refine ⟨hterms, by decide, terms.written _ hterms, fun more refs => ?_, ?_⟩
  · exact (states.read_iff _ _).mpr ⟨rfl, more, rfl⟩
  · refine (terms.refused_iff _).mpr ?_
    rintro ⟨-, tail, htail, -⟩
    cases htail

end Solvency
