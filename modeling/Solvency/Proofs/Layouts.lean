import Solvency.Deployment.Loader
import Solvency.Proofs.Substitutions

/-! Layouts: which values a configuration holds and what each is read as. Values are read in the order of the layout,
    and reading the settings of a deployment fails with the refusal of the first value that is refused. What is read are
    the values whose references are replaced; which shape a value has is said of it as it is written. -/

namespace Solvency

/-- An error about a value that cannot be used, which loading is documented to fail with. -/
def LoadError.Documented : LoadError → Prop
  | .assignment _ | .unresolved (.name _) | .unknownPreset _ | .integer .malformed | .tooLong | .invalid _ => True
  | .file .malformed | .file .tooLarge => False
  | .file _ => True
  | .missing _ | .unresolved .tooDeep | .notMap | .withoutParts | .compoundPreset | .integer _ => False

/-- A number is an integer: cutting it toward zero takes nothing away. -/
def Binary64.IsWhole : Binary64 → Prop
  | .finite _ _ (.ofNat _) => True
  | .finite _ significand (.negSucc k) => Nat.pow 2 (k + 1) ∣ significand
  | .infinite _ | .nan => False

/-- What a document is read as. -/
inductive Layout where
  | preset
  | integer
  | text
  | endpoint
  | record (fields : List (Text × Layout))
  | list (item : Layout)

namespace Layout

/-- Why a document names no preset. A vacant one names none, and is not refused. -/
def presetRefusal? (value : Document) : Option LoadError :=
  if value.isVacant then none
  else
    match value with
    | .scalar name =>
      if (Deployment.preset? name.display).isSome then none
      else if name.hasDisplay then some (.unknownPreset name.display)
      else some .tooLong
    | _ => some .compoundPreset

mutual
/-- Why a document cannot be read: the refusal of the first of its values that is refused. -/
def refusal? : Layout → Document → Option LoadError
  | .preset, value => presetRefusal? value
  | .integer, value =>
    match value.toInteger with
    | .ok _ => none
    | .error cause => some (.integer cause)
  | .text, value => if value.hasDisplay then none else some .tooLong
  | .endpoint, _ => none
  | .record fields, .map entries => fieldsRefusal? fields entries
  | .record _, _ => some .notMap
  | .list item, value =>
    match value.parts with
    | .ok parts => parts.findSome? (refusal? item)
    | .error e => some e
/-- Why the fields of a record cannot be read of settings; a field that is not set is not refused. -/
def fieldsRefusal? : List (Text × Layout) → Settings → Option LoadError
  | [], _ => none
  | (name, layout) :: rest, s => ((Document.lookup name s).bind (refusal? layout)).or (fieldsRefusal? rest s)
end

/-- A document has the shape of what it is read as, as have the values in it. Only a reference stands for something else
    than a text: what takes its place is a text, and it may be that of an integer. -/
inductive Fits : Layout → Document → Prop
  | noPreset : Fits .preset .null
  | preset (name : Text) : Fits .preset (.ofText name)
  | integer (value : Int) : Fits .integer (.scalar (.integer value))
  | float {value : Binary64} (whole : value.IsWhole) : Fits .integer (.scalar (.float value))
  | reference {value : Text} (refers : Text.HasReference value) : Fits .integer (.ofText value)
  | text (value : Text) : Fits .text (.ofText value)
  | endpoint (value : Text) : Fits .endpoint (.ofText value)
  | record {fields : List (Text × Layout)} {entries : Settings}
      (each : ∀ field ∈ fields, ∀ value, Document.lookup field.1 entries = some value → Fits field.2 value) :
      Fits (.record fields) (.map entries)
  | list {item : Layout} {items : List Document} (each : ∀ value ∈ items, Fits item value) :
      Fits (.list item) (.list items)

/-- A document is read as something that it is not: a value is taken for another one, or for parts of it. -/
inductive Misread : Layout → Document → Prop
  | preset {value : Document} (unnamed : ∀ name, value ≠ .ofText name) (given : value ≠ .null) : Misread .preset value
  | truth (value : Bool) : Misread .integer (.scalar (.bool value))
  | fraction {value : Binary64} (h : ¬value.IsWhole) : Misread .integer (.scalar (.float value))
  | numeral {value : Text} (plain : ¬Text.HasReference value) : Misread .integer (.ofText value)
  | text {value : Document} (h : ∀ text, value ≠ .ofText text) : Misread .text value
  | endpoint {value : Document} (h : ∀ text, value ≠ .ofText text) : Misread .endpoint value
  | field {fields : List (Text × Layout)} {entries : Settings} {field : Text × Layout} {value : Document}
      (hfield : field ∈ fields) (hvalue : Document.lookup field.1 entries = some value) (h : Misread field.2 value) :
      Misread (.record fields) (.map entries)
  | item {item : Layout} {items : List Document} {value : Document} (hvalue : value ∈ items) (h : Misread item value) :
      Misread (.list item) (.list items)
  | characters (item : Layout) (text : Text) : Misread (.list item) (.ofText text)
  | keys (item : Layout) (entries : Settings) : Misread (.list item) (.map entries)

theorem inductionOn {P : Layout → Prop} (layout : Layout) (preset : P .preset) (integer : P .integer) (text : P .text)
    (endpoint : P .endpoint) (record : ∀ fields, (∀ field ∈ fields, P field.2) → P (.record fields))
    (list : ∀ item, P item → P (.list item)) : P layout :=
  @Layout.rec P (fun fields => ∀ field ∈ fields, P field.2) (fun field => P field.2) preset integer text endpoint record
    list (List.forall_mem_nil _) (fun _ _ h hs => List.forall_mem_cons.mpr ⟨h, hs⟩) (fun _ _ h => h) layout

def oracle : List (Text × Layout) := [("id", .integer), ("address", .text)]

def asset : List (Text × Layout) := [("name", .text), ("decimals", .integer)]

def feed : List (Text × Layout) :=
  [("endpoints", .list .endpoint), ("oracles", .list (.record oracle)), ("minimal_oracles", .integer),
    ("ttl_seconds", .integer), ("request_timeout", .integer)]

/-- What the settings of a deployment are read as, in the order in which they are read. -/
def deployment : List (Text × Layout) :=
  [("preset", .preset), ("master", .record [("address", .text), ("version", .integer)]),
    ("params", .record (({} : MasterParams).fields.map fun field => (field.1, .integer))),
    ("price_feed", .record feed), ("assets", .list (.record asset))]

/-! ### Refusals -/

theorem fieldsRefusal_eq_none {fields : List (Text × Layout)} {s : Settings} : fieldsRefusal? fields s = none ↔
    ∀ field ∈ fields, ∀ value, Document.lookup field.1 s = some value → refusal? field.2 value = none := by
  induction fields with
  | nil => simp [fieldsRefusal?]
  | cons field fields ih =>
    rw [fieldsRefusal?, Option.or_eq_none_iff, ih, List.forall_mem_cons]
    cases Document.lookup field.1 s <;> simp

theorem fieldsRefusal_eq_some {fields : List (Text × Layout)} {s : Settings} {e : LoadError}
    (h : fieldsRefusal? fields s = some e) :
    ∃ field ∈ fields, ∃ value, Document.lookup field.1 s = some value ∧ refusal? field.2 value = some e := by
  induction fields with
  | nil => cases h
  | cons field fields ih =>
    rw [fieldsRefusal?, Option.or_eq_some_iff] at h
    rcases h with h | ⟨-, h⟩
    · obtain ⟨value, hvalue, h⟩ := Option.bind_eq_some_iff.mp h
      exact ⟨field, List.mem_cons_self, value, hvalue, h⟩
    · obtain ⟨other, hother, h⟩ := ih h
      exact ⟨other, List.mem_cons_of_mem field hother, h⟩

theorem documented_of_presetRefusal {name : Scalar} {e : LoadError} (h : presetRefusal? (.scalar name) = some e) :
    e.Documented := by
  unfold presetRefusal? at h
  dsimp only at h
  split_ifs at h <;> (obtain rfl := Option.some.inj h; trivial)

theorem documented_of_integerRefusal {value : Document} {e : LoadError} (h : refusal? .integer value = some e)
    (malformed : ∀ cause, value.toInteger = .error cause → cause = .malformed) : e.Documented := by
  rw [refusal?] at h
  split at h
  · cases h
  · rename_i cause hcause
    obtain rfl := malformed cause hcause
    obtain rfl := Option.some.inj h
    trivial

theorem documented_of_textRefusal {value : Document} {e : LoadError} (h : refusal? .text value = some e) :
    e.Documented := by
  rw [refusal?] at h
  split at h
  · cases h
  · obtain rfl := Option.some.inj h
    trivial

theorem exists_truncate_of_isWhole {value : Binary64} (whole : value.IsWhole) :
    ∃ n, Document.toInteger (.scalar (.float value)) = .ok n := by
  cases value with
  | finite negative m k => cases k <;> exact ⟨_, rfl⟩
  | infinite negative => cases whole
  | nan => cases whole

section
variable {env : Environment} {layout : Layout} {value : Document}

/-- A document of the right shape is refused as documented, if it is refused. -/
theorem Fits.documented (fits : layout.Fits value) {e : LoadError}
    (h : layout.refusal? (env.substitute value) = some e) : e.Documented := by
  induction fits generalizing e with
  | noPreset => exact documented_of_presetRefusal h
  | preset name => exact documented_of_presetRefusal h
  | integer value => exact documented_of_integerRefusal h fun cause hcause => by cases hcause
  | float whole =>
    obtain ⟨n, hn⟩ := exists_truncate_of_isWhole whole
    exact documented_of_integerRefusal h fun cause hcause => by cases hn.symm.trans hcause
  | reference refers =>
    rw [Environment.substitute_ofText] at h
    refine documented_of_integerRefusal h fun cause hcause => ?_
    simp only [Document.ofText, Document.toInteger, Scalar.toInteger] at hcause
    split at hcause
    · cases hcause
    · exact (Except.error.inj hcause).symm
  | text value => exact documented_of_textRefusal h
  | endpoint value => cases h
  | record each ih =>
    rw [Environment.substitute] at h
    obtain ⟨field, hfield, _, hlookup, h⟩ := fieldsRefusal_eq_some h
    obtain ⟨value, hvalue, rfl⟩ := Environment.exists_of_lookup hlookup
    exact ih field hfield value hvalue h
  | list each ih =>
    rw [Environment.substitute_list] at h
    obtain ⟨_, hmem, h⟩ := List.exists_of_findSome?_eq_some h
    obtain ⟨item, hitem, rfl⟩ := List.mem_map.mp hmem
    exact ih item hitem h

theorem Misread.not_fits (misread : layout.Misread value) : ¬layout.Fits value := by
  intro fits
  induction misread with
  | preset unnamed given =>
    cases fits with
    | noPreset => exact given rfl
    | preset name => exact unnamed name rfl
  | fraction h =>
    cases fits with
    | float whole => exact h whole
  | numeral plain =>
    cases fits with
    | reference refers => exact plain refers
  | text h =>
    cases fits with
    | text value => exact h value rfl
  | endpoint h =>
    cases fits with
    | endpoint value => exact h value rfl
  | field hfield hvalue _ ih =>
    cases fits with
    | record each => exact ih (each _ hfield _ hvalue)
  | item hvalue _ ih =>
    cases fits with
    | list each => exact ih (each _ hvalue)
  | _ => cases fits

theorem ofText_or_forall_ne (value : Document) : (∃ text, value = .ofText text) ∨ ∀ text, value ≠ .ofText text :=
  (em _).imp_right not_exists.mp

theorem integer_fits_or_misread (h : refusal? .integer (env.substitute value) = none) :
    Fits .integer value ∨ Misread .integer value := by
  cases value with
  | scalar value =>
    cases value with
    | bool value => exact Or.inr (.truth value)
    | integer value => exact Or.inl (.integer value)
    | float value => exact (em value.IsWhole).imp .float .fraction
    | text value => exact (em (Text.HasReference value)).imp .reference .numeral
    | _ => cases h
  | list items => cases h
  | map entries => cases h

theorem record_fits_or_misread {fields : List (Text × Layout)}
    (fieldwise : ∀ field ∈ fields, ∀ {value : Document}, field.2.refusal? (env.substitute value) = none →
      field.2.Fits value ∨ field.2.Misread value)
    (h : refusal? (.record fields) (env.substitute value) = none) :
    Fits (.record fields) value ∨ Misread (.record fields) value := by
  cases value with
  | map entries =>
    rw [Environment.substitute, refusal?, fieldsRefusal_eq_none] at h
    by_cases hmisread :
        ∃ field ∈ fields, ∃ value, Document.lookup field.1 entries = some value ∧ field.2.Misread value
    · obtain ⟨field, hfield, value, hvalue, hmisread⟩ := hmisread
      exact Or.inr (.field hfield hvalue hmisread)
    · refine Or.inl (.record fun field hfield value hvalue => ?_)
      have hread : field.2.refusal? (env.substitute value) = none :=
        h field hfield _ (Environment.lookup_substituteEntries.trans (congrArg _ hvalue))
      exact (fieldwise field hfield hread).resolve_right fun hvalue' => hmisread ⟨field, hfield, value, hvalue, hvalue'⟩
  | scalar value => cases h
  | list items => cases h

theorem list_fits_or_misread {item : Layout}
    (itemwise : ∀ {value : Document}, item.refusal? (env.substitute value) = none → item.Fits value ∨ item.Misread value)
    (h : refusal? (.list item) (env.substitute value) = none) : Fits (.list item) value ∨ Misread (.list item) value := by
  cases value with
  | list items =>
    rw [Environment.substitute_list] at h
    have hitems : ∀ value ∈ items, item.refusal? (env.substitute value) = none :=
      List.forall_mem_map.mp (List.findSome?_eq_none_iff.mp h)
    by_cases hmisread : ∃ value ∈ items, item.Misread value
    · obtain ⟨value, hvalue, hmisread⟩ := hmisread
      exact Or.inr (.item hvalue hmisread)
    · refine Or.inl (.list fun value hvalue => ?_)
      exact (itemwise (hitems value hvalue)).resolve_right fun h => hmisread ⟨value, hvalue, h⟩
  | map entries => exact Or.inr (.keys item entries)
  | scalar value =>
    cases value with
    | text text => exact Or.inr (.characters item text)
    | _ => cases h

/-- What is not refused has the right shape or is misread. -/
theorem fits_or_misread (h : layout.refusal? (env.substitute value) = none) :
    layout.Fits value ∨ layout.Misread value := by
  induction layout using inductionOn generalizing value with
  | preset =>
    by_cases hnull : value = .null
    · exact Or.inl (hnull ▸ .noPreset)
    · rcases ofText_or_forall_ne value with ⟨name, rfl⟩ | unnamed
      · exact Or.inl (.preset name)
      · exact Or.inr (.preset unnamed hnull)
  | integer => exact integer_fits_or_misread h
  | text =>
    rcases ofText_or_forall_ne value with ⟨text, rfl⟩ | hvalue
    · exact Or.inl (.text text)
    · exact Or.inr (.text hvalue)
  | endpoint =>
    rcases ofText_or_forall_ne value with ⟨text, rfl⟩ | hvalue
    · exact Or.inl (.endpoint text)
    · exact Or.inr (.endpoint hvalue)
  | record fields ih => exact record_fits_or_misread (fun field hfield => ih field hfield) h
  | list item ih => exact list_fits_or_misread ih h

end

end Layout

/-! ### Steps and the values they read -/

section
variable {α β : Type}

/-- What a step is refused for. -/
def refusalOf : Except LoadError α → Option LoadError
  | .ok _ => none
  | .error e => some e

theorem refusalOf_eq_some {x : Except LoadError α} {e : LoadError} : refusalOf x = some e ↔ x = .error e := by
  cases x <;> simp [refusalOf]

/-- The second step is refused only if the first one is not. -/
theorem refusalOf_bind {x : Except LoadError α} {f : α → Except LoadError β} {later : Option LoadError}
    (h : ∀ a, x = .ok a → refusalOf (f a) = later) : refusalOf (x >>= f) = (refusalOf x).or later := by
  cases x with
  | error e => rfl
  | ok a => exact h a rfl

theorem refusalOf_mapM {f : α → Except LoadError β} {xs : List α} :
    refusalOf (xs.mapM f) = xs.findSome? fun x => refusalOf (f x) := by
  induction xs with
  | nil => rfl
  | cons x xs ih =>
    have hrest : ∀ y, refusalOf (xs.mapM f >>= fun ys => pure (y :: ys)) = xs.findSome? fun x => refusalOf (f x) := by
      intro y
      refine (refusalOf_bind fun ys _ => (rfl : refusalOf (pure (y :: ys)) = none)).trans ?_
      rw [ih, Option.or_none]
    rw [List.mapM_cons, refusalOf_bind fun y _ => hrest y, List.findSome?_cons]
    cases refusalOf (f x) <;> rfl

end

namespace Settings
open Layout
variable {s : Settings} {name : Text}

theorem refusalOf_text {base : Text} :
    refusalOf (s.text name base) = (Document.lookup name s).bind (refusal? .text) := by
  unfold text
  cases Document.lookup name s with
  | none => rfl
  | some value =>
    simp only [Option.bind_some, refusal?]
    split <;> rfl

theorem refusalOf_integer {base : Int} :
    refusalOf (s.integer name base) = (Document.lookup name s).bind (refusal? .integer) := by
  unfold integer
  cases Document.lookup name s with
  | none => rfl
  | some value =>
    simp only [Option.bind_some, refusal?]
    cases value.toInteger <;> rfl

theorem refusalOf_preset : refusalOf s.preset = (Document.lookup "preset" s).bind (refusal? .preset) := by
  unfold preset
  cases Document.lookup "preset" s with
  | none => rfl
  | some value =>
    simp only [Option.bind_some, refusal?, presetRefusal?]
    split
    · rfl
    · cases value with
      | scalar name =>
        cases hpreset : Deployment.preset? name.display with
        | some preset => simp [hpreset, refusalOf]
        | none => by_cases hdisplay : name.hasDisplay <;> simp [hpreset, hdisplay, refusalOf]
      | list items => rfl
      | map entries => rfl

theorem fieldsRefusal_nil (fields : List (Text × Layout)) : fieldsRefusal? fields [] = none := by
  induction fields with
  | nil => rfl
  | cons field fields ih =>
    rw [fieldsRefusal?, ih]
    rfl

/-- A section is read before what comes after it. -/
theorem refusalOf_nested {β : Type} {fields : List (Text × Layout)} {f : Settings → Except LoadError β}
    {later : Option LoadError} (h : ∀ nested, refusalOf (f nested) = (fieldsRefusal? fields nested).or later) :
    refusalOf (s.nested name >>= f) = ((Document.lookup name s).bind (refusal? (.record fields))).or later := by
  unfold nested
  cases Document.lookup name s with
  | none =>
    refine (h []).trans ?_
    rw [fieldsRefusal_nil]
    rfl
  | some value =>
    cases value with
    | map entries =>
      refine (h entries).trans ?_
      rw [Option.bind_some, refusal?]
    | scalar value => rfl
    | list items => rfl

theorem refusalOf_each {α : Type} {base : List α} {fields : List (Text × Layout)} {read : Settings → Except LoadError α}
    (h : ∀ part, refusalOf (read part) = fieldsRefusal? fields part) :
    refusalOf (s.each name base read) = (Document.lookup name s).bind (refusal? (.list (.record fields))) := by
  unfold each
  cases Document.lookup name s with
  | none => rfl
  | some value =>
    have hpart : ∀ part : Document, refusalOf (part.settings >>= read) = refusal? (.record fields) part := by
      intro part
      cases part with
      | map entries => exact (h entries).trans (by rw [refusal?])
      | scalar value => rfl
      | list items => rfl
    simp only [Option.bind_some, refusal?]
    cases value.parts with
    | error e => rfl
    | ok parts =>
      refine (refusalOf_mapM (f := fun part : Document => part.settings >>= read)).trans ?_
      simp only [hpart]

/-- A step that reads one field is followed by those that read the rest. -/
theorem refusalOf_field {α β : Type} {x : Except LoadError α} {f : α → Except LoadError β} {layout : Layout}
    {fields : List (Text × Layout)} {later : Option LoadError}
    (hx : refusalOf x = (Document.lookup name s).bind (refusal? layout))
    (h : ∀ a, refusalOf (f a) = (fieldsRefusal? fields s).or later) :
    refusalOf (x >>= f) = (fieldsRefusal? ((name, layout) :: fields) s).or later := by
  rw [fieldsRefusal?, Option.or_assoc, ← hx]
  exact refusalOf_bind fun a _ => h a

theorem refusalOf_pure {α : Type} (a : α) :
    refusalOf (pure a : Except LoadError α) = (fieldsRefusal? [] s).or none := by
  rw [fieldsRefusal?]
  rfl

theorem refusalOf_params :
    refusalOf (MasterParams.readFields s.integer) =
      fieldsRefusal? (({} : MasterParams).fields.map fun field => (field.1, .integer)) s := by
  rw [← Option.or_none (o := fieldsRefusal? _ s)]
  unfold MasterParams.readFields
  simp only [MasterParams.fields, List.map_cons, List.map_nil]
  repeat refine refusalOf_field refusalOf_integer fun _ => ?_
  exact refusalOf_pure _

theorem refusalOf_oracle : refusalOf (OracleSpec.ofSettings s) = fieldsRefusal? oracle s := by
  rw [← Option.or_none (o := fieldsRefusal? _ s)]
  exact refusalOf_field refusalOf_integer fun _ => refusalOf_field refusalOf_text fun _ => refusalOf_pure _

theorem refusalOf_asset : refusalOf (AssetSpec.ofSettings s) = fieldsRefusal? asset s := by
  rw [← Option.or_none (o := fieldsRefusal? _ s)]
  exact refusalOf_field refusalOf_text fun _ => refusalOf_field refusalOf_integer fun _ => refusalOf_pure _

theorem refusalOf_endpoints {β : Type} {base : List Document} {f : List Document → Except LoadError β}
    {fields : List (Text × Layout)} {later : Option LoadError}
    (h : ∀ endpoints, refusalOf (f endpoints) = (fieldsRefusal? fields s).or later) :
    refusalOf (match Document.lookup name s with
      | some value => value.parts >>= f
      | none => pure base >>= f) = (fieldsRefusal? ((name, .list .endpoint) :: fields) s).or later := by
  rw [fieldsRefusal?, Option.or_assoc]
  cases Document.lookup name s with
  | none => exact h base
  | some value =>
    have hparts : refusal? (.list .endpoint) value = refusalOf value.parts := by
      rw [refusal?]
      cases value.parts with
      | error e => rfl
      | ok parts => exact List.findSome?_eq_none_iff.mpr fun part _ => rfl
    rw [Option.bind_some, hparts]
    exact refusalOf_bind fun endpoints _ => h endpoints

theorem refusalOf_feed {base : PriceFeed} : refusalOf (base.override s) = fieldsRefusal? feed s := by
  rw [← Option.or_none (o := fieldsRefusal? _ s)]
  unfold PriceFeed.override
  refine refusalOf_endpoints fun _ => refusalOf_field (refusalOf_each fun _ => refusalOf_oracle) fun _ => ?_
  iterate 3 refine refusalOf_field refusalOf_integer fun _ => ?_
  exact refusalOf_pure _

/-- The settings of a deployment are refused for the first value that is refused in them. -/
theorem refusalOf_deployment : refusalOf (Deployment.ofSettings s) = fieldsRefusal? deployment s := by
  rw [← Option.or_none (o := fieldsRefusal? _ s)]
  refine refusalOf_field refusalOf_preset fun _ => ?_
  rw [fieldsRefusal?, Option.or_assoc]
  refine refusalOf_nested fun _ => ?_
  refine refusalOf_field refusalOf_text fun _ => refusalOf_field refusalOf_integer fun _ => ?_
  rw [fieldsRefusal?, fieldsRefusal?, Option.none_or, Option.or_assoc]
  refine refusalOf_nested fun _ => ?_
  rw [← refusalOf_params]
  refine refusalOf_bind fun _ _ => ?_
  rw [fieldsRefusal?, Option.or_assoc]
  refine refusalOf_nested fun _ => ?_
  rw [← refusalOf_feed]
  refine refusalOf_bind fun _ _ => ?_
  exact refusalOf_field (refusalOf_each fun _ => refusalOf_asset) fun _ => refusalOf_pure _

end Settings
end Solvency
