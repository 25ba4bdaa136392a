import Solvency.Proofs.Depths
import Solvency.Proofs.References

/-! Substitutions: what a document becomes whose references are replaced. Its shape stays, each text becomes what it
    becomes by itself, and the first text that has no result leaves the document without one, as does a list or a map
    that stands too deep in it. -/

namespace Solvency

/-! ### Documents -/

namespace Document

mutual
/-- The texts that stand in a document, in their order; its keys are not among them. -/
def texts : Document → List Text
  | .scalar (.text value) => [value]
  | .scalar _ => []
  | .list items => textsOfItems items
  | .map entries => textsOfEntries entries
/-- The texts that stand in the items of a list. -/
def textsOfItems : List Document → List Text
  | [] => []
  | item :: rest => item.texts ++ textsOfItems rest
/-- The texts that stand in the values of entries. -/
def textsOfEntries : List (Scalar × Document) → List Text
  | [] => []
  | (_, value) :: rest => value.texts ++ textsOfEntries rest
end

theorem texts_list (items : List Document) : texts (.list items) = items.flatMap texts := by
  rw [texts]
  induction items with
  | nil => rfl
  | cons item items ih => rw [textsOfItems, ih, List.flatMap_cons]

theorem texts_map (entries : List (Scalar × Document)) :
    texts (.map entries) = entries.flatMap fun entry => entry.2.texts := by
  rw [texts]
  induction entries with
  | nil => rfl
  | cons entry entries ih => rw [textsOfEntries, ih, List.flatMap_cons]

theorem names_list (items : List Document) : names (.list items) = items.flatMap names := by
  rw [names]
  induction items with
  | nil => rfl
  | cons item items ih => rw [namesOfItems, ih, List.flatMap_cons]

theorem names_map (entries : List (Scalar × Document)) :
    names (.map entries) = entries.flatMap fun entry => entry.2.names := by
  rw [names]
  induction entries with
  | nil => rfl
  | cons entry entries ih => rw [namesOfEntries, ih, List.flatMap_cons]

theorem names_eq (document : Document) : document.names = document.texts.flatMap Text.names := by
  induction document using inductionOn with
  | scalar value => cases value <;> simp [names, Scalar.names, texts]
  | list items ih =>
    rw [names_list, texts_list, List.flatMap_assoc]
    exact List.flatMap_congr ih
  | map entries ih =>
    rw [names_map, texts_map, List.flatMap_assoc]
    exact List.flatMap_congr ih

/-- Documents of one shape: their texts correspond, place by place, and all else is the same. -/
inductive Corresponds (R : Text → Text → Prop) : Document → Document → Prop
  | text {t t' : Text} (h : R t t') : Corresponds R (.ofText t) (.ofText t')
  | leaf {value : Scalar} (plain : ∀ t, value ≠ .text t) : Corresponds R (.scalar value) (.scalar value)
  | list {items items' : List Document} (length : items.length = items'.length)
      (each : ∀ i (h : i < items.length) (h' : i < items'.length), Corresponds R items[i] items'[i]) :
      Corresponds R (.list items) (.list items')
  | map {entries entries' : List (Scalar × Document)} (keys : entries.map Prod.fst = entries'.map Prod.fst)
      (each : ∀ i (h : i < entries.length) (h' : i < entries'.length),
        Corresponds R entries[i].2 entries'[i].2) :
      Corresponds R (.map entries) (.map entries')

end Document

namespace Environment
open Text
variable {env : Environment}

theorem substitute_list (items : List Document) :
    env.substitute (.list items) = .list (items.map env.substitute) := by
  rw [substitute]
  congr 1
  induction items with
  | nil => rfl
  | cons item items ih => rw [substituteItems, ih, List.map_cons]

theorem substituteEntries_eq (entries : List (Scalar × Document)) :
    env.substituteEntries entries = entries.map fun entry => (entry.1, env.substitute entry.2) := by
  induction entries with
  | nil => rfl
  | cons entry entries ih => rw [substituteEntries, ih, List.map_cons]

theorem substitute_map (entries : List (Scalar × Document)) :
    env.substitute (.map entries) = .map (entries.map fun entry => (entry.1, env.substitute entry.2)) := by
  rw [substitute, substituteEntries_eq]

theorem substitute_ofText (text : Text) : env.substitute (.ofText text) = .ofText (env.substituteText text) := by
  rw [Document.ofText, substitute]
  rfl

theorem lookup_substituteEntries {name : Text} {entries : List (Scalar × Document)} :
    Document.lookup name (env.substituteEntries entries) = (Document.lookup name entries).map env.substitute := by
  unfold Document.lookup
  rw [substituteEntries_eq, List.find?_map, Option.map_map, Option.map_map]
  rfl

theorem exists_of_lookup {name : Text} {entries : List (Scalar × Document)} {result : Document}
    (h : Document.lookup name (env.substituteEntries entries) = some result) :
    ∃ value, Document.lookup name entries = some value ∧ env.substitute value = result :=
  Option.map_eq_some_iff.mp (lookup_substituteEntries.symm.trans h)

theorem resolveFault?_eq_none {depth : Nat} {document : Document} : document.resolveFault? depth = none ↔
    document.height ≤ depth ∧ ∀ name ∈ document.names, nameFault? name = none := by
  unfold Document.resolveFault?
  refine Document.firstFault_eq_none (P := fun document => ∀ name ∈ document.names, nameFault? name = none)
    (fun value => ?_) (fun items => ?_) fun entries => ?_
  · rw [Document.names, Scalar.resolveFault?, Option.map_eq_none_iff, List.findSome?_eq_none_iff]
  · rw [Document.names_list, List.forall_mem_flatMap]
  · simp only [Document.names_map, List.forall_mem_flatMap, true_and]

theorem resolve_eq_ok {depth : Nat} {document result : Document} : env.resolve depth document = .ok result ↔
    document.height ≤ depth ∧ (∀ text ∈ document.texts, ∀ name ∈ text.names, nameFault? name = none) ∧
      env.substitute document = result := by
  rw [resolve, ← and_assoc, ← List.forall_mem_flatMap, ← Document.names_eq, ← resolveFault?_eq_none]
  cases document.resolveFault? depth <;> simp

/-- Documents whose texts correspond as they are resolved: the second one is the first with its references replaced. -/
theorem substitute_of_corresponds {document result : Document}
    (h : document.Corresponds (fun text text' => env.resolveText text = .ok text') result) :
    (∀ text ∈ document.texts, ∀ name ∈ text.names, nameFault? name = none) ∧ env.substitute document = result := by
  induction h with
  | text h =>
    obtain ⟨hnames, rfl⟩ := resolveText_eq_ok.mp h
    exact ⟨by simpa [Document.ofText, Document.texts] using hnames, substitute_ofText _⟩
  | @leaf value plain =>
    cases value with
    | text t => exact absurd rfl (plain t)
    | _ => exact ⟨by simp [Document.texts], rfl⟩
  | @list items items' length each ih =>
    rw [Document.texts_list, substitute_list]
    constructor
    · intro text htext
      obtain ⟨item, hitem, htext⟩ := List.mem_flatMap.mp htext
      obtain ⟨i, hi, rfl⟩ := List.mem_iff_getElem.mp hitem
      exact (ih i hi (length ▸ hi)).1 text htext
    · refine congrArg _ (List.ext_getElem (by simpa using length) fun i hi hi' => ?_)
      rw [List.getElem_map]
      exact (ih i (by simpa using hi) hi').2
  | @map entries entries' keys each ih =>
    have length : entries.length = entries'.length := by simpa using congrArg List.length keys
    rw [Document.texts_map, substitute_map]
    constructor
    · intro text htext
      obtain ⟨entry, hentry, htext⟩ := List.mem_flatMap.mp htext
      obtain ⟨i, hi, rfl⟩ := List.mem_iff_getElem.mp hentry
      exact (ih i hi (length ▸ hi)).1 text htext
    · refine congrArg _ (List.ext_getElem (by simpa using length) fun i hi hi' => ?_)
      rw [List.getElem_map]
      have hkey : entries[i].1 = entries'[i].1 := by
        have h := List.getElem_of_eq keys (i := i) (by simpa using hi)
        rwa [List.getElem_map, List.getElem_map] at h
      exact Prod.ext hkey (ih i (by simpa using hi) hi').2

theorem corresponds_substitute {R : Text → Text → Prop} {document : Document}
    (h : ∀ text ∈ document.texts, R text (env.substituteText text)) :
    document.Corresponds R (env.substitute document) := by
  induction document using Document.inductionOn with
  | scalar value =>
    cases value with
    | text t => exact .text (h t (by simp [Document.texts]))
    | _ => exact .leaf fun t h => by cases h
  | list items ih =>
    rw [Document.texts_list] at h
    rw [substitute_list]
    refine .list (by simp) fun i hi hi' => ?_
    rw [List.getElem_map]
    exact ih _ (List.getElem_mem hi) fun text htext => h text (List.mem_flatMap.mpr ⟨_, List.getElem_mem hi, htext⟩)
  | map entries ih =>
    rw [Document.texts_map] at h
    rw [substitute_map]
    refine .map (by simp [Function.comp_def]) fun i hi hi' => ?_
    rw [List.getElem_map]
    exact ih _ (List.getElem_mem hi) fun text htext => h text (List.mem_flatMap.mpr ⟨_, List.getElem_mem hi, htext⟩)

theorem resolve_iff_corresponds {depth : Nat} {document result : Document} :
    env.resolve depth document = .ok result ↔ document.height ≤ depth ∧
      document.Corresponds (fun text text' => env.resolveText text = .ok text') result := by
  rw [resolve_eq_ok]
  refine and_congr_right fun _ => ⟨?_, substitute_of_corresponds⟩
  rintro ⟨hnames, rfl⟩
  exact corresponds_substitute fun text htext => resolveText_eq_ok.mpr ⟨hnames text htext, rfl⟩

/-! ### Faults -/

theorem findSome?_eq_flatMap {α β γ δ : Type} {f : α → Option δ} {parts : α → List β} {g : β → Option γ} {c : γ → δ}
    {xs : List α} (h : ∀ x ∈ xs, f x = ((parts x).findSome? g).map c) :
    xs.findSome? f = ((xs.flatMap parts).findSome? g).map c := by
  induction xs with
  | nil => rfl
  | cons x xs ih =>
    rw [List.forall_mem_cons] at h
    rw [List.findSome?_cons, List.flatMap_cons, List.findSome?_append, Option.map_or, h.1, ih h.2]
    cases (parts x).findSome? g <;> rfl

/-- A document that is nested no deeper has the first fault of its names. -/
theorem resolveFault?_of_height_le {depth : Nat} {document : Document} (h : document.height ≤ depth) :
    document.resolveFault? depth = (document.names.findSome? nameFault?).map .name := by
  unfold Document.resolveFault?
  induction document using Document.inductionOn generalizing depth with
  | scalar value => rw [Document.firstFault, Document.names, Scalar.resolveFault?]
  | list items ih =>
    cases depth with
    | zero => simp [Document.height] at h
    | succ depth =>
      rw [Document.height_list_le] at h
      rw [Document.firstFault, Document.firstFaultOfItems_eq, Document.names_list]
      exact findSome?_eq_flatMap fun item hitem => ih item hitem (h item hitem)
  | map entries ih =>
    cases depth with
    | zero => simp [Document.height] at h
    | succ depth =>
      rw [Document.height_map_le] at h
      rw [Document.firstFault, Document.firstFaultOfEntries_eq, Document.names_map]
      exact findSome?_eq_flatMap fun entry hentry => ih entry hentry (h entry hentry)

/-- A fault of a name is one of a name in the document. -/
theorem exists_name_of_resolveFault? {depth : Nat} {document : Document} {fault : NameFault}
    (h : document.resolveFault? depth = some (.name fault)) :
    ∃ name ∈ document.names, nameFault? name = some fault := by
  unfold Document.resolveFault? at h
  induction document using Document.inductionOn generalizing depth with
  | scalar value =>
    rw [Document.firstFault, Scalar.resolveFault?] at h
    obtain ⟨cause, hcause, hfault⟩ := Option.map_eq_some_iff.mp h
    obtain rfl := ResolveFault.name.inj hfault
    rw [Document.names]
    exact List.exists_of_findSome?_eq_some hcause
  | list items ih =>
    cases depth with
    | zero => cases h
    | succ depth =>
      rw [Document.firstFault, Document.firstFaultOfItems_eq] at h
      obtain ⟨item, hitem, h⟩ := List.exists_of_findSome?_eq_some h
      obtain ⟨name, hname, hfault⟩ := ih item hitem h
      exact ⟨name, by rw [Document.names_list]; exact List.mem_flatMap.mpr ⟨item, hitem, hname⟩, hfault⟩
  | map entries ih =>
    cases depth with
    | zero => cases h
    | succ depth =>
      rw [Document.firstFault, Document.firstFaultOfEntries_eq] at h
      obtain ⟨entry, hentry, h⟩ := List.exists_of_findSome?_eq_some h
      obtain ⟨name, hname, hfault⟩ := ih entry hentry h
      exact ⟨name, by rw [Document.names_map]; exact List.mem_flatMap.mpr ⟨entry, hentry, hname⟩, hfault⟩

theorem mapM_resolveText_eq_error {texts : List Text} {fault : NameFault} :
    texts.mapM env.resolveText = .error fault ↔ (texts.flatMap names).findSome? nameFault? = some fault := by
  induction texts with
  | nil => simp [pure, Except.pure]
  | cons text texts ih =>
    rw [List.mapM_cons, bind_eq_error, List.flatMap_cons, List.findSome?_append, resolveText]
    cases text.names.findSome? nameFault? with
    | some first => simp
    | none =>
      simp only [Option.none_or, reduceCtorEq, false_or, Except.ok.injEq, exists_eq_left', ← ih]
      exact bind_eq_error.trans (or_iff_left (by simp [pure, Except.pure]))

theorem resolve_eq_error {depth : Nat} {document : Document} (shallow : document.height ≤ depth)
    {fault : ResolveFault} : env.resolve depth document = .error fault ↔
      ∃ cause, fault = .name cause ∧ document.texts.mapM env.resolveText = .error cause := by
  simp only [mapM_resolveText_eq_error, ← Document.names_eq]
  rw [resolve, resolveFault?_of_height_le shallow]
  cases document.names.findSome? nameFault? <;> simp [eq_comm]

/-- A document that is nested too deep is not resolved, and that is its fault if its names can be looked up. -/
theorem resolve_of_deep {depth : Nat} {document : Document} (deep : depth < document.height)
    (h : ∀ text ∈ document.texts, ∃ result, env.resolveText text = .ok result) :
    env.resolve depth document = .error .tooDeep := by
  have hnames : ∀ name ∈ document.names, nameFault? name = none := by
    rw [Document.names_eq, List.forall_mem_flatMap]
    intro text htext
    obtain ⟨result, hresult⟩ := h text htext
    exact (resolveText_eq_ok.mp hresult).1
  rw [resolve]
  cases hfault : document.resolveFault? depth with
  | none => exact absurd (resolveFault?_eq_none.mp hfault).1 (Nat.not_le.mpr deep)
  | some fault =>
    cases fault with
    | tooDeep => rfl
    | name cause =>
      obtain ⟨name, hname, hcause⟩ := exists_name_of_resolveFault? hfault
      rw [hnames name hname] at hcause
      cases hcause

theorem resolve_ofText {depth : Nat} {text : Text} :
    env.resolve depth (.ofText text) = ((env.resolveText text).map .ofText).mapError .name := by
  rw [resolve, resolveFault?_of_height_le (Nat.zero_le _), resolveText, substitute_ofText, Document.ofText,
    Document.names, Scalar.names]
  cases text.names.findSome? nameFault? <;> rfl

/-! ### Replacing twice -/

theorem texts_substitute (document : Document) :
    (env.substitute document).texts = document.texts.map env.substituteText := by
  induction document using Document.inductionOn with
  | scalar value => cases value <;> simp [substitute, substituteScalar, Document.texts]
  | list items ih =>
    rw [substitute_list, Document.texts_list, Document.texts_list, List.flatMap_map, List.map_flatMap]
    exact List.flatMap_congr ih
  | map entries ih =>
    rw [substitute_map, Document.texts_map, Document.texts_map, List.flatMap_map, List.map_flatMap]
    exact List.flatMap_congr ih

theorem height_substitute_le {depth : Nat} {document : Document} :
    (env.substitute document).height ≤ depth ↔ document.height ≤ depth := by
  induction document using Document.inductionOn generalizing depth with
  | scalar value => simp [substitute, Document.height]
  | list items ih =>
    rw [substitute_list]
    cases depth with
    | zero => simp [Document.height]
    | succ depth =>
      rw [Document.height_list_le, Document.height_list_le, List.forall_mem_map]
      exact forall₂_congr fun item hitem => ih item hitem
  | map entries ih =>
    rw [substitute_map]
    cases depth with
    | zero => simp [Document.height]
    | succ depth =>
      rw [Document.height_map_le, Document.height_map_le, List.forall_mem_map]
      exact forall₂_congr fun entry hentry => ih entry hentry

/-- Without a reference in its texts a document corresponds to itself. -/
theorem corresponds_of_not_hasReference {document : Document} (h : ∀ text ∈ document.texts, ¬HasReference text) :
    document.Corresponds (fun text text' => env.resolveText text = .ok text') document := by
  induction document using Document.inductionOn with
  | scalar value =>
    cases value with
    | text t => exact .text (resolveText_of_not_hasReference (h t (by simp [Document.texts])))
    | _ => exact .leaf fun t h => by cases h
  | list items ih =>
    rw [Document.texts_list] at h
    exact .list rfl fun i hi _ => ih _ (List.getElem_mem hi) fun text htext =>
      h text (List.mem_flatMap.mpr ⟨_, List.getElem_mem hi, htext⟩)
  | map entries ih =>
    rw [Document.texts_map] at h
    exact .map rfl fun i hi _ => ih _ (List.getElem_mem hi) fun text htext =>
      h text (List.mem_flatMap.mpr ⟨_, List.getElem_mem hi, htext⟩)

theorem resolve_resolve {depth : Nat} {document : Document}
    (values : ∀ name value, env name = some value → Unmarked value)
    (marked : ∀ text ∈ document.texts, MarksReferences text) :
    (env.resolve depth document >>= env.resolve depth) = env.resolve depth document := by
  cases hresolve : env.resolve depth document with
  | error fault => rfl
  | ok result =>
    obtain ⟨hheight, -, rfl⟩ := resolve_eq_ok.mp hresolve
    refine resolve_iff_corresponds.mpr ⟨height_substitute_le.mpr hheight,
      corresponds_of_not_hasReference fun text htext => ?_⟩
    rw [texts_substitute] at htext
    obtain ⟨source, hsource, rfl⟩ := List.mem_map.mp htext
    exact ((marked source hsource).unmarked values).not_hasReference

/-- Replacing references, down to a depth, is one substitution in the texts of a document, from the front of each of
    them. -/
structure ReplacesOnce (depth : Nat) (env : Environment) : Prop where
  /-- Keys, their order, the lengths of lists and all that is no text stay; each text is replaced by itself. -/
  shape : ∀ document result, env.resolve depth document = .ok result ↔ document.height ≤ depth ∧
    document.Corresponds (fun text text' => env.resolveText text = .ok text') result
  ofText : ∀ text, env.resolve depth (.ofText text) = ((env.resolveText text).map .ofText).mapError .name
  /-- The first reference gives way to the value of its variable, which is not looked at again. -/
  first : ∀ before name behind, ¬opening <:+: before → IsName name → name.HasBytes →
    env.resolveText (before ++ reference name ++ behind) =
      (env.resolveText behind).map (before ++ (env name).getD [] ++ ·)
  plain : ∀ text, ¬HasReference text → env.resolveText text = .ok text
  /-- Only a reference to a name without bytes is not replaced, and then nothing else is. -/
  withoutBytes : ∀ before name behind, ¬opening <:+: before → IsName name → ¬name.HasBytes →
    ∃ fault, nameFault? name = some fault ∧ env.resolveText (before ++ reference name ++ behind) = .error fault
  firstFault : ∀ document, document.height ≤ depth → ∀ fault, env.resolve depth document = .error fault ↔
    ∃ cause, fault = .name cause ∧ ∃ earlier text later, document.texts = earlier ++ text :: later ∧
      (∀ other ∈ earlier, ∃ result, env.resolveText other = .ok result) ∧ env.resolveText text = .error cause
  /-- Deeper documents have no result, and nothing but their depth may be what stands against it. -/
  deep : ∀ document, depth < document.height →
    (∃ fault, env.resolve depth document = .error fault) ∧
      ((∀ text ∈ document.texts, ∃ result, env.resolveText text = .ok result) →
        env.resolve depth document = .error .tooDeep)
  twice : ∀ document, (∀ name value, env name = some value → Unmarked value) →
    (∀ text ∈ document.texts, MarksReferences text) →
    (env.resolve depth document >>= env.resolve depth) = env.resolve depth document

theorem references_replaced_once (depth : Nat) (env : Environment) : ReplacesOnce depth env where
  shape _ _ := resolve_iff_corresponds
  ofText _ := resolve_ofText
  first before name behind plain named bytes := by
    rw [List.append_assoc, resolveText_append plain (by rintro ⟨⟩), resolveText_reference named,
      nameFault?, nameFaultFrom_eq_none.mpr bytes]
    cases env.resolveText behind <;> simp [Except.map]
  plain _ := resolveText_of_not_hasReference
  withoutBytes before name behind plain named bytes := by
    obtain ⟨fault, hfault⟩ := Option.ne_none_iff_exists'.mp (mt nameFaultFrom_eq_none.mp bytes)
    refine ⟨fault, hfault, ?_⟩
    rw [List.append_assoc, resolveText_append plain (by rintro ⟨⟩), resolveText_reference named, nameFault?, hfault]
    rfl
  firstFault document shallow fault := by
    rw [resolve_eq_error shallow]
    exact exists_congr fun cause => and_congr_right fun _ => mapM_eq_error
  deep document deep := by
    refine ⟨?_, resolve_of_deep deep⟩
    cases hresolve : env.resolve depth document with
    | error fault => exact ⟨fault, rfl⟩
    | ok result => exact absurd (resolve_eq_ok.mp hresolve).1 (Nat.not_le.mpr deep)
  twice _ := resolve_resolve

/-- The value of a variable may look like a reference. -/
example :
    let env : Environment := fun name => if name = Text.ofString "X" then some "$\x7bY\x7d" else some "1"
    env.substituteText "$$\x7bX\x7d$\x7b\x7d$\x7bY\x7d$\x7b" = Text.ofString "$$\x7bY\x7d$\x7b\x7d1$\x7b" := by
  decide

/-- An environment with one variable. -/
def single (name value : Text) : Environment := fun other => if other = name then some value else none

theorem references_replaced_once_single :
    let env := single "X" "v"
    env.resolve 500 (.ofText "a$\x7bX\x7db") = .ok (.ofText "avb") ∧
      (env.resolve 500 (.ofText "a$\x7bX\x7db") >>= env.resolve 500) = env.resolve 500 (.ofText "a$\x7bX\x7db") := by
  intro env
  have once := references_replaced_once 500 env
  have named : IsName "X" := by decide
  have plain : ¬HasReference "b" := Unmarked.not_hasReference (by decide)
  constructor
  · have h := once.first "a" "X" "b" (by decide) named (by decide)
    rw [once.plain _ plain] at h
    exact (once.ofText _).trans (congrArg (fun text => (Except.map Document.ofText text).mapError ResolveFault.name) h)
  · refine once.twice _ (fun name value h => ?_) fun text htext => ?_
    · obtain ⟨-, rfl⟩ : name = Text.ofString "X" ∧ Text.ofString "v" = value := by simpa [env, single] using h
      decide
    · obtain rfl : text = Text.ofString "a$\x7bX\x7db" := by simpa [Document.ofText, Document.texts] using htext
      exact .point (by decide) (.reference named (.point (by decide) .nil))

/-- A name that holds half of a pair is not looked up, and its reference not replaced by nothing. -/
theorem surrogate_name_not_replaced :
    let env : Environment := fun _ => none
    let name : Text := [.surrogate 0]
    IsName name ∧ env.resolve 500 (.ofText (reference name)) ≠ .ok (.ofText ((env name).getD [])) ∧
      env.resolve 500 (.ofText (reference name)) = .error (.name ⟨0, 0, 0⟩) := by
  intro env name
  have hresolve : env.resolve 500 (.ofText (reference name)) = .error (.name ⟨0, 0, 0⟩) := rfl
  exact ⟨by decide, by rw [hresolve]; rintro ⟨⟩, hresolve⟩

end Environment
end Solvency
