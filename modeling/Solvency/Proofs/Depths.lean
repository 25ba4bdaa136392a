import Mathlib.Data.List.Basic
import Solvency.Document.Basic

/-! Depths: how deep lists and maps stand inside each other, and what the first fault of a document is if it is gone
    through down to some depth. There is none exactly if the document is no deeper, and no part of it has one. -/

namespace Solvency.Document

theorem inductionOn {P : Document → Prop} (document : Document) (scalar : ∀ value, P (.scalar value))
    (list : ∀ items, (∀ item ∈ items, P item) → P (.list items))
    (map : ∀ entries, (∀ entry ∈ entries, P entry.2) → P (.map entries)) : P document :=
  @Document.rec P (fun items => ∀ item ∈ items, P item) (fun entries => ∀ entry ∈ entries, P entry.2)
    (fun entry => P entry.2) scalar list map (List.forall_mem_nil _) (fun _ _ h hs => List.forall_mem_cons.mpr ⟨h, hs⟩)
    (List.forall_mem_nil _) (fun _ _ h hs => List.forall_mem_cons.mpr ⟨h, hs⟩) (fun _ _ h => h) document

/-! ### Heights -/

section
variable {depth : Nat} {items : List Document} {entries : List (Scalar × Document)}

theorem height_list_le : height (.list items) ≤ depth + 1 ↔ ∀ item ∈ items, item.height ≤ depth := by
  rw [height, Nat.add_le_add_iff_right]
  induction items with
  | nil => simp [heightOfItems]
  | cons item items ih => rw [heightOfItems, Nat.max_le, ih, List.forall_mem_cons]

theorem height_map_le : height (.map entries) ≤ depth + 1 ↔ ∀ entry ∈ entries, entry.2.height ≤ depth := by
  rw [height, Nat.add_le_add_iff_right]
  induction entries with
  | nil => simp [heightOfEntries]
  | cons entry entries ih => rw [heightOfEntries, Nat.max_le, ih, List.forall_mem_cons]

end

/-- Lists inside each other, the innermost of which is empty. -/
def nested : Nat → Document
  | 0 => .list []
  | n + 1 => .list [nested n]

theorem height_nested (n : Nat) : (nested n).height = n + 1 := by
  induction n with
  | zero => rfl
  | succ n ih => rw [nested, height, heightOfItems, heightOfItems, ih, Nat.max_zero]

/-! ### First faults -/

section
variable {ε : Type} {ofScalar ofKey : Scalar → Option ε} {tooDeep : ε} {depth : Nat}

theorem firstFaultOfItems_eq (items : List Document) : firstFaultOfItems ofScalar ofKey tooDeep depth items =
    items.findSome? (firstFault ofScalar ofKey tooDeep depth) := by
  induction items with
  | nil => simp [firstFaultOfItems]
  | cons item items ih =>
    rw [firstFaultOfItems, ih, List.findSome?_cons]
    cases firstFault ofScalar ofKey tooDeep depth item <;> rfl

theorem firstFaultOfEntries_eq (entries : List (Scalar × Document)) :
    firstFaultOfEntries ofScalar ofKey tooDeep depth entries =
      entries.findSome? fun entry => (ofKey entry.1).or (firstFault ofScalar ofKey tooDeep depth entry.2) := by
  induction entries with
  | nil => simp [firstFaultOfEntries]
  | cons entry entries ih =>
    rw [firstFaultOfEntries, ih, List.findSome?_cons]
    cases (ofKey entry.1).or (firstFault ofScalar ofKey tooDeep depth entry.2) <;> rfl

/-- Going through a document finds no fault exactly if it is deep enough for it and no part has one; `P` says so of the
    parts. -/
theorem firstFault_eq_none {P : Document → Prop} (scalar : ∀ value, P (.scalar value) ↔ ofScalar value = none)
    (list : ∀ items, P (.list items) ↔ ∀ item ∈ items, P item)
    (map : ∀ entries, P (.map entries) ↔ ∀ entry ∈ entries, ofKey entry.1 = none ∧ P entry.2)
    {document : Document} :
    firstFault ofScalar ofKey tooDeep depth document = none ↔ document.height ≤ depth ∧ P document := by
  induction document using inductionOn generalizing depth with
  | scalar value => simp [firstFault, scalar, height]
  | list items ih =>
    cases depth with
    | zero => simp [firstFault, height]
    | succ depth =>
      rw [firstFault, firstFaultOfItems_eq, List.findSome?_eq_none_iff, height_list_le, list, ← forall₂_and]
      exact forall₂_congr fun item hitem => ih item hitem
  | map entries ih =>
    cases depth with
    | zero => simp [firstFault, height]
    | succ depth =>
      rw [firstFault, firstFaultOfEntries_eq, List.findSome?_eq_none_iff, height_map_le, map, ← forall₂_and]
      refine forall₂_congr fun entry hentry => ?_
      rw [Option.or_eq_none_iff, ih entry hentry]
      exact and_left_comm

end

/-! ### Showing -/

theorem hasDisplay_list (items : List Document) :
    (list items).hasDisplay = true ↔ ∀ item ∈ items, item.hasDisplay = true := by
  rw [hasDisplay]
  induction items with
  | nil => simp [haveDisplay]
  | cons item items ih => rw [haveDisplay, Bool.and_eq_true, ih, List.forall_mem_cons]

theorem hasDisplay_map (entries : List (Scalar × Document)) : (map entries).hasDisplay = true ↔
    ∀ entry ∈ entries, entry.1.hasDisplay = true ∧ entry.2.hasDisplay = true := by
  rw [hasDisplay]
  induction entries with
  | nil => simp [entriesHaveDisplay]
  | cons entry entries ih =>
    rw [entriesHaveDisplay, Bool.and_eq_true, Bool.and_eq_true, ih, List.forall_mem_cons]

theorem limit?_scalar {value : Scalar} : value.limit? = none ↔ value.hasDisplay = true := by
  unfold Scalar.limit?
  split <;> simp [*]

/-- No limit stands against showing a document exactly if it is no deeper and has a text. -/
theorem limit?_eq_none {depth : Nat} {document : Document} :
    document.limit? depth = none ↔ document.height ≤ depth ∧ document.hasDisplay = true := by
  unfold limit?
  refine firstFault_eq_none (P := fun document => document.hasDisplay = true) (fun value => ?_) hasDisplay_list
    fun entries => ?_
  · rw [hasDisplay, limit?_scalar]
  · simp only [hasDisplay_map, limit?_scalar]

theorem displayWithin_eq_ok {depth : Nat} {document : Document} {text : Text} :
    document.displayWithin depth = .ok text ↔
      (document.height ≤ depth ∧ document.hasDisplay = true) ∧ document.display = text := by
  rw [← limit?_eq_none, displayWithin]
  cases document.limit? depth <;> simp

end Solvency.Document
