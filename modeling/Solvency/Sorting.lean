/-!
Stable sorting by insertion. What sorting gives is the same items in order, and items that may stand either way keep
the order that they came in.
-/

namespace Solvency

variable {α : Type}

/-- A sorted list with one more item, in front of every item that it may stand before. -/
def insertBy (le : α → α → Bool) (x : α) : List α → List α
  | [] => [x]
  | y :: ys => if le x y then x :: y :: ys else y :: insertBy le x ys

/-- The items of a list in order. -/
def sortBy (le : α → α → Bool) (xs : List α) : List α := xs.foldr (insertBy le) []

theorem insertBy_perm (le : α → α → Bool) (x : α) (ys : List α) : (insertBy le x ys).Perm (x :: ys) := by
  induction ys with
  | nil => exact .refl _
  | cons y ys ih =>
    unfold insertBy
    split
    · exact .refl _
    · exact (ih.cons y).trans (.swap x y ys)

theorem sortBy_perm (le : α → α → Bool) (xs : List α) : (sortBy le xs).Perm xs := by
  induction xs with
  | nil => exact .refl _
  | cons x xs ih => exact (insertBy_perm le x (sortBy le xs)).trans (ih.cons x)

@[simp] theorem length_sortBy (le : α → α → Bool) (xs : List α) : (sortBy le xs).length = xs.length :=
  (sortBy_perm le xs).length_eq

@[simp] theorem mem_sortBy {le : α → α → Bool} {x : α} {xs : List α} : x ∈ sortBy le xs ↔ x ∈ xs :=
  (sortBy_perm le xs).mem_iff

theorem sorted_insertBy {le : α → α → Bool} (total : ∀ a b, le a b = true ∨ le b a = true)
    (trans : ∀ a b c, le a b = true → le b c = true → le a c = true) {x : α} {ys : List α}
    (h : ys.Pairwise fun a b => le a b = true) : (insertBy le x ys).Pairwise fun a b => le a b = true := by
  induction ys with
  | nil => simp [insertBy]
  | cons y ys ih =>
    obtain ⟨first, later⟩ := List.pairwise_cons.mp h
    unfold insertBy
    split
    · rename_i before
      refine List.pairwise_cons.mpr ⟨fun z member => ?_, h⟩
      rcases List.mem_cons.mp member with rfl | old
      · exact before
      · exact trans x y z before (first z old)
    · rename_i behind
      refine List.pairwise_cons.mpr ⟨fun z member => ?_, ih later⟩
      rcases List.mem_cons.mp ((insertBy_perm le x ys).mem_iff.mp member) with rfl | old
      · exact (total z y).resolve_left behind
      · exact first z old

theorem sorted_sortBy {le : α → α → Bool} (total : ∀ a b, le a b = true ∨ le b a = true)
    (trans : ∀ a b c, le a b = true → le b c = true → le a c = true) (xs : List α) :
    (sortBy le xs).Pairwise fun a b => le a b = true := by
  induction xs with
  | nil => exact .nil
  | cons x xs ih => exact sorted_insertBy total trans ih

end Solvency
