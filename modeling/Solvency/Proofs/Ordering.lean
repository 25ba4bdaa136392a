import Solvency.Sorting

/-! What sorting keeps: items that may stand either way keep the order that they came in, and sorting by a property of
    the items is sorting the properties. -/

namespace Solvency

section Stable
variable {α β : Type} {le : α → α → Bool} {R : α → α → Prop}

theorem pairwise_insertBy (total : ∀ a b, le a b = true ∨ le b a = true)
    (trans : ∀ a b c, le a b = true → le b c = true → le a c = true) {x : α} {ys : List α}
    (front : ∀ y ∈ ys, R x y) (h : ys.Pairwise fun a b => le a b = true ∧ (le b a = true → R a b)) :
    (insertBy le x ys).Pairwise fun a b => le a b = true ∧ (le b a = true → R a b) := by
  induction ys with
  | nil => simp [insertBy]
  | cons y ys ih =>
    obtain ⟨hy, hys⟩ := List.pairwise_cons.mp h
    unfold insertBy
    split
    · rename_i hle
      refine List.pairwise_cons.mpr ⟨fun z hz => ⟨?_, fun _ => front z hz⟩, h⟩
      rcases List.mem_cons.mp hz with rfl | hz
      · exact hle
      · exact trans x y z hle (hy z hz).1
    · rename_i hle
      refine List.pairwise_cons.mpr ⟨fun z hz => ?_, ih (fun z hz => front z (List.mem_cons_of_mem y hz)) hys⟩
      -- The new item goes behind `y` only if it may not stand in front of it.
      rcases List.mem_cons.mp ((insertBy_perm le x ys).mem_iff.mp hz) with rfl | hz
      · exact ⟨(total z y).resolve_left hle, fun h => absurd h hle⟩
      · exact hy z hz

/-- Sorting is stable: of two items that may stand either way, the one that came first stands first. -/
theorem pairwise_sortBy (total : ∀ a b, le a b = true ∨ le b a = true)
    (trans : ∀ a b c, le a b = true → le b c = true → le a c = true) {xs : List α} (h : xs.Pairwise R) :
    (sortBy le xs).Pairwise fun a b => le a b = true ∧ (le b a = true → R a b) := by
  induction xs with
  | nil => exact .nil
  | cons x xs ih =>
    obtain ⟨hx, hxs⟩ := List.pairwise_cons.mp h
    exact pairwise_insertBy total trans (fun y hy => hx y (mem_sortBy.mp hy)) (ih hxs)

/-- Sorting does not see in which order items come none of which may stand either way. -/
theorem sortBy_eq_of_perm (total : ∀ a b, le a b = true ∨ le b a = true)
    (trans : ∀ a b c, le a b = true → le b c = true → le a c = true) {xs ys : List α} (h : xs.Perm ys)
    (strict : ∀ a ∈ xs, ∀ b ∈ xs, le a b = true → le b a = true → a = b) : sortBy le xs = sortBy le ys := by
  refine List.Perm.eq_of_pairwise (fun a b ha hb => strict a (mem_sortBy.mp ha) b ?_) (sorted_sortBy total trans xs)
    (sorted_sortBy total trans ys) ((sortBy_perm le xs).trans (h.trans (sortBy_perm le ys).symm))
  exact h.mem_iff.mpr (mem_sortBy.mp hb)

theorem sortBy_eq_nil {xs : List α} : sortBy le xs = [] ↔ xs = [] := by
  rw [← List.length_eq_zero_iff, length_sortBy, List.length_eq_zero_iff]

/-! ### Orders by a number -/

theorem total_le (f : α → Int) (a b : α) : decide (f a ≤ f b) = true ∨ decide (f b ≤ f a) = true := by
  simp only [decide_eq_true_eq]
  omega

theorem trans_le (f : α → Int) (a b c : α) (hab : decide (f a ≤ f b) = true) (hbc : decide (f b ≤ f c) = true) :
    decide (f a ≤ f c) = true := by
  simp only [decide_eq_true_eq] at hab hbc ⊢
  omega

theorem sortBy_descending (f : α → Int) (xs : List α) :
    (sortBy (fun a b => decide (f b ≤ f a)) xs).Pairwise fun a b => f b ≤ f a :=
  (sorted_sortBy (fun a b => total_le f b a) (fun a b c hab hbc => trans_le f c b a hbc hab) xs).imp
    fun hle => of_decide_eq_true hle

/-! ### Properties of the items -/

theorem map_insertBy (f : β → α) (x : β) (ys : List β) :
    (insertBy (fun a b => le (f a) (f b)) x ys).map f = insertBy le (f x) (ys.map f) := by
  induction ys with
  | nil => rfl
  | cons y ys ih =>
    simp only [insertBy, List.map_cons]
    split
    · rfl
    · rw [List.map_cons, ih]

theorem map_sortBy (f : β → α) (xs : List β) :
    (sortBy (fun a b => le (f a) (f b)) xs).map f = sortBy le (xs.map f) := by
  induction xs with
  | nil => rfl
  | cons x xs ih =>
    show (insertBy _ x (sortBy _ xs)).map f = insertBy le (f x) (sortBy le (xs.map f))
    rw [map_insertBy, ih]

end Stable

end Solvency
