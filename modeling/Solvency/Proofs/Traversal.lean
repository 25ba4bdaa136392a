import Mathlib.Data.List.Forall2
import Mathlib.Data.List.Nodup

/-! Steps that can fail, one after another and over lists. A sequence succeeds when each of its steps does, and the
    results of a traversal correspond to the items that were traversed, place by place. -/

namespace Solvency

section Steps
variable {ε ε' α β : Type}

theorem bind_eq_ok {x : Except ε α} {f : α → Except ε β} {b : β} :
    (x >>= f) = .ok b ↔ ∃ a, x = .ok a ∧ f a = .ok b := by
  cases x <;> simp [bind, Except.bind]

theorem bind_eq_error {x : Except ε α} {f : α → Except ε β} {e : ε} :
    (x >>= f) = .error e ↔ x = .error e ∨ ∃ a, x = .ok a ∧ f a = .error e := by
  cases x <;> simp [bind, Except.bind]

theorem bind_of_eq_ok {x : Except ε α} {a : α} (h : x = .ok a) (f : α → Except ε β) : (x >>= f) = f a := by
  rw [h]
  rfl

theorem bind_of_eq_error {x : Except ε α} {e : ε} (h : x = .error e) (f : α → Except ε β) : (x >>= f) = .error e := by
  rw [h]
  rfl

theorem map_eq_ok {x : Except ε α} {f : α → β} {b : β} : (f <$> x) = .ok b ↔ ∃ a, x = .ok a ∧ f a = b := by
  cases x <;> simp [Functor.map, Except.map]

theorem pure_eq_ok {a b : α} : (pure a : Except ε α) = .ok b ↔ a = b := by simp [pure, Except.pure]

theorem mapError_eq_ok {x : Except ε α} {f : ε → ε'} {a : α} : x.mapError f = .ok a ↔ x = .ok a := by
  cases x <;> simp [Except.mapError]

theorem mapError_eq_error {x : Except ε α} {f : ε → ε'} {e : ε'} :
    x.mapError f = .error e ↔ ∃ cause, x = .error cause ∧ f cause = e := by
  cases x <;> simp [Except.mapError]

/-- Whether a step fails with an error can be computed, whatever it gives otherwise. -/
instance decidableEqError [DecidableEq ε] {x : Except ε α} {e : ε} : Decidable (x = .error e) :=
  match x with
  | .error e' => decidable_of_iff (e' = e) (by simp)
  | .ok _ => isFalse (by simp)

instance decidableEqSomeError [DecidableEq ε] {x : Option (Except ε α)} {e : ε} : Decidable (x = some (.error e)) :=
  match x with
  | some (.error e') => decidable_of_iff (e' = e) (by simp)
  | none | some (.ok _) => isFalse (by simp)

instance decidableExistsOk {x : Except ε α} : Decidable (∃ a, x = .ok a) :=
  match x with
  | .error _ => isFalse (by simp)
  | .ok a => isTrue ⟨a, rfl⟩

instance decidableExistsSomeOk {x : Option (Except ε α)} : Decidable (∃ a, x = some (.ok a)) :=
  match x with
  | none | some (.error _) => isFalse (by simp)
  | some (.ok a) => isTrue ⟨a, rfl⟩

end Steps

section Lists
variable {ε α β : Type}

/-- A traversal succeeds when every item gives a result, and collects these in order. -/
theorem mapM_eq_ok {f : α → Except ε β} {xs : List α} {ys : List β} :
    xs.mapM f = .ok ys ↔ List.Forall₂ (fun x y => f x = .ok y) xs ys := by
  induction xs generalizing ys with
  | nil => rw [List.mapM_nil, pure_eq_ok, List.forall₂_nil_left_iff, eq_comm]
  | cons x xs ih =>
    rw [List.mapM_cons, bind_eq_ok, List.forall₂_cons_left_iff]
    constructor
    · rintro ⟨y, hy, h⟩
      obtain ⟨ys', hys, h⟩ := bind_eq_ok.mp h
      exact ⟨y, ys', hy, ih.mp hys, (pure_eq_ok.mp h).symm⟩
    · rintro ⟨y, ys', hy, hys, rfl⟩
      exact ⟨y, hy, bind_eq_ok.mpr ⟨ys', ih.mpr hys, rfl⟩⟩

/-- A traversal fails with the error of the first item that fails. -/
theorem mapM_eq_error {f : α → Except ε β} {xs : List α} {e : ε} :
    xs.mapM f = .error e ↔
      ∃ earlier x later, xs = earlier ++ x :: later ∧ (∀ y ∈ earlier, ∃ z, f y = .ok z) ∧ f x = .error e := by
  induction xs with
  | nil => simp [pure, Except.pure]
  | cons x xs ih =>
    rw [List.mapM_cons, bind_eq_error]
    constructor
    · rintro (h | ⟨z, hz, h⟩)
      · exact ⟨[], x, xs, rfl, by simp, h⟩
      · rcases bind_eq_error.mp h with h | ⟨_, -, h⟩
        · obtain ⟨earlier, y, later, rfl, hearlier, hy⟩ := ih.mp h
          exact ⟨x :: earlier, y, later, rfl, List.forall_mem_cons.mpr ⟨⟨z, hz⟩, hearlier⟩, hy⟩
        · cases h
    · rintro ⟨earlier, y, later, hxs, hearlier, hy⟩
      cases earlier with
      | nil =>
        obtain ⟨rfl, rfl⟩ := List.cons.inj hxs
        exact Or.inl hy
      | cons x' earlier =>
        obtain ⟨rfl, rfl⟩ := List.cons.inj hxs
        obtain ⟨⟨z, hz⟩, hearlier⟩ := List.forall_mem_cons.mp hearlier
        exact Or.inr ⟨z, hz, bind_eq_error.mpr (Or.inl (ih.mpr ⟨earlier, y, later, rfl, hearlier, hy⟩))⟩

/-- A traversal fails as one of its items does. -/
theorem exists_of_mapM_error {f : α → Except ε β} {xs : List α} {e : ε} (h : xs.mapM f = .error e) :
    ∃ x ∈ xs, f x = .error e := by
  obtain ⟨earlier, x, later, rfl, -, hx⟩ := mapM_eq_error.mp h
  exact ⟨x, List.mem_append_right earlier List.mem_cons_self, hx⟩

/-- Traversals whose items fail alike fail alike. -/
theorem mapM_error_congr {γ : Type} {f : α → Except ε β} {g : α → Except ε γ} {xs : List α}
    (h : ∀ x ∈ xs, ∀ e, f x = .error e ↔ g x = .error e) (e : ε) : xs.mapM f = .error e ↔ xs.mapM g = .error e := by
  have hok : ∀ x ∈ xs, (∃ y, f x = .ok y) ↔ ∃ z, g x = .ok z := by
    intro x hx
    cases hf : f x with
    | error e =>
      rw [(h x hx e).mp hf]
      simp
    | ok y =>
      cases hg : g x with
      | error e => cases hf.symm.trans ((h x hx e).mpr hg)
      | ok z => simp
  rw [mapM_eq_error, mapM_eq_error]
  constructor
  · rintro ⟨earlier, x, later, rfl, hearlier, hx⟩
    exact ⟨earlier, x, later, rfl, fun y hy => (hok y (List.mem_append_left _ hy)).mp (hearlier y hy),
      (h x (List.mem_append_right _ List.mem_cons_self) e).mp hx⟩
  · rintro ⟨earlier, x, later, rfl, hearlier, hx⟩
    exact ⟨earlier, x, later, rfl, fun y hy => (hok y (List.mem_append_left _ hy)).mpr (hearlier y hy),
      (h x (List.mem_append_right _ List.mem_cons_self) e).mpr hx⟩

/-- If every item has a counterpart, so has the list of them. -/
theorem exists_forall₂ {R : α → β → Prop} {xs : List α} (h : ∀ x ∈ xs, ∃ y, R x y) : ∃ ys, List.Forall₂ R xs ys := by
  induction xs with
  | nil => exact ⟨[], .nil⟩
  | cons x xs ih =>
    obtain ⟨y, hy⟩ := h x List.mem_cons_self
    obtain ⟨ys, hys⟩ := ih fun z hz => h z (List.mem_cons_of_mem x hz)
    exact ⟨y :: ys, .cons hy hys⟩

theorem exists_mapM_ok {f : α → Except ε β} {xs : List α} (h : ∀ x ∈ xs, ∃ y, f x = .ok y) :
    ∃ ys, xs.mapM f = .ok ys :=
  (exists_forall₂ h).imp fun _ => mapM_eq_ok.mpr

theorem mapM_eq_some {f : α → Option β} {xs : List α} {ys : List β} :
    xs.mapM f = some ys ↔ xs.map f = ys.map some := by
  induction xs generalizing ys with
  | nil => cases ys <;> simp
  | cons x xs ih =>
    rw [List.mapM_cons, Option.bind_eq_bind, Option.bind_eq_some_iff]
    constructor
    · rintro ⟨y, hy, h⟩
      obtain ⟨ys', hys, h⟩ := Option.bind_eq_some_iff.mp h
      obtain rfl := Option.some.inj h
      rw [List.map_cons, List.map_cons, hy, ih.mp hys]
    · intro h
      cases ys with
      | nil => simp at h
      | cons y ys =>
        rw [List.map_cons, List.map_cons, List.cons.injEq] at h
        exact ⟨y, h.1, Option.bind_eq_some_iff.mpr ⟨ys, ih.mpr h.2, rfl⟩⟩

theorem mem_iff_of_map_eq {f : α → Option β} {xs : List α} {ys : List β} (h : xs.map f = ys.map some) {y : β} :
    y ∈ ys ↔ ∃ x ∈ xs, f x = some y := by
  rw [← List.mem_map_of_injective fun _ _ => Option.some.inj, ← h, List.mem_map]

/-- Two lists that are made of the same items correspond if what is made of each item does. -/
theorem forall₂_map_map {γ : Type} {R : β → γ → Prop} {f : α → β} {g : α → γ} {xs : List α}
    (h : ∀ x ∈ xs, R (f x) (g x)) : List.Forall₂ R (xs.map f) (xs.map g) :=
  List.forall₂_map_left_iff.mpr (List.forall₂_map_right_iff.mpr (List.forall₂_same.mpr h))

/-- What corresponds to an item, in two lists that correspond place by place. -/
theorem Forall₂.exists_right {R : α → β → Prop} {xs : List α} {ys : List β} (h : List.Forall₂ R xs ys) {x : α}
    (hx : x ∈ xs) : ∃ y ∈ ys, R x y := by
  induction h with
  | nil => cases hx
  | cons hr _ ih =>
    rcases List.mem_cons.mp hx with rfl | hx
    · exact ⟨_, List.mem_cons_self, hr⟩
    · obtain ⟨y, hy, hr⟩ := ih hx
      exact ⟨y, List.mem_cons_of_mem _ hy, hr⟩

theorem Forall₂.exists_left {R : α → β → Prop} {xs : List α} {ys : List β} (h : List.Forall₂ R xs ys) {y : β}
    (hy : y ∈ ys) : ∃ x ∈ xs, R x y :=
  Forall₂.exists_right (R := fun y x => R x y) h.flip hy

theorem Forall₂.imp_mem {R S : α → β → Prop} {xs : List α} {ys : List β} (h : List.Forall₂ R xs ys)
    (imp : ∀ x ∈ xs, ∀ y, R x y → S x y) : List.Forall₂ S xs ys := by
  induction h with
  | nil => exact .nil
  | cons hr _ ih => exact .cons (imp _ List.mem_cons_self _ hr) (ih fun x hx => imp x (List.mem_cons_of_mem _ hx))

/-- One item is replaced by another one that corresponds to everything that it corresponded to. -/
theorem Forall₂.replace {R : α → β → Prop} {xs : List α} {earlier later : List β} {y y' : β}
    (h : List.Forall₂ R xs (earlier ++ y :: later)) (imp : ∀ x, R x y → R x y') :
    List.Forall₂ R xs (earlier ++ y' :: later) := by
  induction earlier generalizing xs with
  | nil =>
    obtain ⟨x, xs, hx, hxs, rfl⟩ := List.forall₂_cons_right_iff.mp h
    exact .cons (imp x hx) hxs
  | cons z earlier ih =>
    obtain ⟨x, xs, hx, hxs, rfl⟩ := List.forall₂_cons_right_iff.mp h
    exact .cons hx (ih hxs)

/-- Items that correspond by equality of what is made of them make the same lists. -/
theorem Forall₂.map_eq {γ : Type} {f : α → γ} {g : β → γ} {xs : List α} {ys : List β}
    (h : List.Forall₂ (fun x y => f x = g y) xs ys) : xs.map f = ys.map g := by
  rw [← List.forall₂_eq_eq_eq]
  exact List.forall₂_map_left_iff.mpr (List.forall₂_map_right_iff.mpr h)

end Lists

end Solvency
