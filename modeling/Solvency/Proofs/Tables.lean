import Mathlib.Data.List.Induction
import Mathlib.Data.List.Nodup
import Solvency.Table

/-! Tables: what a table holds after its rows were written one after another. Every row is one of those written, the
    keys stand in the order of their first writing, the value of a key is the one written last, and rows of distinct
    keys are the rows of the table. -/

namespace Solvency

/-- The last of the items that have a property. -/
def IsLast {α : Type} (p : α → Prop) (x : α) (xs : List α) : Prop :=
  ∃ earlier later, xs = earlier ++ x :: later ∧ p x ∧ ∀ y ∈ later, ¬p y

theorem IsLast.holds {α : Type} {p : α → Prop} {x : α} {xs : List α} (h : IsLast p x xs) : p x := by
  obtain ⟨-, -, -, h, -⟩ := h
  exact h

theorem IsLast.mem {α : Type} {p : α → Prop} {x : α} {xs : List α} (h : IsLast p x xs) : x ∈ xs := by
  obtain ⟨earlier, later, rfl, -⟩ := h
  simp

theorem isLast_concat {α : Type} {p : α → Prop} {x y : α} {xs : List α} :
    IsLast p x (xs ++ [y]) ↔ p y ∧ x = y ∨ ¬p y ∧ IsLast p x xs := by
  constructor
  · rintro ⟨earlier, later, h, hx, hlater⟩
    rcases List.eq_nil_or_concat later with rfl | ⟨later, z, rfl⟩
    · obtain ⟨rfl, hy⟩ := List.append_inj' h rfl
      obtain rfl := List.cons.inj hy |>.1
      exact Or.inl ⟨hx, rfl⟩
    · rw [List.concat_eq_append, ← List.cons_append, ← List.append_assoc] at h
      obtain ⟨rfl, hy⟩ := List.append_inj' h rfl
      obtain rfl := List.cons.inj hy |>.1
      exact Or.inr ⟨hlater y (by simp), earlier, later, rfl, hx, fun w hw => hlater w (by simp [hw])⟩
  · rintro (⟨hy, rfl⟩ | ⟨hy, earlier, later, rfl, hx, hlater⟩)
    · exact ⟨xs, [], rfl, hy, List.forall_mem_nil _⟩
    · exact ⟨earlier, later ++ [y], by simp, hx, by simpa [or_imp, forall_and] using ⟨hlater, hy⟩⟩

theorem exists_isLast_iff {α : Type} {p : α → Prop} {xs : List α} : (∃ x, IsLast p x xs) ↔ ∃ x ∈ xs, p x := by
  induction xs using List.reverseRecOn with
  | nil => simp [IsLast]
  | append_singleton xs y ih =>
    simp only [isLast_concat, exists_or, exists_and_left, exists_eq, and_true, ih, List.mem_append, List.mem_singleton,
      or_and_right, exists_eq_left]
    by_cases hy : p y <;> simp [hy]

section Rows
variable {κ α : Type} [DecidableEq κ]

theorem mem_writeRow {key : κ} {value : α} {rows : List (κ × α)} {row : κ × α} (h : row ∈ writeRow key value rows) :
    row = (key, value) ∨ row ∈ rows := by
  induction rows with
  | nil => exact Or.inl (List.mem_singleton.mp h)
  | cons r rows ih =>
    unfold writeRow at h
    split at h
    · exact (List.mem_cons.mp h).imp id (List.mem_cons_of_mem r)
    · rcases List.mem_cons.mp h with rfl | h
      · exact Or.inr List.mem_cons_self
      · exact (ih h).imp id (List.mem_cons_of_mem r)

theorem writeRow_of_new {key : κ} {value : α} {rows : List (κ × α)} (h : key ∉ rows.map Prod.fst) :
    writeRow key value rows = rows ++ [(key, value)] := by
  induction rows with
  | nil => rfl
  | cons r rows ih =>
    rw [List.map_cons, List.mem_cons, not_or] at h
    rw [writeRow, if_neg (Ne.symm h.1), ih h.2, List.cons_append]

theorem keys_writeRow_of_old {key : κ} {value : α} {rows : List (κ × α)} (h : key ∈ rows.map Prod.fst) :
    (writeRow key value rows).map Prod.fst = rows.map Prod.fst := by
  induction rows with
  | nil => cases h
  | cons r rows ih =>
    unfold writeRow
    split
    · rename_i hr
      rw [List.map_cons, List.map_cons, hr]
    · rename_i hr
      rcases List.mem_cons.mp h with rfl | h
      · exact absurd rfl hr
      · rw [List.map_cons, List.map_cons, ih h]

theorem find?_writeRow {key k : κ} {value : α} {rows : List (κ × α)} :
    ((writeRow key value rows).find? fun row => row.1 = k).map Prod.snd =
      if k = key then some value else (rows.find? fun row => row.1 = k).map Prod.snd := by
  induction rows with
  | nil => by_cases h : k = key <;> simp [writeRow, h, Ne.symm]
  | cons r rows ih =>
    unfold writeRow
    by_cases hr : r.1 = key
    · by_cases h : k = key
      · simp [hr, h]
      · simp [hr, h, Ne.symm h]
    · by_cases hk : r.1 = k
      · simp [hk, hk ▸ hr]
      · simp [hr, hk, ih]

/-- Looking a key up among rows of distinct keys finds the row of that key. -/
theorem find?_key_eq_some {key : κ} {value : α} {rows : List (κ × α)} (distinct : (rows.map Prod.fst).Nodup) :
    (rows.find? fun row => row.1 = key).map Prod.snd = some value ↔ (key, value) ∈ rows := by
  rw [Option.map_eq_some_iff]
  constructor
  · rintro ⟨row, hrow, rfl⟩
    have hkey : row.1 = key := by simpa using List.find?_some hrow
    exact hkey ▸ List.mem_of_find?_eq_some hrow
  · intro h
    obtain ⟨row, hrow⟩ : ∃ row, rows.find? (fun row => row.1 = key) = some row :=
      Option.isSome_iff_exists.mp (List.find?_isSome.mpr ⟨_, h, by simp⟩)
    have hkey : row.1 = key := by simpa using List.find?_some hrow
    have hsame : row = (key, value) :=
      List.inj_on_of_nodup_map distinct (List.mem_of_find?_eq_some hrow) h hkey
    exact ⟨row, hrow, by rw [hsame]⟩

end Rows

namespace Table
variable {κ α β : Type}

theorem ext {t t' : Table κ α} (h : t.rows = t'.rows) : t = t' := by
  cases t
  cases t'
  cases h
  rfl

variable [DecidableEq κ]

theorem get?_eq_some {t : Table κ α} {key : κ} {value : α} : t.get? key = some value ↔ (key, value) ∈ t.rows :=
  find?_key_eq_some t.distinct

theorem get?_insert (t : Table κ α) (key : κ) (value : α) (k : κ) :
    (t.insert key value).get? k = if k = key then some value else t.get? k := find?_writeRow

/-! ### Rows written one after another -/

/-- The value of a key is the one in the last row of that key. -/
theorem get?_ofList {rows : List (κ × α)} {key : κ} {value : α} :
    (ofList rows).get? key = some value ↔ IsLast (fun row => row.1 = key) (key, value) rows := by
  induction rows using List.reverseRecOn with
  | nil => simp [ofList, empty, get?, IsLast]
  | append_singleton rows row ih =>
    have hlast : ofList (rows ++ [row]) = (ofList rows).insert row.1 row.2 := List.foldl_concat _ _ _ _
    rw [hlast, get?_insert, isLast_concat]
    by_cases hkey : key = row.1
    · subst hkey
      simp [Prod.ext_iff, eq_comm]
    · simp [hkey, Ne.symm hkey, ih]

theorem mem_foldl_insert {rows : List (κ × α)} {t : Table κ α} {row : κ × α}
    (h : row ∈ (rows.foldl (fun t row => t.insert row.1 row.2) t).rows) : row ∈ t.rows ∨ row ∈ rows := by
  induction rows generalizing t with
  | nil => exact Or.inl h
  | cons r rows ih =>
    rcases ih h with h | h
    · exact (mem_writeRow h).elim (fun h => Or.inr (h ▸ List.mem_cons_self)) Or.inl
    · exact Or.inr (List.mem_cons_of_mem r h)

theorem mem_rows_of_ofList {rows : List (κ × α)} {row : κ × α} (h : row ∈ (ofList rows).rows) : row ∈ rows :=
  (mem_foldl_insert h).resolve_left (by simp [empty])

theorem mem_keys_foldl_insert {rows : List (κ × α)} {t : Table κ α} {key : κ} :
    key ∈ (rows.foldl (fun t row => t.insert row.1 row.2) t).keys ↔ key ∈ t.keys ∨ key ∈ rows.map Prod.fst := by
  induction rows generalizing t with
  | nil => simp
  | cons r rows ih =>
    have hr : key ∈ (t.insert r.1 r.2).keys ↔ key = r.1 ∨ key ∈ t.keys := mem_keys_writeRow
    rw [List.foldl_cons, ih, hr, List.map_cons, List.mem_cons, or_comm (a := key = r.1), or_assoc]

theorem mem_keys_ofList {rows : List (κ × α)} {key : κ} : key ∈ (ofList rows).keys ↔ key ∈ rows.map Prod.fst :=
  mem_keys_foldl_insert.trans (by simp [empty, keys])

theorem keys_foldl_insert_sublist {rows : List (κ × α)} {t : Table κ α} :
    (rows.foldl (fun t row => t.insert row.1 row.2) t).keys.Sublist (t.keys ++ rows.map Prod.fst) := by
  induction rows generalizing t with
  | nil => simp
  | cons r rows ih =>
    rw [List.foldl_cons, List.map_cons]
    refine ih.trans ?_
    by_cases hr : r.1 ∈ t.keys
    · have hkeys : (t.insert r.1 r.2).keys = t.keys := keys_writeRow_of_old hr
      rw [hkeys]
      exact (List.sublist_cons_self _ _).append_left _
    · have hkeys : (t.insert r.1 r.2).keys = t.keys ++ [r.1] := by
        show (writeRow r.1 r.2 t.rows).map Prod.fst = _
        rw [writeRow_of_new hr, List.map_append]
        rfl
      rw [hkeys, List.append_assoc]
      exact List.Sublist.refl _

theorem keys_ofList_sublist (rows : List (κ × α)) : (ofList rows).keys.Sublist (rows.map Prod.fst) :=
  keys_foldl_insert_sublist

theorem rows_foldl_insert_of_nodup {rows : List (κ × α)} {t : Table κ α} (h : (t.keys ++ rows.map Prod.fst).Nodup) :
    (rows.foldl (fun t row => t.insert row.1 row.2) t).rows = t.rows ++ rows := by
  induction rows generalizing t with
  | nil => simp
  | cons r rows ih =>
    have hnew : r.1 ∉ t.rows.map Prod.fst := fun hr =>
      (List.nodup_append.mp h).2.2 r.1 hr r.1 (by simp) rfl
    have hrows : (t.insert r.1 r.2).rows = t.rows ++ [r] := writeRow_of_new hnew
    have hkeys : (t.insert r.1 r.2).keys = t.keys ++ [r.1] := by rw [keys, hrows, List.map_append]; rfl
    rw [List.foldl_cons, ih (by rw [hkeys, List.append_assoc]; exact h), hrows, List.append_assoc]
    rfl

/-- Rows of distinct keys are the rows of their table. -/
theorem rows_ofList_of_nodup {rows : List (κ × α)} (h : (rows.map Prod.fst).Nodup) : (ofList rows).rows = rows :=
  rows_foldl_insert_of_nodup (t := empty) (by simpa [keys, empty] using h)

/-- The rows of a table, written one after another, are the table again. -/
theorem ofList_rows (t : Table κ α) : ofList t.rows = t := ext (rows_ofList_of_nodup t.distinct)

end Table

end Solvency
