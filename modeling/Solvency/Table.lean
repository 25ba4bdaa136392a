/-!
Tables: distinct keys with a value each, in the order in which the keys were first written. Writing a key
again replaces its value and keeps its place.
-/

namespace Solvency

/-- The rows of a table with `key` set to `value`: in the key's place, or at the end. -/
def writeRow {κ α : Type} [DecidableEq κ] (key : κ) (value : α) : List (κ × α) → List (κ × α)
  | [] => [(key, value)]
  | row :: rows => if row.1 = key then (key, value) :: rows else row :: writeRow key value rows

theorem mem_keys_writeRow {κ α : Type} [DecidableEq κ] {key k : κ} {value : α} {rows : List (κ × α)} :
    k ∈ (writeRow key value rows).map Prod.fst ↔ k = key ∨ k ∈ rows.map Prod.fst := by
  induction rows with
  | nil => simp [writeRow]
  | cons row rows ih =>
    unfold writeRow
    split
    · rename_i h
      simp [h]
    · simp only [List.map_cons, List.mem_cons, ih]
      constructor
      · rintro (h | h | h)
        · exact .inr (.inl h)
        · exact .inl h
        · exact .inr (.inr h)
      · rintro (h | h | h)
        · exact .inr (.inl h)
        · exact .inl h
        · exact .inr (.inr h)

theorem nodup_writeRow {κ α : Type} [DecidableEq κ] {key : κ} {value : α} {rows : List (κ × α)}
    (h : (rows.map Prod.fst).Nodup) : ((writeRow key value rows).map Prod.fst).Nodup := by
  induction rows with
  | nil => simp [writeRow]
  | cons row rows ih =>
    rw [List.map_cons, List.nodup_cons] at h
    unfold writeRow
    split
    · rename_i same
      rw [List.map_cons, List.nodup_cons]
      exact ⟨same ▸ h.1, h.2⟩
    · rename_i other
      rw [List.map_cons, List.nodup_cons]
      refine ⟨fun member => ?_, ih h.2⟩
      rcases mem_keys_writeRow.mp member with same | old
      · exact other same
      · exact h.1 old

/-- A table from keys to values. -/
structure Table (κ α : Type) where
  rows : List (κ × α)
  distinct : (rows.map Prod.fst).Nodup

namespace Table

variable {κ α β : Type}

/-- The table without rows. -/
def empty : Table κ α := ⟨[], by simp⟩

instance : Inhabited (Table κ α) := ⟨empty⟩

instance [Repr κ] [Repr α] : Repr (Table κ α) := ⟨fun t n => reprPrec t.rows n⟩

instance [DecidableEq κ] [DecidableEq α] : DecidableEq (Table κ α) := fun s t =>
  if h : s.rows = t.rows then
    isTrue (by cases s; cases t; cases h; rfl)
  else isFalse fun e => h (e ▸ rfl)

/-- The keys in their order. -/
def keys (t : Table κ α) : List κ := t.rows.map Prod.fst

/-- The values in the order of their keys. -/
def values (t : Table κ α) : List α := t.rows.map Prod.snd

def size (t : Table κ α) : Nat := t.rows.length

variable [DecidableEq κ]

/-- The value of `key`, if the table has one. -/
def get? (t : Table κ α) (key : κ) : Option α := (t.rows.find? fun row => row.1 = key).map Prod.snd

def insert (t : Table κ α) (key : κ) (value : α) : Table κ α :=
  ⟨writeRow key value t.rows, nodup_writeRow t.distinct⟩

/-- The table that writing the rows one after another gives. -/
def ofList (rows : List (κ × α)) : Table κ α := rows.foldl (fun t row => t.insert row.1 row.2) empty

end Table

end Solvency
