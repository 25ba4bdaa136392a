import Solvency.Cell.Basic

/-!
Dictionaries: cells under integer keys, in ascending order of the keys. Writing a key again replaces its cell.
-/

namespace Solvency

/-- The entries with `key` set to `cell`, in ascending order if they were. -/
def insertEntry (key : Int) (cell : Cell) : List (Int × Cell) → List (Int × Cell)
  | [] => [(key, cell)]
  | entry :: rest =>
    if key < entry.1 then (key, cell) :: entry :: rest
    else if key = entry.1 then (key, cell) :: rest
    else entry :: insertEntry key cell rest

theorem mem_insertEntry {key : Int} {cell : Cell} {entries : List (Int × Cell)} {e : Int × Cell}
    (h : e ∈ insertEntry key cell entries) : e = (key, cell) ∨ e ∈ entries := by
  induction entries with
  | nil => exact .inl (List.mem_singleton.mp h)
  | cons entry rest ih =>
    unfold insertEntry at h
    split at h
    · exact List.mem_cons.mp h
    · split at h
      · rcases List.mem_cons.mp h with new | old
        · exact .inl new
        · exact .inr (List.mem_cons_of_mem _ old)
      · rcases List.mem_cons.mp h with first | later
        · exact .inr (first ▸ List.mem_cons_self)
        · exact (ih later).imp id (List.mem_cons_of_mem _)

theorem ascending_insertEntry {key : Int} {cell : Cell} {entries : List (Int × Cell)}
    (h : entries.Pairwise fun a b => a.1 < b.1) : (insertEntry key cell entries).Pairwise fun a b => a.1 < b.1 := by
  induction entries with
  | nil => simp [insertEntry]
  | cons entry rest ih =>
    obtain ⟨first, later⟩ := List.pairwise_cons.mp h
    unfold insertEntry
    split
    · rename_i less
      refine List.pairwise_cons.mpr ⟨fun e member => ?_, h⟩
      rcases List.mem_cons.mp member with rfl | old
      · exact less
      · exact Int.lt_trans less (first e old)
    · split
      · rename_i same
        exact List.pairwise_cons.mpr ⟨fun e member => same ▸ first e member, later⟩
      · rename_i notLess notSame
        refine List.pairwise_cons.mpr ⟨fun e member => ?_, ih later⟩
        rcases mem_insertEntry member with rfl | old
        · show entry.1 < key
          omega
        · exact first e old

/-- Cells under ascending keys. -/
structure Dictionary where
  entries : List (Int × Cell)
  ascending : entries.Pairwise fun a b => a.1 < b.1

namespace Dictionary

/-- The dictionary without entries. -/
def empty : Dictionary := ⟨[], .nil⟩

instance : Inhabited Dictionary := ⟨empty⟩

instance : Repr Dictionary := ⟨fun d n => reprPrec d.entries n⟩

def insert (d : Dictionary) (key : Int) (cell : Cell) : Dictionary :=
  ⟨insertEntry key cell d.entries, ascending_insertEntry d.ascending⟩

/-- The dictionary that writing the entries one after another gives. -/
def ofList (entries : List (Int × Cell)) : Dictionary := entries.foldl (fun d e => d.insert e.1 e.2) empty

/-- The cell under `key`, if there is one. -/
def get? (d : Dictionary) (key : Int) : Option Cell := (d.entries.find? fun e => e.1 = key).map Prod.snd

/-- The root cell; the empty dictionary has none. -/
def root? (d : Dictionary) : Option Cell :=
  if d.entries.isEmpty then none else some (.node [] [] (some d.entries) Cell.defaultKeyBits)

end Dictionary

/-- The dictionary that a cell is the root of, if its keys have the asked width. -/
def Cell.dictionary (cell : Cell) (bits : Nat) : Except CellError Dictionary :=
  if cell.keyBits = bits then
    match cell.entries with
    | some entries => .ok (.ofList entries)
    | none => .error .notDictionary
  else .error (.keyWidth cell.keyBits bits)

end Solvency
