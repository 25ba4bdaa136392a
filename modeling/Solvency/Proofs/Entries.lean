import Mathlib.Data.List.Perm.Basic
import Solvency.Oracle.Attestation
import Solvency.Position.Account
import Solvency.Proofs.Decimals
import Solvency.Proofs.Dictionaries
import Solvency.Proofs.Readers

/-! Entries: the table that is read of a dictionary, one row for each entry, under the decimal digits of its key. What
    was written under distinct keys is read back in ascending order of the keys. -/

namespace Solvency

/-- The row of an entry: its value under the decimal digits of its key. -/
def readEntry (value : CellReader Int) (entry : Int × Cell) : Except CellError (Text × Int) := do
  return (Text.decimal entry.1, ← entry.2.parse value)

def readEntries (value : CellReader Int) (d : Dictionary) : Except CellError (Table Text Int) := do
  let rows ← d.entries.mapM (readEntry value)
  return .ofList rows

theorem Position.principalsOf_eq (d : Dictionary) : principalsOf d = readEntries (.int principalBits) d := rfl

/-- The dictionary of values that are kept in cells of a form. -/
def dictionaryOf (form : Int → Cell) (items : List (Int × Int)) : Dictionary :=
  .ofList (items.map fun item => (item.1, form item.2))

/-- The rows of items under the decimal digits of their keys. -/
def decimalRows (items : List (Int × Int)) : List (Text × Int) := items.map fun item => (Text.decimal item.1, item.2)

section
variable {value : CellReader Int} {d : Dictionary} {rows : Table Text Int}

theorem readEntry_eq_ok {entry : Int × Cell} {row : Text × Int} :
    readEntry value entry = .ok row ↔ row.1 = Text.decimal entry.1 ∧ entry.2.parse value = .ok row.2 := by
  simp only [readEntry, bind_eq_ok, pure_eq_ok]
  constructor
  · rintro ⟨a, ha, rfl⟩
    exact ⟨rfl, ha⟩
  · rintro ⟨hkey, ha⟩
    exact ⟨row.2, ha, Prod.ext hkey.symm rfl⟩

theorem readEntries_eq_ok : readEntries value d = .ok rows ↔
    List.Forall₂ (fun entry row => row.1 = Text.decimal entry.1 ∧ entry.2.parse value = .ok row.2) d.entries
      rows.rows := by
  have hdistinct : ∀ rows : List (Text × Int), List.Forall₂ (fun (entry : Int × Cell) (row : Text × Int) =>
      row.1 = Text.decimal entry.1 ∧ entry.2.parse value = .ok row.2) d.entries rows →
      (rows.map Prod.fst).Nodup := by
    -- Keys of different numbers differ as texts, so that no row replaces another one.
    intro rows hrows
    have hkeys : (d.entries.map Prod.fst).map Text.decimal = rows.map Prod.fst := by
      rw [List.map_map]
      exact Forall₂.map_eq (hrows.imp fun _ _ hrow => hrow.1.symm)
    exact hkeys ▸ d.keys_nodup.map fun _ _ => Text.decimal_injective
  rw [readEntries, bind_eq_ok]
  simp only [mapM_eq_ok, readEntry_eq_ok, pure_eq_ok]
  constructor
  · rintro ⟨rows', hrows, rfl⟩
    rwa [Table.rows_ofList_of_nodup (hdistinct rows' hrows)]
  · intro hrows
    exact ⟨rows.rows, hrows, Table.ofList_rows rows⟩

theorem exists_readEntries_iff :
    (∃ rows, readEntries value d = .ok rows) ↔ ∀ entry ∈ d.entries, ∃ a, entry.2.parse value = .ok a := by
  constructor
  · rintro ⟨rows, h⟩ entry hentry
    obtain ⟨row, -, -, ha⟩ := Forall₂.exists_right (readEntries_eq_ok.mp h) hentry
    exact ⟨row.2, ha⟩
  · intro h
    obtain ⟨rows, hrows⟩ := exists_mapM_ok (f := readEntry value) fun entry hentry => by
      obtain ⟨a, ha⟩ := h entry hentry
      exact ⟨(Text.decimal entry.1, a), readEntry_eq_ok.mpr ⟨rfl, ha⟩⟩
    exact ⟨.ofList rows, bind_eq_ok.mpr ⟨rows, hrows, rfl⟩⟩

end

/-- Items of distinct keys are read back from their dictionary in ascending order. -/
theorem exists_readEntries (form : Int → Cell) (value : CellReader Int) {items : List (Int × Int)}
    (distinct : (items.map Prod.fst).Nodup) (reads : ∀ item ∈ items, (form item.2).parse value = .ok item.2) :
    ∃ sorted rows, sorted.Perm items ∧ (sorted.Pairwise fun a b => a.1 < b.1) ∧
      readEntries value (dictionaryOf form items) = .ok rows ∧ rows.rows = decimalRows sorted := by
  have hkeys : ((items.map fun item => (item.1, form item.2)).map Prod.fst).Nodup := by
    rw [List.map_map]
    exact distinct
  have hentries : List.Forall₂ (fun (entry : Int × Cell) item => entry = (item.1, form item.2))
      (items.map fun item => (item.1, form item.2)) items :=
    List.forall₂_map_left_iff.mpr (List.forall₂_same.mpr fun _ _ => rfl)
  obtain ⟨sorted, hsorted, hperm⟩ := List.perm_comp_forall₂ (Dictionary.entries_ofList_perm hkeys) hentries
  have hstored : (dictionaryOf form items).entries = sorted.map fun item => (item.1, form item.2) := by
    have h := Forall₂.map_eq (f := id) hsorted
    rwa [List.map_id] at h
  have hascending : sorted.Pairwise fun a b => a.1 < b.1 := by
    have h := (dictionaryOf form items).ascending
    rwa [hstored, List.pairwise_map] at h
  have hdistinct : ((decimalRows sorted).map Prod.fst).Nodup := by
    have h : (decimalRows sorted).map Prod.fst = (sorted.map Prod.fst).map Text.decimal := by simp [decimalRows]
    rw [h]
    exact (((hperm.map Prod.fst).nodup_iff).mpr distinct).map fun _ _ => Text.decimal_injective
  refine ⟨sorted, ⟨decimalRows sorted, hdistinct⟩, hperm, hascending, readEntries_eq_ok.mpr ?_, rfl⟩
  rw [hstored]
  exact forall₂_map_map fun item hitem => ⟨rfl, reads item (hperm.mem_iff.mp hitem)⟩

end Solvency
