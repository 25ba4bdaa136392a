import Solvency.Cell.Dictionary
import Solvency.Proofs.Tables

/-! Dictionaries: their entries are their content. Writing the entries of a dictionary one after another gives the
    dictionary again, so that the cell it is kept in is read back as it was. -/

namespace Solvency

theorem insertEntry_of_last {key : Int} {cell : Cell} {entries : List (Int × Cell)} (h : ∀ e ∈ entries, e.1 < key) :
    insertEntry key cell entries = entries ++ [(key, cell)] := by
  induction entries with
  | nil => rfl
  | cons entry entries ih =>
    have hentry := h entry List.mem_cons_self
    rw [insertEntry, if_neg (by omega), if_neg (by omega), ih fun e he => h e (List.mem_cons_of_mem entry he),
      List.cons_append]

theorem insertEntry_perm {key : Int} {cell : Cell} {entries : List (Int × Cell)} (new : key ∉ entries.map Prod.fst) :
    (insertEntry key cell entries).Perm ((key, cell) :: entries) := by
  induction entries with
  | nil => exact List.Perm.refl _
  | cons entry entries ih =>
    rw [List.map_cons, List.mem_cons, not_or] at new
    unfold insertEntry
    split
    · exact List.Perm.refl _
    · rw [if_neg new.1]
      exact ((ih new.2).cons entry).trans (List.Perm.swap _ _ _)

namespace Dictionary

theorem ext {d d' : Dictionary} (h : d.entries = d'.entries) : d = d' := by
  cases d
  cases d'
  cases h
  rfl

theorem entries_foldl_insert {entries : List (Int × Cell)} {d : Dictionary}
    (h : (d.entries ++ entries).Pairwise fun a b => a.1 < b.1) :
    (entries.foldl (fun d e => d.insert e.1 e.2) d).entries = d.entries ++ entries := by
  induction entries generalizing d with
  | nil => exact (List.append_nil _).symm
  | cons entry entries ih =>
    have hlast : ∀ e ∈ d.entries, e.1 < entry.1 := fun e he =>
      (List.pairwise_append.mp h).2.2 e he entry List.mem_cons_self
    have hinsert : (d.insert entry.1 entry.2).entries = d.entries ++ [entry] := insertEntry_of_last hlast
    rw [List.foldl_cons, ih, hinsert, List.append_assoc, List.singleton_append]
    rw [hinsert, List.append_assoc, List.singleton_append]
    exact h

theorem entries_foldl_insert_perm {entries : List (Int × Cell)} {d : Dictionary}
    (distinct : ((d.entries ++ entries).map Prod.fst).Nodup) :
    (entries.foldl (fun d e => d.insert e.1 e.2) d).entries.Perm (d.entries ++ entries) := by
  induction entries generalizing d with
  | nil => rw [List.append_nil]; exact List.Perm.refl _
  | cons entry entries ih =>
    have hmiddle : (entry :: (d.entries ++ entries)).Perm (d.entries ++ entry :: entries) := List.perm_middle.symm
    have hdistinct := (hmiddle.map Prod.fst).nodup_iff.mpr distinct
    have hnew : entry.1 ∉ d.entries.map Prod.fst := by
      refine fun h => (List.nodup_cons.mp hdistinct).1 ?_
      rw [List.map_append]
      exact List.mem_append_left _ h
    have hinsert : (d.insert entry.1 entry.2).entries.Perm (entry :: d.entries) := insertEntry_perm hnew
    have happend := hinsert.append_right entries
    exact (ih ((happend.map Prod.fst).nodup_iff.mpr hdistinct)).trans (happend.trans hmiddle)

/-- Entries of distinct keys are the entries of their dictionary, in ascending order. -/
theorem entries_ofList_perm {entries : List (Int × Cell)} (distinct : (entries.map Prod.fst).Nodup) :
    (ofList entries).entries.Perm entries :=
  entries_foldl_insert_perm (d := empty) distinct

theorem ofList_entries (d : Dictionary) : ofList d.entries = d :=
  ext (entries_foldl_insert d.ascending)

theorem keys_nodup (d : Dictionary) : (d.entries.map Prod.fst).Nodup :=
  List.pairwise_map.mpr (d.ascending.imp Int.ne_of_lt)

theorem get?_eq_some {d : Dictionary} {key : Int} {cell : Cell} : d.get? key = some cell ↔ (key, cell) ∈ d.entries :=
  find?_key_eq_some d.keys_nodup

/-- The cell that a dictionary is kept in is read back as the dictionary. -/
theorem dictionary_of_root? {d : Dictionary} {root : Cell} (h : d.root? = some root) :
    root.dictionary Cell.defaultKeyBits = .ok d := by
  unfold root? at h
  split at h
  · cases h
  · cases h
    exact congrArg Except.ok (ofList_entries d)

theorem eq_empty_of_root? {d : Dictionary} (h : d.root? = none) : d = empty := by
  unfold root? at h
  split at h
  · rename_i hempty
    exact ext (List.isEmpty_iff.mp hempty)
  · cases h

end Dictionary

end Solvency
