import Solvency.Proofs.Entries
import Solvency.Proofs.Faults

/-! Attestations: the prices of an attestation and the dictionary that its oracle signed are two forms of one content. A
    price stands under the decimal digits of a key exactly when it stands under that key in the dictionary. -/

namespace Solvency

/-- A dictionary has a price under a key: the cell there starts with it. -/
def Dictionary.Prices (d : Dictionary) (key price : Int) : Prop :=
  ∃ cell, d.get? key = some cell ∧ cell.parse (CellReader.varUint priceMaxLength) = .ok price

section
variable {d : Dictionary} {prices : Table Text Int}

theorem readPrices_inv (h : readPrices d = .ok prices) :
    List.Forall₂ (fun entry row => row.1 = Text.decimal entry.1 ∧
      entry.2.parse (CellReader.varUint priceMaxLength) = .ok row.2) d.entries prices.rows :=
  readEntries_eq_ok.mp h

theorem get?_readPrices (h : readPrices d = .ok prices) {key price : Int} :
    prices.get? (Text.decimal key) = some price ↔ d.Prices key price := by
  have hread := readPrices_inv h
  rw [Table.get?_eq_some]
  constructor
  · intro hrow
    obtain ⟨entry, hentry, hkey, hprice⟩ := Forall₂.exists_left hread hrow
    exact ⟨entry.2, Dictionary.get?_eq_some.mpr (Text.decimal_injective hkey ▸ hentry), hprice⟩
  · rintro ⟨cell, hcell, hprice⟩
    obtain ⟨row, hrow, hkey, hprice'⟩ := Forall₂.exists_right hread (Dictionary.get?_eq_some.mp hcell)
    obtain rfl := Except.ok.inj (hprice.symm.trans hprice')
    exact hkey ▸ hrow

end

/-- An attestation that was read has the prices of its dictionary. -/
theorem Attestation.read_inv {codec : Codec} {raw : Text} {a : Attestation} (h : Attestation.read codec raw = .ok a) :
    readPrices a.dictionary = .ok a.prices := by
  obtain ⟨entries, -, h⟩ := read_eq_ok.mp h
  obtain ⟨packed, -, -, -, -, hunpack, -⟩ := ofObject_eq_ok.mp h
  obtain ⟨bag, root, -, -, -, hprices⟩ := unpackPrices_eq_ok.mp hunpack
  exact hprices

end Solvency
