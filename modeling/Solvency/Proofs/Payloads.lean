import Solvency.Oracle.Payload
import Solvency.Oracle.PayloadReader
import Solvency.Proofs.Dictionaries
import Solvency.Proofs.Ordering
import Solvency.Proofs.Traversal

/-! Payloads: what packing succeeds with, and what is read back from it. A chain is packed from its last cell on, so
    that it is read in the opposite order; each cell of it carries one item, whatever follows. -/

namespace Solvency

/-! ### Cells -/

namespace CellBuilder
variable {b b' : CellBuilder}

theorem uint_eq_ok {value : Int} {bits : Nat} :
    b.uint value bits = .ok b' ↔ (0 ≤ value ∧ value < Nat.pow 2 bits) ∧ b.token (.uint bits value) = b' := by
  unfold uint
  split
  · rename_i h
    rw [Except.ok.injEq, and_iff_right h]
  · rename_i h
    exact iff_of_false (by simp) fun h' => h h'.1

theorem coins_eq_ok {value : Int} : b.coins value = .ok b' ↔ 0 ≤ value ∧ b.token (.coins 0 value) = b' := by
  unfold coins
  split
  · rename_i h
    exact iff_of_false (by simp) fun h' => Int.not_lt.mpr h'.1 h
  · rename_i h
    rw [Except.ok.injEq, and_iff_right (Int.not_lt.mp h)]

theorem cell_maybeRef (next : Option Cell) :
    (b.maybeRef next).cell = .ofParts (b.tokens ++ [.maybe 1 next.isSome]) (b.refs ++ next.toList) := by
  cases next with
  | none => rw [Option.toList_none, List.append_nil]; rfl
  | some cell => rfl

end CellBuilder

theorem medianCell_eq_ok {id price : Int} {next : Option Cell} {cell : Cell} :
    medianCell id price next = .ok cell ↔ (0 ≤ id ∧ id < Nat.pow 2 256) ∧ 0 ≤ price ∧
      cell = .ofParts [.uint 256 id, .coins 0 price, .maybe 1 next.isSome] next.toList := by
  unfold medianCell
  simp only [bind_eq_ok, CellBuilder.uint_eq_ok, CellBuilder.coins_eq_ok, pure_eq_ok, CellBuilder.cell_maybeRef]
  constructor
  · rintro ⟨_, ⟨hid, rfl⟩, _, ⟨hprice, rfl⟩, rfl⟩
    exact ⟨hid, hprice, rfl⟩
  · rintro ⟨hid, hprice, rfl⟩
    exact ⟨_, ⟨hid, rfl⟩, _, ⟨hprice, rfl⟩, rfl⟩

theorem oracleCell_eq_ok {id : Int} {proof cell : Cell} {signature : List UInt8} {next : Option Cell} :
    oracleCell id proof signature next = .ok cell ↔ (0 ≤ id ∧ id < Nat.pow 2 32) ∧
      cell = .ofParts [.uint 32 id, .bytes (signature.length * 8) signature, .maybe 1 next.isSome]
        (proof :: next.toList) := by
  unfold oracleCell
  simp only [bind_eq_ok, CellBuilder.uint_eq_ok, pure_eq_ok, CellBuilder.cell_maybeRef]
  constructor
  · rintro ⟨_, ⟨hid, rfl⟩, rfl⟩
    exact ⟨hid, rfl⟩
  · rintro ⟨hid, rfl⟩
    exact ⟨_, ⟨hid, rfl⟩, rfl⟩

namespace Attestation
variable {a : Attestation} {codec : Codec} {cell : Cell}

theorem signedCell_eq_ok :
    a.signedCell = .ok cell ↔ (0 ≤ a.timestamp ∧ a.timestamp < Nat.pow 2 32) ∧
      cell = .ofParts [.uint 32 a.timestamp, .maybe 1 a.dictionary.root?.isSome] a.dictionary.root?.toList := by
  unfold signedCell
  simp only [bind_eq_ok, CellBuilder.uint_eq_ok, pure_eq_ok, CellBuilder.cell_maybeRef]
  constructor
  · rintro ⟨_, ⟨htime, rfl⟩, rfl⟩
    exact ⟨htime, rfl⟩
  · rintro ⟨htime, rfl⟩
    exact ⟨_, ⟨htime, rfl⟩, rfl⟩

/-- What the oracle of an attestation signed. -/
def signed (a : Attestation) : SignedPrices := ⟨a.timestamp, a.dictionary⟩

/-- What an oracle signed is read back from the signed cell. -/
theorem parse_signedCell (h : a.signedCell = .ok cell) : cell.parse SignedPrices.reader = .ok a.signed := by
  obtain ⟨-, rfl⟩ := signedCell_eq_ok.mp h
  cases hroot : a.dictionary.root? with
  | none =>
    rw [signed, Dictionary.eq_empty_of_root? hroot]
    rfl
  | some root =>
    have hread : root.dictionary priceKeyBits = .ok a.dictionary := Dictionary.dictionary_of_root? hroot
    simp only [Cell.parse, SignedPrices.reader, StateT.run, Cell.slice]
    show Except.map Prod.fst ((root.dictionary priceKeyBits >>= _) >>= _) = _
    rw [hread]
    rfl

theorem proof_eq_ok :
    a.proof codec = .ok cell ↔ ∃ signed, a.signedCell = .ok signed ∧ codec.prove signed = .ok cell := by
  rw [proof, mapError_eq_ok, bind_eq_ok]

theorem identified_eq_ok {e : Int × Attestation} : a.identified = .ok e ↔ a.oracleId = some e.1 ∧ a = e.2 := by
  unfold identified
  cases a.oracleId with
  | none => simp
  | some id => simp [Prod.ext_iff]

end Attestation

/-! ### Chains -/

/-- What is packed of a chain is read as items: nothing as none, a cell as a reader reads it. -/
def ReadsAs {β : Type} (read : Cell → Option (List β)) : Option Cell → List β → Prop
  | none, ys => ys = []
  | some cell, ys => read cell = some ys

section Chains
variable {α β : Type} {pack : α → Option Cell → Except PackError Cell} {items : List α}

theorem readsAs_foldlM {read : Cell → Option (List β)} {R : α → β → Prop} {start chain : Option Cell} {ys : List β}
    (step : ∀ item next ys cell, pack item next = .ok cell → ReadsAs read next ys →
      ∃ y, R item y ∧ read cell = some (y :: ys))
    (reads : ReadsAs read start ys)
    (h : items.foldlM (fun chain item => some <$> pack item chain) start = .ok chain) :
    ∃ zs, List.Forall₂ R items zs ∧ ReadsAs read chain (zs.reverse ++ ys) := by
  induction items generalizing start ys with
  | nil =>
    obtain rfl := pure_eq_ok.mp h
    exact ⟨[], .nil, reads⟩
  | cons item items ih =>
    rw [List.foldlM_cons] at h
    obtain ⟨_, hitem, h⟩ := bind_eq_ok.mp h
    obtain ⟨cell, hcell, rfl⟩ := map_eq_ok.mp hitem
    obtain ⟨y, hy, hread⟩ := step item start ys cell hcell reads
    obtain ⟨zs, hzs, hreads⟩ := ih (show ReadsAs read (some cell) (y :: ys) from hread) h
    refine ⟨y :: zs, .cons hy hzs, ?_⟩
    rw [List.reverse_cons, List.append_assoc, List.singleton_append]
    exact hreads

/-- If a cell is read as its item in front of what the rest is read as, a chain is read as its items from the last one
    on. -/
theorem readsAs_packChain {read : Cell → Option (List β)} {R : α → β → Prop} {chain : Option Cell}
    (step : ∀ item next ys cell, pack item next = .ok cell → ReadsAs read next ys →
      ∃ y, R item y ∧ read cell = some (y :: ys))
    (h : packChain pack items = .ok chain) : ∃ zs, List.Forall₂ R items zs ∧ ReadsAs read chain zs.reverse := by
  obtain ⟨zs, hzs, hreads⟩ := readsAs_foldlM step (show ReadsAs read none [] from rfl) h
  rw [List.append_nil] at hreads
  exact ⟨zs, hzs, hreads⟩

theorem exists_foldlM_some (nonempty : items ≠ [])
    (packs : ∀ item ∈ items, ∀ next, ∃ cell, pack item next = .ok cell) (start : Option Cell) :
    ∃ cell, items.foldlM (fun chain item => some <$> pack item chain) start = .ok (some cell) := by
  induction items generalizing start with
  | nil => exact absurd rfl nonempty
  | cons item items ih =>
    obtain ⟨cell, hcell⟩ := packs item List.mem_cons_self start
    cases items with
    | nil => exact ⟨cell, bind_eq_ok.mpr ⟨some cell, map_eq_ok.mpr ⟨cell, hcell, rfl⟩, rfl⟩⟩
    | cons item' items =>
      obtain ⟨last, hlast⟩ := ih (List.cons_ne_nil _ _) (fun i hi => packs i (List.mem_cons_of_mem item hi)) (some cell)
      exact ⟨last, bind_eq_ok.mpr ⟨some cell, map_eq_ok.mpr ⟨cell, hcell, rfl⟩, hlast⟩⟩

theorem exists_packChain (nonempty : items ≠ [])
    (packs : ∀ item ∈ items, ∀ next, ∃ cell, pack item next = .ok cell) :
    ∃ cell, packChain pack items = .ok (some cell) := exists_foldlM_some nonempty packs none

end Chains

/-! ### Medians -/

theorem packMedian_eq_ok {row : Text × Int} {next : Option Cell} {cell : Cell} :
    packMedian row next = .ok cell ↔ ∃ id, Text.readInteger row.1 = some id ∧ medianCell id row.2 next = .ok cell := by
  unfold packMedian
  cases Text.readInteger row.1 with
  | none => simp
  | some id => simp [mapError_eq_ok]

theorem readMedians_of_packMedian {row : Text × Int} {next : Option Cell} {ys : List (Int × Int)} {cell : Cell}
    (h : packMedian row next = .ok cell) (reads : ReadsAs readMedians next ys) :
    ∃ y, (Text.readInteger row.1 = some y.1 ∧ row.2 = y.2) ∧ readMedians cell = some (y :: ys) := by
  obtain ⟨id, hid, hcell⟩ := packMedian_eq_ok.mp h
  obtain ⟨-, -, rfl⟩ := medianCell_eq_ok.mp hcell
  refine ⟨(id, row.2), ⟨hid, rfl⟩, ?_⟩
  cases next with
  | none =>
    obtain rfl : ys = [] := reads
    rfl
  | some cell =>
    have hread : readMedians cell = some ys := reads
    show (readMedians cell).map ((id, row.2) :: ·) = _
    rw [hread]
    rfl

/-- Packed medians are read back from the last row on. -/
theorem packMedians_inv {medians : Table Text Int} {cell : Cell} (h : packMedians medians = .ok cell) :
    ∃ rows, List.Forall₂ (fun row y => Text.readInteger row.1 = some y.1 ∧ row.2 = y.2) medians.rows rows ∧
      readMedians cell = some rows.reverse := by
  obtain ⟨chain, hchain, h⟩ := bind_eq_ok.mp h
  obtain ⟨rows, hrows, hreads⟩ :=
    readsAs_packChain (fun _ _ _ _ hpack hnext => readMedians_of_packMedian hpack hnext) hchain
  cases chain with
  | none => cases h
  | some chain =>
    obtain rfl := pure_eq_ok.mp h
    exact ⟨rows, hrows, hreads⟩

theorem exists_packMedians {medians : Table Text Int} (nonempty : medians.rows ≠ [])
    (packs : ∀ row ∈ medians.rows,
      (∃ id, Text.readInteger row.1 = some id ∧ 0 ≤ id ∧ id < Nat.pow 2 256) ∧ 0 ≤ row.2) :
    ∃ cell, packMedians medians = .ok cell := by
  obtain ⟨cell, hcell⟩ : ∃ cell, packChain packMedian medians.rows = .ok (some cell) := by
    refine exists_packChain nonempty fun row hrow next => ?_
    obtain ⟨⟨id, hid, hbounds⟩, hprice⟩ := packs row hrow
    exact ⟨_, packMedian_eq_ok.mpr ⟨id, hid, medianCell_eq_ok.mpr ⟨hbounds, hprice, rfl⟩⟩⟩
  exact ⟨cell, bind_eq_ok.mpr ⟨some cell, hcell, rfl⟩⟩

/-! ### Oracles -/

/-- An oracle in a payload carries an attestation: its signature, and a proof of what was signed. -/
def Carries (codec : Codec) (entry : Int × Attestation) (o : ProvedOracle) : Prop :=
  o.id = entry.1 ∧ o.signature = entry.2.signature ∧
    ∃ signed, entry.2.signedCell = .ok signed ∧ codec.prove signed = .ok o.proof

section Oracles
variable {codec : Codec}

theorem packOracle_eq_ok {entry : Int × Attestation} {next : Option Cell} {cell : Cell} :
    packOracle codec entry next = .ok cell ↔
      ∃ proof, entry.2.proof codec = .ok proof ∧ oracleCell entry.1 proof entry.2.signature next = .ok cell := by
  simp only [packOracle, bind_eq_ok, mapError_eq_ok]

theorem readOracles_of_packOracle {entry : Int × Attestation} {next : Option Cell} {ys : List ProvedOracle}
    {cell : Cell} (h : packOracle codec entry next = .ok cell) (reads : ReadsAs readOracles next ys) :
    ∃ y, Carries codec entry y ∧ readOracles cell = some (y :: ys) := by
  obtain ⟨proof, hproof, hcell⟩ := packOracle_eq_ok.mp h
  obtain ⟨-, rfl⟩ := oracleCell_eq_ok.mp hcell
  refine ⟨⟨entry.1, proof, entry.2.signature⟩, ⟨rfl, rfl, Attestation.proof_eq_ok.mp hproof⟩, ?_⟩
  cases next with
  | none =>
    obtain rfl : ys = [] := reads
    rfl
  | some cell =>
    have hread : readOracles cell = some ys := reads
    show (readOracles cell).map (⟨entry.1, proof, entry.2.signature⟩ :: ·) = _
    rw [hread]
    rfl

/-- Packed oracles are read back in ascending order of their ids. -/
theorem packOracles_inv {quorum : List Attestation} {cell : Cell} (h : packOracles codec quorum = .ok cell) :
    ∃ entries sorted oracles, List.Forall₂ (fun a e => a.oracleId = some e.1 ∧ a = e.2) quorum entries ∧
      sorted.Perm entries ∧ sorted.Pairwise (fun e e' => e.1 ≤ e'.1) ∧
      List.Forall₂ (Carries codec) sorted oracles ∧ readOracles cell = some oracles := by
  obtain ⟨entries, hentries, h⟩ := bind_eq_ok.mp h
  obtain ⟨chain, hchain, h⟩ := bind_eq_ok.mp h
  obtain ⟨oracles, horacles, hreads⟩ :=
    readsAs_packChain (fun _ _ _ _ hpack hnext => readOracles_of_packOracle hpack hnext) hchain
  cases chain with
  | none => cases h
  | some chain =>
    obtain rfl := pure_eq_ok.mp h
    have hdescending : (sortBy (fun a b => decide (b.1 ≤ a.1)) entries).Pairwise fun e e' => e'.1 ≤ e.1 :=
      sortBy_descending Prod.fst entries
    exact ⟨entries, _, oracles.reverse, (mapM_eq_ok.mp hentries).imp fun _ _ => Attestation.identified_eq_ok.mp,
      (List.reverse_perm _).trans (sortBy_perm _ entries), List.pairwise_reverse.mpr hdescending,
      List.rel_reverse horacles, hreads⟩

theorem exists_packOracles {quorum : List Attestation} (nonempty : quorum ≠ [])
    (packs : ∀ a ∈ quorum,
      (∃ id, a.oracleId = some id ∧ 0 ≤ id ∧ id < Nat.pow 2 32) ∧ ∃ proof, a.proof codec = .ok proof) :
    ∃ cell, packOracles codec quorum = .ok cell := by
  obtain ⟨entries, hentries⟩ : ∃ entries, quorum.mapM Attestation.identified = .ok entries := by
    refine exists_mapM_ok fun a ha => ?_
    obtain ⟨⟨id, hid, -⟩, -⟩ := packs a ha
    exact ⟨(id, a), Attestation.identified_eq_ok.mpr ⟨hid, rfl⟩⟩
  have hcorrespond := (mapM_eq_ok.mp hentries).imp fun _ _ => Attestation.identified_eq_ok.mp
  obtain ⟨cell, hcell⟩ : ∃ cell, packChain (packOracle codec) (sortBy (fun a b => decide (b.1 ≤ a.1)) entries) =
      .ok (some cell) := by
    refine exists_packChain ?_ fun entry hentry next => ?_
    · intro hnil
      rw [sortBy_eq_nil.mp hnil, List.forall₂_nil_right_iff] at hcorrespond
      exact nonempty hcorrespond
    · obtain ⟨a, ha, hid, rfl⟩ := Forall₂.exists_left hcorrespond (mem_sortBy.mp hentry)
      obtain ⟨⟨id, hid', hbounds⟩, proof, hproof⟩ := packs entry.2 ha
      obtain rfl := Option.some.inj (hid.symm.trans hid')
      exact ⟨_, packOracle_eq_ok.mpr ⟨proof, hproof, oracleCell_eq_ok.mpr ⟨hbounds, rfl⟩⟩⟩
  exact ⟨cell, bind_eq_ok.mpr ⟨entries, hentries, bind_eq_ok.mpr ⟨some cell, hcell, rfl⟩⟩⟩

end Oracles

/-! ### Payloads -/

theorem packPayload_eq_ok {codec : Codec} {medians : Table Text Int} {quorum : List Attestation} {payload : Cell} :
    packPayload codec medians quorum = .ok payload ↔ ∃ prices oracles, packMedians medians = .ok prices ∧
      packOracles codec quorum = .ok oracles ∧ .ofParts [] [prices, oracles] = payload := by
  simp only [packPayload, bind_eq_ok, pure_eq_ok]
  exact ⟨fun ⟨p, hp, o, ho, h⟩ => ⟨p, o, hp, ho, h⟩, fun ⟨p, o, hp, ho, h⟩ => ⟨p, hp, o, ho, h⟩⟩

/-- A payload is read back as what was packed: the medians from the last row on, and the attestations in ascending order
    of their ids. -/
theorem packPayload_inv {codec : Codec} {medians : Table Text Int} {quorum : List Attestation} {payload : Cell}
    (h : packPayload codec medians quorum = .ok payload) :
    ∃ rows entries sorted oracles,
      List.Forall₂ (fun row y => Text.readInteger row.1 = some y.1 ∧ row.2 = y.2) medians.rows rows ∧
      List.Forall₂ (fun a e => a.oracleId = some e.1 ∧ a = e.2) quorum entries ∧
      sorted.Perm entries ∧ sorted.Pairwise (fun e e' => e.1 ≤ e'.1) ∧
      List.Forall₂ (Carries codec) sorted oracles ∧ readPayload payload = some (rows.reverse, oracles) := by
  obtain ⟨prices, chain, hprices, hchain, rfl⟩ := packPayload_eq_ok.mp h
  obtain ⟨rows, hrows, hreadRows⟩ := packMedians_inv hprices
  obtain ⟨entries, sorted, oracles, hentries, hperm, hascending, hcarries, hreadOracles⟩ := packOracles_inv hchain
  refine ⟨rows, entries, sorted, oracles, hrows, hentries, hperm, hascending, hcarries, ?_⟩
  show (readMedians prices >>= fun _ => readOracles chain >>= _) = _
  rw [hreadRows, hreadOracles]
  rfl

end Solvency
