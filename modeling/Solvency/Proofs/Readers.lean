import Solvency.Cell.Reader
import Solvency.Proofs.Traversal

/-! Readers: what a reader takes from a slice. A token or a reference is taken from the front of its queue, and what
    readers take one after another stands one behind the other in the slice. -/

namespace Solvency

/-- Unsigned integers as tokens, each with its width. -/
def Token.uints (fields : List (Int × Nat)) : List Token := fields.map fun field => .uint field.2 field.1

namespace Slice

def push (s : Slice) (token : Token) : Slice := { s with tokens := token :: s.tokens }

def pushRef (s : Slice) (cell : Cell) : Slice := { s with refs := cell :: s.refs }

/-- A slice with an optional reference in front: its flag among the tokens, and the cell if there is one. -/
def pushMaybe (s : Slice) (cell : Option Cell) : Slice := ⟨.maybe 1 cell.isSome :: s.tokens, cell.toList ++ s.refs⟩

end Slice

/-- An optional root keeps a dictionary with keys of a width: no root keeps the empty one. -/
def KeepsDictionary (bits : Nat) : Option Cell → Dictionary → Prop
  | none, d => d = .empty
  | some root, d => root.keyBits = bits ∧ ∃ entries, root.entries = some entries ∧ d = .ofList entries

theorem Cell.dictionary_eq_ok {cell : Cell} {bits : Nat} {d : Dictionary} :
    cell.dictionary bits = .ok d ↔
      cell.keyBits = bits ∧ ∃ entries, cell.entries = some entries ∧ d = .ofList entries := by
  unfold Cell.dictionary
  split
  · rename_i hbits
    cases cell.entries with
    | none => simp
    | some entries => simp [hbits, eq_comm]
  · rename_i hbits
    simp [hbits]

namespace CellReader
variable {α β : Type} {s s' : Slice}

/-! ### One reader behind another -/

theorem run_pure_eq_ok {a b : α} : (pure a : CellReader α).run s = .ok (b, s') ↔ a = b ∧ s = s' := by
  rw [StateT.run_pure, pure_eq_ok, Prod.mk.injEq]

theorem run_bind_eq_ok {x : CellReader α} {f : α → CellReader β} {b : β} :
    (x >>= f).run s = .ok (b, s') ↔ ∃ a t, x.run s = .ok (a, t) ∧ (f a).run t = .ok (b, s') := by
  rw [StateT.run_bind, bind_eq_ok, Prod.exists]

theorem run_lift_eq_ok {x : Except CellError α} {a : α} :
    (liftM x : CellReader α).run s = .ok (a, s') ↔ x = .ok a ∧ s = s' := by
  have hrun : (liftM x : CellReader α).run s = x >>= fun a => pure (a, s) := rfl
  rw [hrun, bind_eq_ok]
  constructor
  · rintro ⟨b, hx, h⟩
    obtain ⟨rfl, rfl⟩ := Prod.mk.inj (pure_eq_ok.mp h)
    exact ⟨hx, rfl⟩
  · rintro ⟨hx, rfl⟩
    exact ⟨a, hx, rfl⟩

/-! ### Tokens -/

theorem run_next_eq_ok {wanted : TokenKind} {width : Option Nat} {select : Token → Option α} {a : α} :
    (next wanted width select).run s = .ok (a, s') ↔ ∃ token, select token = some a ∧ s = s'.push token := by
  obtain ⟨tokens, refs⟩ := s
  cases tokens with
  | nil => simp [next, StateT.run, Slice.push]
  | cons token rest =>
    simp only [next, StateT.run, Slice.push, Slice.mk.injEq, List.cons.injEq]
    cases hselect : select token with
    | none =>
      refine iff_of_false (by simp) ?_
      rintro ⟨_, h, ⟨rfl, -⟩, -⟩
      cases hselect.symm.trans h
    | some b =>
      simp only [Except.ok.injEq, Prod.mk.injEq]
      constructor
      · rintro ⟨rfl, rfl⟩
        exact ⟨token, hselect, ⟨rfl, rfl⟩, rfl⟩
      · rintro ⟨_, h, ⟨rfl, rfl⟩, rfl⟩
        exact ⟨Option.some.inj (hselect.symm.trans h), rfl⟩

/-- A token that is selected in one form only is taken from the front in that form. -/
theorem run_next_of_select {wanted : TokenKind} {width : Option Nat} {select : Token → Option α}
    (form : α → Token) (h : ∀ token a, select token = some a ↔ token = form a) {a : α} :
    (next wanted width select).run s = .ok (a, s') ↔ s = s'.push (form a) := by
  rw [run_next_eq_ok]
  constructor
  · rintro ⟨token, hselect, rfl⟩
    rw [(h token a).mp hselect]
  · rintro rfl
    exact ⟨form a, (h _ a).mpr rfl, rfl⟩

theorem run_uint_eq_ok {bits : Nat} {value : Int} :
    (uint bits).run s = .ok (value, s') ↔ s = s'.push (.uint bits value) :=
  run_next_of_select (Token.uint bits) fun token a => by cases token <;> simp

theorem run_int_eq_ok {bits : Nat} {value : Int} :
    (int bits).run s = .ok (value, s') ↔ s = s'.push (.int bits value) :=
  run_next_of_select (Token.int bits) fun token a => by cases token <;> simp

theorem run_varUint_eq_ok {maxLength : Nat} {value : Int} :
    (varUint maxLength).run s = .ok (value, s') ↔ s = s'.push (.varUint maxLength value) :=
  run_next_of_select (Token.varUint maxLength) fun token a => by cases token <;> simp

theorem run_flag_eq_ok {present : Bool} : flag.run s = .ok (present, s') ↔ s = s'.push (.maybe 1 present) :=
  run_next_of_select (Token.maybe 1) fun token a => by cases token <;> simp

/-- An amount of coins is taken in any width. -/
theorem run_coins_eq_ok {value : Int} :
    coins.run s = .ok (value, s') ↔ ∃ width, s = s'.push (.coins width value) := by
  rw [coins, run_next_eq_ok]
  constructor
  · rintro ⟨token, h, rfl⟩
    cases token <;> cases h
    exact ⟨_, rfl⟩
  · rintro ⟨width, rfl⟩
    exact ⟨_, rfl, rfl⟩

theorem run_address_eq_ok {value : Text} :
    address.run s = .ok (value, s') ↔ ∃ width, s = s'.push (.address width value) := by
  rw [address, run_next_eq_ok]
  constructor
  · rintro ⟨token, h, rfl⟩
    cases token <;> cases h
    exact ⟨_, rfl⟩
  · rintro ⟨width, rfl⟩
    exact ⟨_, rfl, rfl⟩

theorem run_uints_eq_ok {widths : List Nat} {values : List Int} :
    (widths.mapM uint).run s = .ok (values, s') ↔
      values.length = widths.length ∧ s = ⟨Token.uints (values.zip widths) ++ s'.tokens, s'.refs⟩ := by
  induction widths generalizing s s' values with
  | nil =>
    rw [List.mapM_nil, run_pure_eq_ok, List.length_nil, List.length_eq_zero_iff, eq_comm (a := [])]
    simp [Token.uints]
  | cons width widths ih =>
    simp only [List.mapM_cons, run_bind_eq_ok, run_uint_eq_ok, ih, run_pure_eq_ok]
    constructor
    · rintro ⟨value, _, rfl, values, _, ⟨hlength, rfl⟩, rfl, rfl⟩
      exact ⟨congrArg Nat.succ hlength, rfl⟩
    · rintro ⟨hlength, rfl⟩
      cases values with
      | nil => cases hlength
      | cons value values => exact ⟨value, _, rfl, values, _, ⟨Nat.succ.inj hlength, rfl⟩, rfl, rfl⟩

/-! ### References -/

theorem run_ref_eq_ok {cell : Cell} : ref.run s = .ok (cell, s') ↔ s = s'.pushRef cell := by
  obtain ⟨tokens, refs⟩ := s
  obtain ⟨tokens', refs'⟩ := s'
  cases refs <;> simp [ref, StateT.run, Slice.pushRef, and_left_comm]

theorem run_maybeRef_eq_ok {cell : Option Cell} : maybeRef.run s = .ok (cell, s') ↔ s = s'.pushMaybe cell := by
  rw [maybeRef, run_bind_eq_ok]
  constructor
  · rintro ⟨present, t, hflag, h⟩
    obtain rfl := run_flag_eq_ok.mp hflag
    cases present with
    | false =>
      obtain ⟨rfl, rfl⟩ := run_pure_eq_ok.mp h
      rfl
    | true =>
      obtain ⟨root, _, hroot, h⟩ := run_bind_eq_ok.mp h
      obtain rfl := run_ref_eq_ok.mp hroot
      obtain ⟨rfl, rfl⟩ := run_pure_eq_ok.mp h
      rfl
  · rintro rfl
    cases cell with
    | none => exact ⟨false, s', run_flag_eq_ok.mpr rfl, run_pure_eq_ok.mpr ⟨rfl, rfl⟩⟩
    | some root =>
      exact ⟨true, s'.pushRef root, run_flag_eq_ok.mpr rfl,
        run_bind_eq_ok.mpr ⟨root, s', run_ref_eq_ok.mpr rfl, run_pure_eq_ok.mpr ⟨rfl, rfl⟩⟩⟩

theorem run_dictionary_eq_ok {bits : Nat} {d : Dictionary} :
    (dictionary bits).run s = .ok (d, s') ↔ ∃ root, KeepsDictionary bits root d ∧ s = s'.pushMaybe root := by
  rw [dictionary, run_bind_eq_ok]
  constructor
  · rintro ⟨root, t, hroot, h⟩
    obtain rfl := run_maybeRef_eq_ok.mp hroot
    cases root with
    | none =>
      obtain ⟨rfl, rfl⟩ := run_pure_eq_ok.mp h
      exact ⟨none, rfl, rfl⟩
    | some root =>
      obtain ⟨hd, rfl⟩ := run_lift_eq_ok.mp h
      exact ⟨some root, Cell.dictionary_eq_ok.mp hd, rfl⟩
  · rintro ⟨root, hd, rfl⟩
    refine ⟨root, s', run_maybeRef_eq_ok.mpr rfl, ?_⟩
    cases root with
    | none => exact run_pure_eq_ok.mpr ⟨hd.symm, rfl⟩
    | some root => exact run_lift_eq_ok.mpr ⟨Cell.dictionary_eq_ok.mpr hd, rfl⟩

end CellReader

theorem Cell.parse_eq_ok {α : Type} {cell : Cell} {reader : CellReader α} {a : α} :
    cell.parse reader = .ok a ↔ ∃ rest, reader.run cell.slice = .ok (a, rest) := by
  unfold Cell.parse
  cases reader.run cell.slice with
  | error e => simp [Except.map]
  | ok found => simp [Except.map, Prod.ext_iff]

theorem Cell.parse_ref_eq_ok {cell tail : Cell} :
    cell.parse CellReader.ref = .ok tail ↔ cell.refs.head? = some tail := by
  simp only [Cell.parse_eq_ok, CellReader.run_ref_eq_ok, List.head?_eq_some_iff]
  constructor
  · rintro ⟨rest, hslice⟩
    exact ⟨rest.refs, congrArg Slice.refs hslice⟩
  · rintro ⟨more, hrefs⟩
    exact ⟨⟨cell.tokens, more⟩, congrArg (Slice.mk cell.tokens) hrefs⟩

end Solvency
