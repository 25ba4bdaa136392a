import Solvency.Proofs.Entries

/-! Accounts: which cells are read as an account, and as which position. What decides is what the tokens and the
    references of a cell start with. Each of the four optional references is announced by a flag among the tokens, so
    that the cell says for itself which references stand for what. -/

namespace Solvency

theorem parse_int_eq_ok {cell : Cell} {bits : Nat} {value : Int} :
    cell.parse (CellReader.int bits) = .ok value ↔ [Token.int bits value] <+: cell.tokens := by
  simp only [Cell.parse_eq_ok, CellReader.run_int_eq_ok]
  constructor
  · rintro ⟨rest, hslice⟩
    exact ⟨rest.tokens, (congrArg Slice.tokens hslice).symm⟩
  · rintro ⟨more, htokens⟩
    exact ⟨⟨more, cell.refs⟩, congrArg (Slice.mk · cell.refs) htokens.symm⟩

/-! ### The parts of an account -/

/-- The parts of an account as a cell stores them. -/
structure AccountParts where
  codeVersion : Int
  masterAddress : Text
  ownerAddress : Text
  principals : Option Cell
  userState : Int
  rewards : Option Cell
  firstBackup : Option Cell
  secondBackup : Option Cell

namespace AccountParts

/-- The tokens of the parts: those of coins and of addresses may have any width. -/
def tokens (parts : AccountParts) (coinsWidth masterWidth ownerWidth : Nat) : List Token :=
  [.coins coinsWidth parts.codeVersion, .address masterWidth parts.masterAddress,
    .address ownerWidth parts.ownerAddress, .maybe 1 parts.principals.isSome, .int 64 parts.userState,
    .maybe 1 parts.rewards.isSome, .maybe 1 parts.firstBackup.isSome, .maybe 1 parts.secondBackup.isSome]

def refs (parts : AccountParts) : List Cell :=
  parts.principals.toList ++ parts.rewards.toList ++ parts.firstBackup.toList ++ parts.secondBackup.toList

/-- A cell starts with the parts of an account. -/
def LeadIn (parts : AccountParts) (cell : Cell) : Prop :=
  (∃ coinsWidth masterWidth ownerWidth, parts.tokens coinsWidth masterWidth ownerWidth <+: cell.tokens) ∧
    parts.refs <+: cell.refs

/-- The parts encode a position: its principals stand under the decimal digits of their keys, each at the start of its
    entry. -/
structure Encode (parts : AccountParts) (position : Position) : Prop where
  principals : ∃ d, KeepsDictionary principalKeyBits parts.principals d ∧
    List.Forall₂ (fun entry row => row.1 = Text.decimal entry.1 ∧ [Token.int principalBits row.2] <+: entry.2.tokens)
      d.entries position.principals.rows
  rewards : ∃ d, KeepsDictionary principalKeyBits parts.rewards d ∧ position.rewards = some d
  codeVersion : position.codeVersion = parts.codeVersion
  masterAddress : position.masterAddress = some parts.masterAddress
  ownerAddress : position.ownerAddress = some parts.ownerAddress
  userState : position.userState = parts.userState
  firstBackup : position.firstBackup = parts.firstBackup
  secondBackup : position.secondBackup = parts.secondBackup

/-- The parts can be decoded: both dictionaries have the asked width, and every entry of the first starts with a
    principal. -/
def Sound (parts : AccountParts) : Prop :=
  (∃ d, KeepsDictionary principalKeyBits parts.principals d ∧
      ∀ entry ∈ d.entries, ∃ principal, [Token.int principalBits principal] <+: entry.2.tokens) ∧
    ∃ d, KeepsDictionary principalKeyBits parts.rewards d

variable {parts : AccountParts}

/-- The parts in front of a slice, one behind the other. -/
def onto (parts : AccountParts) (coinsWidth masterWidth ownerWidth : Nat) (rest : Slice) : Slice :=
  rest.pushMaybe parts.secondBackup |>.pushMaybe parts.firstBackup |>.pushMaybe parts.rewards
    |>.push (.int 64 parts.userState) |>.pushMaybe parts.principals |>.push (.address ownerWidth parts.ownerAddress)
    |>.push (.address masterWidth parts.masterAddress) |>.push (.coins coinsWidth parts.codeVersion)

theorem onto_eq (coinsWidth masterWidth ownerWidth : Nat) (rest : Slice) :
    parts.onto coinsWidth masterWidth ownerWidth rest =
      ⟨parts.tokens coinsWidth masterWidth ownerWidth ++ rest.tokens, parts.refs ++ rest.refs⟩ := by
  simp [onto, tokens, refs, Slice.push, Slice.pushMaybe]

theorem leadIn_iff {cell : Cell} : parts.LeadIn cell ↔
    ∃ coinsWidth masterWidth ownerWidth rest, cell.slice = parts.onto coinsWidth masterWidth ownerWidth rest := by
  simp only [LeadIn, onto_eq, Cell.slice, Slice.mk.injEq]
  constructor
  · rintro ⟨⟨c, m, o, more, htokens⟩, refs, hrefs⟩
    exact ⟨c, m, o, ⟨more, refs⟩, htokens.symm, hrefs.symm⟩
  · rintro ⟨c, m, o, rest, htokens, hrefs⟩
    exact ⟨⟨c, m, o, rest.tokens, htokens.symm⟩, rest.refs, hrefs.symm⟩

/-- The position of the parts, with the content of their dictionaries. -/
def position (parts : AccountParts) (principals : Table Text Int) (rewards : Dictionary) (address : Option Text) :
    Position where
  principals := principals
  address := address
  ownerAddress := some parts.ownerAddress
  masterAddress := some parts.masterAddress
  codeVersion := parts.codeVersion
  userState := parts.userState
  rewards := some rewards
  firstBackup := parts.firstBackup
  secondBackup := parts.secondBackup

theorem encode_iff {position : Position} : parts.Encode position ↔
    ∃ principals rows rewards, KeepsDictionary principalKeyBits parts.principals principals ∧
      Position.principalsOf principals = .ok rows ∧ KeepsDictionary principalKeyBits parts.rewards rewards ∧
      position = parts.position rows rewards position.address := by
  simp only [Position.principalsOf_eq, readEntries_eq_ok, parse_int_eq_ok]
  constructor
  · intro h
    obtain ⟨principals, hprincipals, hrows⟩ := h.principals
    obtain ⟨rewards, hrewards, hsome⟩ := h.rewards
    refine ⟨principals, _, rewards, hprincipals, hrows, hrewards, ?_⟩
    rw [AccountParts.position, ← h.codeVersion, ← h.masterAddress, ← h.ownerAddress, ← h.userState, ← h.firstBackup,
      ← h.secondBackup, ← hsome]
  · rintro ⟨principals, rows, rewards, hprincipals, hrows, hrewards, hposition⟩
    rw [hposition]
    exact ⟨⟨principals, hprincipals, hrows⟩, ⟨rewards, hrewards, rfl⟩, rfl, rfl, rfl, rfl, rfl, rfl⟩

theorem exists_encode_iff : (∃ position, parts.Encode position) ↔ parts.Sound := by
  constructor
  · rintro ⟨position, h⟩
    obtain ⟨d, hd, hrows⟩ := h.principals
    obtain ⟨rewards, hrewards, -⟩ := h.rewards
    refine ⟨⟨d, hd, fun entry hentry => ?_⟩, rewards, hrewards⟩
    obtain ⟨row, -, -, hprincipal⟩ := Forall₂.exists_right hrows hentry
    exact ⟨row.2, hprincipal⟩
  · rintro ⟨⟨d, hd, hentries⟩, rewards, hrewards⟩
    simp only [← parse_int_eq_ok] at hentries
    obtain ⟨rows, hrows⟩ := exists_readEntries_iff.mpr hentries
    exact ⟨parts.position rows rewards none, encode_iff.mpr ⟨d, rows, rewards, hd, hrows, hrewards, rfl⟩⟩

end AccountParts

/-! ### Reading -/

theorem Position.parse_reader_eq_ok {cell : Cell} {position : Position} :
    cell.parse reader = .ok position ↔ position.address = none ∧ ∃ parts : AccountParts, parts.LeadIn cell ∧
      parts.Encode position := by
  -- What is left of the cell behind each field is named by the field, so that the pieces fit together again.
  simp only [AccountParts.leadIn_iff, AccountParts.encode_iff, Cell.parse_eq_ok, reader, CellReader.run_bind_eq_ok,
    CellReader.run_coins_eq_ok, CellReader.run_address_eq_ok, CellReader.run_dictionary_eq_ok,
    CellReader.run_lift_eq_ok, CellReader.run_int_eq_ok, CellReader.run_maybeRef_eq_ok, CellReader.run_pure_eq_ok]
  constructor
  · rintro ⟨_, codeVersion, _, ⟨coinsWidth, hcell⟩, master, _, ⟨masterWidth, rfl⟩, owner, _, ⟨ownerWidth, rfl⟩, d, _,
      ⟨principals, hd, rfl⟩, rows, _, ⟨hrows, rfl⟩, userState, _, rfl, d', _, ⟨rewards, hd', rfl⟩, first, _, rfl,
      second, rest, rfl, rfl, rfl⟩
    exact ⟨rfl, ⟨codeVersion, master, owner, principals, userState, rewards, first, second⟩,
      ⟨coinsWidth, masterWidth, ownerWidth, rest, hcell⟩, d, rows, d', hd, hrows, hd', rfl⟩
  · rintro ⟨haddress, parts, ⟨coinsWidth, masterWidth, ownerWidth, rest, hcell⟩, d, rows, d', hd, hrows, hd', hposition⟩
    rw [haddress] at hposition
    exact ⟨rest, _, _, ⟨coinsWidth, hcell⟩, _, _, ⟨masterWidth, rfl⟩, _, _, ⟨ownerWidth, rfl⟩, d, _, ⟨_, hd, rfl⟩, rows,
      _, ⟨hrows, rfl⟩, _, _, rfl, d', _, ⟨_, hd', rfl⟩, _, _, rfl, _, _, rfl, hposition.symm, rfl⟩

theorem Position.ofAccount_eq_ok {cell : Cell} {address : Option Text} {position : Position} :
    ofAccount cell address = .ok position ↔
      position.address = address ∧ ∃ parts : AccountParts, parts.LeadIn cell ∧ parts.Encode position := by
  have hread : ofAccount cell address = .ok position ↔
      ∃ found, cell.parse reader = .ok found ∧ { found with address } = position := by
    unfold ofAccount
    cases cell.parse reader <;> simp
  rw [hread]
  constructor
  · rintro ⟨found, hfound, rfl⟩
    obtain ⟨-, parts, hlead, hencode⟩ := parse_reader_eq_ok.mp hfound
    exact ⟨rfl, parts, hlead, { hencode with }⟩
  · rintro ⟨rfl, parts, hlead, hencode⟩
    exact ⟨{ position with address := none }, parse_reader_eq_ok.mpr ⟨rfl, parts, hlead, { hencode with }⟩, rfl⟩

/-! ### Writing -/

theorem keepsDictionary_root? (d : Dictionary) : KeepsDictionary Cell.defaultKeyBits d.root? d := by
  cases hroot : d.root? with
  | none => exact Dictionary.eq_empty_of_root? hroot
  | some root => exact Cell.dictionary_eq_ok.mp (Dictionary.dictionary_of_root? hroot)

theorem CellBuilder.maybeRef_eq (b : CellBuilder) (cell : Option Cell) :
    b.maybeRef cell = ⟨b.tokens ++ [.maybe 1 cell.isSome], b.refs ++ cell.toList⟩ := by
  cases cell <;> simp [maybeRef, token, ref]

def principalCell (principal : Int) : Cell := .ofParts [.int principalBits principal] []

/-- What an account holds. Its principals stand under distinct keys. -/
structure Account where
  codeVersion : Int
  masterAddress : Text
  ownerAddress : Text
  principals : List (Int × Int)
  distinct : (principals.map Prod.fst).Nodup
  userState : Int
  rewards : Dictionary
  firstBackup : Option Cell
  secondBackup : Option Cell

namespace Account
variable (account : Account)

def cell : Cell :=
  Position.accountCell account.codeVersion account.masterAddress account.ownerAddress account.principals
    account.userState account.rewards account.firstBackup account.secondBackup

def parts : AccountParts where
  codeVersion := account.codeVersion
  masterAddress := account.masterAddress
  ownerAddress := account.ownerAddress
  principals := (dictionaryOf principalCell account.principals).root?
  userState := account.userState
  rewards := account.rewards.root?
  firstBackup := account.firstBackup
  secondBackup := account.secondBackup

/-- A position has the values of an account, its principals in ascending order under the decimal digits of their
    keys. -/
def Shown (address : Option Text) (position : Position) : Prop :=
  ∃ sorted principals, sorted.Perm account.principals ∧ (sorted.Pairwise fun a b => a.1 < b.1) ∧
    principals.rows = decimalRows sorted ∧
    position = { principals, address, ownerAddress := some account.ownerAddress,
                 masterAddress := some account.masterAddress, codeVersion := account.codeVersion,
                 userState := account.userState, rewards := some account.rewards,
                 firstBackup := account.firstBackup, secondBackup := account.secondBackup }

theorem leadIn_cell : account.parts.LeadIn account.cell := by
  have hcell : account.cell = .ofParts (account.parts.tokens 0 267 267) account.parts.refs := by
    simp only [cell, Position.accountCell, CellBuilder.maybeRef_eq, CellBuilder.token, CellBuilder.cell,
      AccountParts.tokens, AccountParts.refs]
    rfl
  rw [hcell]
  exact ⟨⟨0, 267, 267, List.prefix_rfl⟩, List.prefix_rfl⟩

theorem exists_shown (address : Option Text) :
    ∃ position, Position.ofAccount account.cell address = .ok position ∧ account.Shown address position := by
  obtain ⟨sorted, rows, hperm, hascending, hread, hrows⟩ := exists_readEntries principalCell (.int principalBits)
    account.distinct fun item _ => parse_int_eq_ok.mpr List.prefix_rfl
  refine ⟨account.parts.position rows account.rewards address, Position.ofAccount_eq_ok.mpr ⟨rfl, account.parts,
    account.leadIn_cell, AccountParts.encode_iff.mpr ?_⟩, sorted, rows, hperm, hascending, hrows, rfl⟩
  exact ⟨_, rows, account.rewards, keepsDictionary_root? _, hread, keepsDictionary_root? _, rfl⟩

end Account

/-- An account is read back from the cell that it is written to. A cell is read as the position that its parts encode,
    and it is refused exactly if it does not start with the parts of an account that can be decoded. -/
theorem accounts_decoded_exactly (address : Option Text) :
    (∀ account : Account, ∃ position,
        Position.ofAccount account.cell address = .ok position ∧ account.Shown address position) ∧
      (∀ cell position, Position.ofAccount cell address = .ok position ↔
        position.address = address ∧ ∃ parts : AccountParts, parts.LeadIn cell ∧ parts.Encode position) ∧
      ∀ cell, (∃ e, Position.ofAccount cell address = .error e) ↔
        ¬∃ parts : AccountParts, parts.LeadIn cell ∧ parts.Sound := by
  refine ⟨fun account => account.exists_shown address, fun _ _ => Position.ofAccount_eq_ok, fun cell => ?_⟩
  have hrefused : (∃ e, Position.ofAccount cell address = .error e) ↔
      ¬∃ position, cell.parse Position.reader = .ok position := by
    unfold Position.ofAccount
    cases cell.parse Position.reader <;> simp
  simp only [hrefused, Position.parse_reader_eq_ok, ← AccountParts.exists_encode_iff]
  refine not_congr ⟨?_, ?_⟩
  · rintro ⟨position, -, parts, hlead, hencode⟩
    exact ⟨parts, hlead, position, hencode⟩
  · rintro ⟨parts, hlead, position, hencode⟩
    exact ⟨{ position with address := none }, rfl, parts, hlead, { hencode with }⟩

/-- The account of a borrower who owes more than one asset and has a backup. -/
def indebtedAccount : Account where
  codeVersion := 6
  masterAddress := "EQ-master"
  ownerAddress := "EQ-owner"
  principals := [(7, -3), (2, -5)]
  distinct := by decide
  userState := 0
  rewards := .empty
  firstBackup := none
  secondBackup := some (.ofParts [] [])

/-- Without the references that its flags announce, the cell of an account is refused. -/
theorem accounts_decoded_exactly_indebted :
    (∃ position, Position.ofAccount indebtedAccount.cell none = .ok position ∧ indebtedAccount.Shown none position) ∧
      ∃ e, Position.ofAccount (.ofParts (indebtedAccount.parts.tokens 0 267 267) []) none = .error e := by
  obtain ⟨written, -, refused⟩ := accounts_decoded_exactly none
  refine ⟨written indebtedAccount, (refused _).mpr ?_⟩
  -- Parts that lead the cell in have a second backup by its flag, and none by its references.
  rintro ⟨parts, ⟨⟨c, m, o, htokens⟩, hrefs⟩, -⟩
  have hbackup : parts.secondBackup.isSome = true := by
    simp only [AccountParts.tokens, Cell.ofParts, Cell.tokens, List.cons_prefix_cons, Token.maybe.injEq] at htokens
    exact htokens.2.2.2.2.2.2.2.1.2
  have hnone : parts.refs = [] := List.prefix_nil.mp hrefs
  simp only [AccountParts.refs, List.append_eq_nil_iff, Option.toList_eq_nil_iff] at hnone
  rw [hnone.2] at hbackup
  cases hbackup

end Solvency
