import Solvency.Proofs.Depths
import Solvency.Proofs.Encodings
import Solvency.Proofs.Entries
import Solvency.Proofs.Faults
import Solvency.Proofs.Spellings

/-! Publications: what an oracle publishes of the prices that it signed, and that it is read back. The members of the
    published object may stand in any order, among others and however they are spelled, as long as the text can be read
    at all: an integer of too many digits hides a publication, and so does a member that nests too deep. -/

namespace Solvency

/-! ### Members -/

theorem identity_eq_text {key : Scalar} {name : Text} : key.identity = .text name ↔ key = .text name := by
  cases key with
  | float value =>
    refine iff_of_false (fun h => ?_) (by simp)
    simp only [Scalar.identity] at h
    split at h
    · split at h <;> cases h
    · cases h
  | _ => simp [Scalar.identity]

theorem sameKey_text {key : Scalar} {name : Text} : key.sameKey (.text name) = true ↔ key = .text name := by
  have hsame : key.sameKey (.text name) = decide (key.identity = .text name) := by cases key <;> rfl
  rw [hsame, decide_eq_true_iff, identity_eq_text]

theorem lookup_setEntry (name key : Text) (value : Document) (entries : List (Scalar × Document)) :
    Document.lookup key (Document.setEntry (.text name) value entries) =
      if key = name then some value else Document.lookup key entries := by
  have hcons : ∀ (entry : Scalar × Document) rest, Document.lookup key (entry :: rest) =
      if entry.1 = .text key then some entry.2 else Document.lookup key rest := by
    intro entry rest
    by_cases h : entry.1 = .text key <;> simp [Document.lookup, h]
  induction entries with
  | nil => simp [Document.setEntry, Document.lookup, eq_comm]
  | cons entry entries ih =>
    unfold Document.setEntry
    by_cases hname : entry.1 = .text name
    · rw [if_pos (sameKey_text.mpr hname), hcons, hcons, hname]
      by_cases hkey : key = name
      · simp [hkey]
      · simp [hkey, Ne.symm hkey]
    · rw [if_neg (mt sameKey_text.mp hname), hcons, hcons, ih]
      by_cases hkey : key = name
      · simp [hkey, hname]
      · simp [hkey]

/-- A member that stands under its name alone is found under it. -/
theorem lookup_ofMembers {members : List (Text × Document)} {entries : List (Scalar × Document)} {name : Text}
    {value : Document} (object : Json.ofMembers members = .map entries) (member : (name, value) ∈ members)
    (only : ∀ other, (name, other) ∈ members → other = value) : Document.lookup name entries = some value := by
  cases object
  suffices hfold : ∀ (members : List (Text × Document)) (entries : List (Scalar × Document)),
      (∀ other, (name, other) ∈ members → other = value) →
      ((name, value) ∈ members ∨ Document.lookup name entries = some value) →
      Document.lookup name ((members.map fun member => (Scalar.text member.1, member.2)).foldl
        (fun done entry => Document.setEntry entry.1 entry.2 done) entries) = some value from
    hfold members [] only (Or.inl member)
  -- Of the members that are still to be set one has the name, or the map has its value already.
  intro members
  induction members with
  | nil => exact fun entries _ h => h.resolve_left List.not_mem_nil
  | cons first members ih =>
    intro entries honly h
    refine ih _ (fun other hother => honly other (List.mem_cons_of_mem _ hother)) ?_
    rw [lookup_setEntry]
    rcases h with h | h
    · rcases List.mem_cons.mp h with rfl | h
      · exact Or.inr (if_pos rfl)
      · exact Or.inl h
    · by_cases hname : name = first.1
      · subst hname
        exact Or.inr ((if_pos rfl).trans (congrArg some (honly first.2 List.mem_cons_self)))
      · exact Or.inr ((if_neg hname).trans h)

/-! ### Publishing -/

/-- The text in which a JSON text is published. -/
def published (json : List Char) : Text := "0x" ++ Text.ofChars (Text.writeHex (Text.writeUtf8 json))

theorem carried?_published (json : List Char) : carried? (published json) = some json := by
  have hdrop : (published json).drop 2 = Text.ofChars (Text.writeHex (Text.writeUtf8 json)) := rfl
  rw [carried?, hdrop, Text.hexBytes?_writeHex]
  simp only [Option.bind_eq_bind, Option.bind_some, Text.readUtf8_writeUtf8]

theorem length_published (json : List Char) : (published json).length % 2 ≠ 1 := by
  have hlength : (published json).length = 2 + (Text.writeHex (Text.writeUtf8 json)).length := by
    rw [published, List.length_append, Text.ofChars, List.length_map]
    rfl
  rw [hlength, Text.length_writeHex]
  omega

theorem carriesJson_published {codec : Codec} {json : List Char} {reading : Except Json.Fault Document}
    (h : Json.read codec.jsonDepth json = reading) : CarriesJson codec (published json) reading :=
  ⟨length_published json, json, carried?_published json, h⟩

def hexText (bytes : List UInt8) : Text := Text.ofChars (Text.writeHex bytes)

def priceCell (price : Int) : Cell := .ofParts [.varUint priceMaxLength price] []

/-- What an oracle publishes: prices under distinct keys, a time of 32 bits and the bytes of its signature and key. -/
structure Publication where
  prices : List (Int × Int)
  nonempty : prices ≠ []
  distinct : (prices.map Prod.fst).Nodup
  timestamp : Int
  fits : 0 ≤ timestamp ∧ timestamp < Nat.pow 2 32
  signature : List UInt8
  publicKey : List UInt8

namespace Publication
variable (p : Publication)

/-- The dictionary that the oracle signed. -/
def dictionary : Dictionary := dictionaryOf priceCell p.prices

/-- The bag that the prices are packed in: the time, and behind a reference the dictionary. -/
def bag : Except CellError Cell := do
  let b ← CellBuilder.empty.uint p.timestamp 32
  return (p.dictionary.root?.elim b b.ref).cell

/-- The members of the published object that are read, where the bag has been packed into bytes. -/
def members (packed : List UInt8) : List (Text × Document) :=
  [("packedPrices", .ofText (hexText packed)), ("signature", .ofText (hexText p.signature)),
    ("publicKey", .ofText (hexText p.publicKey)), ("timestamp", .scalar (.integer p.timestamp))]

def names : List Text := ["packedPrices", "signature", "publicKey", "timestamp"]

/-- An attestation has what was published: the prices in ascending order under the decimal digits of their keys, the
    dictionary, the bytes and the time, and no oracle yet. -/
def ReadAs (a : Attestation) : Prop :=
  ∃ sorted prices, sorted.Perm p.prices ∧ (sorted.Pairwise fun x y => x.1 < y.1) ∧
    prices.rows = decimalRows sorted ∧
    a = { prices, dictionary := p.dictionary, signature := p.signature, timestamp := p.timestamp,
          publicKey := p.publicKey, oracleId := none }

variable {p}

theorem exists_root : ∃ root, p.dictionary.root? = some root := by
  cases hroot : p.dictionary.root? with
  | some root => exact ⟨root, rfl⟩
  | none =>
    have hkeys : ((p.prices.map fun item => (item.1, priceCell item.2)).map Prod.fst).Nodup := by
      rw [List.map_map]
      exact p.distinct
    have hentries : p.dictionary.entries.Perm (p.prices.map fun item => (item.1, priceCell item.2)) :=
      Dictionary.entries_ofList_perm hkeys
    rw [Dictionary.eq_empty_of_root? hroot] at hentries
    exact absurd (List.map_eq_nil_iff.mp (List.nil_perm.mp hentries)) p.nonempty

theorem exists_bag : ∃ bag root, p.bag = .ok bag ∧ p.dictionary.root? = some root ∧ bag.refs = [root] := by
  obtain ⟨root, hroot⟩ := p.exists_root
  have huint : CellBuilder.empty.uint p.timestamp 32 = .ok (CellBuilder.empty.token (.uint 32 p.timestamp)) :=
    if_pos p.fits
  exact ⟨_, root, bind_eq_ok.mpr ⟨_, huint, rfl⟩, hroot, by rw [hroot]; rfl⟩

/-- The bag is unpacked into the dictionary and its prices, in ascending order. -/
theorem exists_unpacked {codec : Codec} {packed : List UInt8} (h : codec.ofBytes packed = p.bag) :
    ∃ sorted prices, sorted.Perm p.prices ∧ (sorted.Pairwise fun x y => x.1 < y.1) ∧ prices.rows = decimalRows sorted ∧
      unpackPrices codec packed = .ok (p.dictionary, prices) := by
  obtain ⟨bag, root, hbag, hroot, hrefs⟩ := p.exists_bag
  obtain ⟨sorted, prices, hperm, hascending, hread, hrows⟩ := exists_readEntries priceCell (.varUint priceMaxLength)
    p.distinct fun item _ => Cell.parse_eq_ok.mpr ⟨⟨[], []⟩, CellReader.run_varUint_eq_ok.mpr rfl⟩
  exact ⟨sorted, prices, hperm, hascending, hrows, unpackPrices_eq_ok.mpr ⟨bag, root, h.trans hbag, by rw [hrefs]; rfl,
    Dictionary.dictionary_of_root? hroot, hread⟩⟩

/-- The members that are read stand alone under their names, whatever other members there are. -/
theorem lookup_member {packed : List UInt8} {others members : List (Text × Document)}
    {entries : List (Scalar × Document)} (order : members.Perm (p.members packed ++ others))
    (apart : ∀ member ∈ others, member.1 ∉ names) (object : Json.ofMembers members = .map entries) {name : Text}
    {value : Document} (h : (name, value) ∈ p.members packed) : Document.lookup name entries = some value := by
  have hnames : (p.members packed).map Prod.fst = names := rfl
  have hdistinct : ((p.members packed).map Prod.fst).Nodup := by
    rw [hnames]
    decide
  refine lookup_ofMembers object (order.mem_iff.mpr (List.mem_append_left _ h)) fun other hother => ?_
  rcases List.mem_append.mp (order.mem_iff.mp hother) with hother | hother
  · exact congrArg Prod.snd (List.inj_on_of_nodup_map hdistinct hother h rfl)
  · have hname : name ∈ names := hnames ▸ List.mem_map_of_mem (f := Prod.fst) h
    exact absurd hname (apart _ hother)

end Publication

/-- What an oracle publishes is read back, wherever its members stand among others and however they are spelled within
    the limits of the reader. -/
theorem publication_read_back (p : Publication) :
    ∃ bag, p.bag = .ok bag ∧
      ∀ (codec : Codec) (packed : List UInt8) (others members : List (Text × Document)) (json : List Char),
        codec.ofBytes packed = .ok bag → members.Perm (p.members packed ++ others) →
        (∀ member ∈ others, member.1 ∉ Publication.names) →
        Json.Spells Text.digitLimit codec.jsonDepth (.value (Json.ofMembers members)) json →
        ∃ a, Attestation.read codec (published json) = .ok a ∧ p.ReadAs a := by
  obtain ⟨bag, root, hbag, -, -⟩ := p.exists_bag
  refine ⟨bag, hbag, fun codec packed others members json hpacked order apart spelled => ?_⟩
  obtain ⟨sorted, prices, hperm, hascending, hrows, hunpack⟩ := Publication.exists_unpacked (hpacked.trans hbag.symm)
  obtain ⟨entries, hobject⟩ : ∃ entries, Json.ofMembers members = .map entries := ⟨_, rfl⟩
  have hfound : ∀ {name value}, (name, value) ∈ p.members packed → Document.lookup name entries = some value :=
    fun h => Publication.lookup_member order apart hobject h
  have hbytes : ∀ {name bytes}, (name, .ofText (hexText bytes)) ∈ p.members packed → GivesBytes entries name bytes :=
    fun h => ⟨_, hfound h, Text.hexBytes?_writeHex _⟩
  have htime : GivesTime entries p.timestamp :=
    ⟨.scalar (.integer p.timestamp), hfound (by simp [Publication.members]), rfl⟩
  have hpublishes : Publishes codec (published json) entries :=
    carriesJson_published (hobject ▸ Json.read_spelled spelled)
  refine ⟨{ prices, dictionary := p.dictionary, signature := p.signature, timestamp := p.timestamp,
            publicKey := p.publicKey }, ?_, sorted, prices, hperm, hascending, hrows, rfl⟩
  refine Attestation.read_eq_ok.mpr ⟨entries, hpublishes, Attestation.ofObject_eq_ok.mpr
    ⟨packed, hbytes ?_, hbytes ?_, hbytes ?_, htime, hunpack, rfl⟩⟩ <;>
  simp [Publication.members]

/-! ### A publication with a member in front -/

/-- A publication of two prices. -/
def pairPublication : Publication where
  prices := [(9, 5), (4, 8)]
  nonempty := by simp
  distinct := by decide
  timestamp := 100
  fits := by decide
  signature := [0xaa]
  publicKey := []

/-- The members of the publication, packed into one byte, behind a member that nobody reads. -/
def pairMembersBehind (document : Document) : List (Text × Document) :=
  ("x", document) :: pairPublication.members [1]

def hexChars (bytes : List UInt8) : List Char := '"' :: (Text.writeHex bytes ++ ['"'])

/-- The JSON text of the members of the publication, packed into one byte. -/
def pairMembers : List Char :=
  Json.nameChars "packedPrices" ++ hexChars [1] ++ ',' :: (Json.nameChars "signature" ++
    hexChars pairPublication.signature ++ ',' :: (Json.nameChars "publicKey" ++ hexChars pairPublication.publicKey ++
    ',' :: (Json.nameChars "timestamp" ++ ['1', '0', '0'])))

/-- A JSON text of the publication behind a value. -/
def pairJson (value : List Char) : List Char :=
  '\x7b' :: (Json.nameChars "x" ++ value ++ ',' :: pairMembers ++ ['\x7d'])

theorem pairJson_eq (value : List Char) :
    pairJson value = '\x7b' :: (Json.nameChars "x" ++ (value ++ (',' :: pairMembers ++ ['\x7d']))) := by
  simp only [pairJson, List.append_assoc]

theorem spells_hexChars {limit depth : Nat} (bytes : List UInt8) :
    Json.Spells limit depth (.value (.ofText (hexText bytes))) (hexChars bytes) := by
  have hplain : Json.ArePlain (Text.writeHex bytes) := by
    have hdigit : ∀ n : Fin 16, 0x20 ≤ (Text.hexDigit n).toNat ∧ Text.hexDigit n ≠ '"' ∧ Text.hexDigit n ≠ '\\' := by
      decide
    induction bytes with
    | nil => exact List.forall_mem_nil _
    | cons b bytes ih =>
      have hb : b.toNat < 256 := b.toNat_lt
      exact List.forall_mem_cons.mpr ⟨hdigit ⟨b.toNat / 16, by omega⟩,
        List.forall_mem_cons.mpr ⟨hdigit ⟨b.toNat % 16, by omega⟩, ih⟩⟩
  exact .text (Json.spellsText_ofChars hplain)

theorem spells_pairMembers {limit depth : Nat} (room : 3 ≤ limit) :
    Json.Spells limit depth (.members (pairPublication.members [1])) pairMembers := by
  have hwhole : Json.IsWhole ['1', '0', '0'] := by decide
  have hname : ∀ name : String, Json.ArePlain name.toList → Json.SpellsName name (Json.nameChars name) :=
    fun _ => Json.spellsName_nameChars
  have htime : Json.Spells limit depth (.members [("timestamp", .scalar (.integer 100))])
      (Json.nameChars "timestamp" ++ ['1', '0', '0']) :=
    .member (hname _ (by decide +kernel)) (.plain (.unsigned (.integer hwhole room)))
  exact .members (hname _ (by decide +kernel)) (spells_hexChars _) (.members (hname _ (by decide +kernel))
    (spells_hexChars _) (.members (hname _ (by decide +kernel)) (spells_hexChars _) htime))

theorem spells_pairJson {limit depth : Nat} {document : Document} {value : List Char}
    (h : Json.Spells limit depth (.value document) value) (room : 3 ≤ limit) :
    Json.Spells limit (depth + 1) (.value (Json.ofMembers (pairMembersBehind document))) (pairJson value) :=
  .map (.members (Json.spellsName_nameChars (by decide +kernel)) h (spells_pairMembers room))

theorem spells_digits {limit depth : Nat} {ds : List Char} (whole : Json.IsWhole ds) (few : ds.length ≤ limit) :
    Json.Spells limit depth (.value (.scalar (.integer (Json.digitsValue ds)))) ds :=
  .plain (.unsigned (.integer whole few))

/-- The codec that knows one bag, under one byte, in a runtime of some depth. -/
def codecOf (bag : Cell) (jsonDepth : Nat) : Codec := .ofBags (.ofList [([1], bag)]) false jsonDepth

theorem publication_read_back_pair :
    ∃ bag a, pairPublication.bag = .ok bag ∧
      Attestation.read (codecOf bag 1) (published (pairJson ['7'])) = .ok a ∧ pairPublication.ReadAs a := by
  obtain ⟨bag, hbag, hread⟩ := publication_read_back pairPublication
  have order : (pairMembersBehind (.scalar (.integer 7))).Perm
      (pairPublication.members [1] ++ [(Text.ofString "x", .scalar (.integer 7))]) :=
    (List.perm_append_singleton _ _).symm
  have whole : Json.IsWhole ['7'] := by decide
  obtain ⟨a, ha, hshown⟩ := hread (codecOf bag 1) [1] _ _ (pairJson ['7']) rfl order (by decide +kernel)
    (spells_pairJson (spells_digits whole (by decide)) (by decide))
  exact ⟨bag, a, hbag, ha, hshown⟩

/-- An integer of more digits than can be read, in a member that nobody reads, makes a publication unreadable. -/
theorem long_integer_hides_publication :
    let ds := List.replicate 4301 '1'
    ∃ bag, pairPublication.bag = .ok bag ∧ (codecOf bag 1).ofBytes [1] = .ok bag ∧
      Json.Spells 4301 1 (.value (Json.ofMembers (pairMembersBehind (.scalar (.integer (Json.digitsValue ds))))))
        (pairJson ds) ∧
      Attestation.read (codecOf bag 1) (published (pairJson ds)) = .error (.unreadable .unescaped) := by
  intro ds
  have hlength : ds.length = 4301 := List.length_replicate
  have whole : Json.IsWhole ds := by
    refine Or.inr ⟨⟨List.ne_nil_of_length_eq_add_one hlength, fun d hd => ?_⟩, ?_⟩
    · rw [List.eq_of_mem_replicate hd]
      rfl
    · rw [List.head?_replicate]
      decide
  have hread : Json.read 1 (pairJson ds) = .error .malformed := by
    rw [pairJson_eq]
    exact Json.read_of_long_integer (Json.spellsName_nameChars (by decide +kernel)) whole (by rw [hlength]; decide)
      (Json.ended_cons (by decide))
  obtain ⟨bag, root, hbag, -, -⟩ := pairPublication.exists_bag
  refine ⟨bag, hbag, rfl, spells_pairJson (spells_digits whole (Nat.le_of_eq hlength)) (by decide), ?_⟩
  exact Attestation.read_eq_unreadable.mpr (.notJson (carriesJson_published hread))

/-- However deep the reader follows lists and maps, a member that nests one level deeper ends the reading of a
    publication without a report. -/
theorem nested_member_hides_publication (bag : Cell) (depth : Nat) :
    ∃ json, Json.Spells Text.digitLimit (depth + 2) (.value (Json.ofMembers (pairMembersBehind (.nested depth)))) json ∧
      Attestation.read (codecOf bag (depth + 1)) (published json) = .error (.escaped .tooDeep) := by
  refine ⟨_, spells_pairJson (Json.spells_nested depth) (by decide), ?_⟩
  have hread : Json.read (depth + 1) (pairJson (Json.nestedChars depth)) = .error .tooDeep := by
    rw [pairJson_eq, Json.nestedChars, List.append_assoc]
    exact Json.read_of_nested_member (Json.spellsName_nameChars (by decide +kernel))
  exact Attestation.read_eq_escaped.mpr (Or.inr ⟨rfl, carriesJson_published hread⟩)

end Solvency
