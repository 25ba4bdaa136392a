import Solvency.Proofs.Races
import Solvency.Proofs.Readers

/-! Faults: why a published text gives no attestation. Its layers are opened one after another, and the first one that
    is malformed is the one that is reported. Two kinds of text are neither read nor reported: that of a JSON document
    that nests too deep, and that of an object whose bytes can all be read and whose timestamp is infinite. -/

namespace Solvency

/-- The fields of an object that are given as hexadecimal text, in the order in which they are read. -/
def hexFieldNames : List Text := ["packedPrices", "signature", "publicKey"]

/-- The bytes that a value gives, if it is hexadecimal text. -/
def Document.bytes? : Document → Option (List UInt8)
  | .scalar (.text value) => Text.hexBytes? value
  | _ => none

/-- An object gives bytes under a name. -/
def GivesBytes (entries : List (Scalar × Document)) (name : Text) (bytes : List UInt8) : Prop :=
  ∃ value, Document.lookup name entries = some value ∧ value.bytes? = some bytes

/-- An object gives bytes under the names of all its hexadecimal fields. -/
def GivesFields (entries : List (Scalar × Document)) : Prop :=
  ∀ name ∈ hexFieldNames, ∃ bytes, GivesBytes entries name bytes

/-- An object gives a time: there is an integer to what stands in its field. -/
def GivesTime (entries : List (Scalar × Document)) (seconds : Int) : Prop :=
  ∃ value, Document.lookup "timestamp" entries = some value ∧ value.toInteger = .ok seconds

/-- What stands in the field for the time is an infinite number. -/
def HasInfiniteTime (entries : List (Scalar × Document)) : Prop :=
  ∃ negative, Document.lookup "timestamp" entries = some (.scalar (.float (.infinite negative)))

/-- Reading the JSON that a text carries, behind two characters and in an even number of them, ends in some way. -/
def CarriesJson (codec : Codec) (raw : Text) (reading : Except Json.Fault Document) : Prop :=
  raw.length % 2 ≠ 1 ∧ ∃ json, carried? raw = some json ∧ Json.read codec.jsonDepth json = reading

/-- A text publishes an object: it carries a JSON object. -/
def Publishes (codec : Codec) (raw : Text) (entries : List (Scalar × Document)) : Prop :=
  CarriesJson codec raw (.ok (.map entries))

/-! ### Fields -/

section
variable {entries : List (Scalar × Document)} {name : Text}

theorem hexField_of_none (h : Document.lookup name entries = none) :
    hexField entries name = .error (.unreadable (.missingField name)) := by
  rw [hexField, h]

theorem hexField_of_some {value : Document} (h : Document.lookup name entries = some value) :
    hexField entries name = value.bytes?.elim (.error (.unreadable (.notHex name))) .ok := by
  rw [hexField, h]
  cases value with
  | scalar value =>
    cases value with
    | text value =>
      simp only [Document.bytes?]
      cases Text.hexBytes? value <;> rfl
    | _ => rfl
  | _ => rfl

theorem hexField_eq_ok {bytes : List UInt8} : hexField entries name = .ok bytes ↔ GivesBytes entries name bytes := by
  unfold GivesBytes
  cases hvalue : Document.lookup name entries with
  | none => simp [hexField_of_none hvalue]
  | some value =>
    rw [hexField_of_some hvalue]
    cases hbytes : value.bytes? <;> simp [hbytes]

theorem hexField_eq_error {e : AttestationError} : hexField entries name = .error e ↔
    (Document.lookup name entries = none ∧ e = .unreadable (.missingField name)) ∨
      ∃ value, Document.lookup name entries = some value ∧ value.bytes? = none ∧ e = .unreadable (.notHex name) := by
  cases hvalue : Document.lookup name entries with
  | none => simp [hexField_of_none hvalue, eq_comm]
  | some value =>
    rw [hexField_of_some hvalue]
    cases hbytes : value.bytes? <;> simp [hbytes, eq_comm]

theorem timestampField_eq_ok {seconds : Int} : timestampField entries = .ok seconds ↔ GivesTime entries seconds := by
  unfold timestampField GivesTime
  cases Document.lookup "timestamp" entries with
  | none => simp
  | some value =>
    cases hvalue : value.toInteger with
    | ok n => simp [hvalue]
    | error e => cases e <;> simp [hvalue]

theorem toInteger_eq_infinite {value : Document} :
    value.toInteger = .error .infinite ↔ ∃ negative, value = .scalar (.float (.infinite negative)) := by
  constructor
  · intro h
    unfold Document.toInteger at h
    split at h
    · rename_i scalar
      unfold Scalar.toInteger at h
      split at h <;> try split at h
      all_goals try cases h
      exact ⟨_, rfl⟩
    · cases h
  · rintro ⟨negative, rfl⟩
    rfl

theorem timestampField_eq_error {e : AttestationError} : timestampField entries = .error e ↔
    (HasInfiniteTime entries ∧ e = .escaped .infiniteTimestamp) ∨
      (¬HasInfiniteTime entries ∧ (¬∃ seconds, GivesTime entries seconds) ∧ e = .unreadable .noTimestamp) := by
  unfold timestampField HasInfiniteTime GivesTime
  cases Document.lookup "timestamp" entries with
  | none => simp [eq_comm]
  | some value =>
    simp only [Option.some.injEq, exists_eq_left', ← toInteger_eq_infinite]
    cases hvalue : value.toInteger with
    | ok n => simp
    | error e => cases e <;> simp [eq_comm]

theorem GivesBytes.unique {bytes bytes' : List UInt8} (h : GivesBytes entries name bytes)
    (h' : GivesBytes entries name bytes') : bytes = bytes' :=
  Except.ok.inj ((hexField_eq_ok.mpr h).symm.trans (hexField_eq_ok.mpr h'))

end

/-! ### Objects and texts -/

theorem unpackPrices_eq_ok {codec : Codec} {packed : List UInt8} {d : Dictionary} {prices : Table Text Int} :
    unpackPrices codec packed = .ok (d, prices) ↔ ∃ bag root, codec.ofBytes packed = .ok bag ∧
      bag.refs.head? = some root ∧ root.dictionary priceKeyBits = .ok d ∧ readPrices d = .ok prices := by
  simp only [unpackPrices, bind_eq_ok, pure_eq_ok, Cell.parse_ref_eq_ok]
  constructor
  · rintro ⟨bag, hbag, root, hroot, _, hd, _, hprices, ⟨⟩⟩
    exact ⟨bag, root, hbag, hroot, hd, hprices⟩
  · rintro ⟨bag, root, hbag, hroot, hd, hprices⟩
    exact ⟨bag, hbag, root, hroot, d, hd, prices, hprices, rfl⟩

/-- The first fault of a published text: every layer in front of it is sound. -/
inductive FirstFault (codec : Codec) (raw : Text) : AttestationFault → Prop
  | oddLength (odd : raw.length % 2 = 1) : FirstFault codec raw .oddLength
  | notText (even : raw.length % 2 ≠ 1) (unread : carried? raw = none) : FirstFault codec raw .unescaped
  | notJson (unread : CarriesJson codec raw (.error .malformed)) : FirstFault codec raw .unescaped
  | notObject {document : Document} (read : CarriesJson codec raw (.ok document))
      (other : ∀ entries, document ≠ .map entries) : FirstFault codec raw .notObject
  | missingField {entries : List (Scalar × Document)} {name : Text} {earlier later : List Text}
      (object : Publishes codec raw entries) (order : hexFieldNames = earlier ++ name :: later)
      (given : ∀ name ∈ earlier, ∃ bytes, GivesBytes entries name bytes)
      (missing : Document.lookup name entries = none) : FirstFault codec raw (.missingField name)
  | notHex {entries : List (Scalar × Document)} {name : Text} {earlier later : List Text} {value : Document}
      (object : Publishes codec raw entries) (order : hexFieldNames = earlier ++ name :: later)
      (given : ∀ name ∈ earlier, ∃ bytes, GivesBytes entries name bytes)
      (present : Document.lookup name entries = some value) (unread : value.bytes? = none) :
      FirstFault codec raw (.notHex name)
  | noTimestamp {entries : List (Scalar × Document)} (object : Publishes codec raw entries) (given : GivesFields entries)
      (finite : ¬HasInfiniteTime entries) (timeless : ¬∃ seconds, GivesTime entries seconds) :
      FirstFault codec raw .noTimestamp
  | packedPrices {entries : List (Scalar × Document)} {packed : List UInt8} {seconds : Int} {cause : CellError}
      (object : Publishes codec raw entries) (given : GivesFields entries) (time : GivesTime entries seconds)
      (bytes : GivesBytes entries "packedPrices" packed) (unread : unpackPrices codec packed = .error cause) :
      FirstFault codec raw (.packedPrices cause)

def PublishesInfiniteTime (codec : Codec) (raw : Text) : Prop :=
  ∃ entries, Publishes codec raw entries ∧ GivesFields entries ∧ HasInfiniteTime entries

/-- The JSON that a text carries opens more lists and maps inside each other than are followed. -/
def NestsTooDeep (codec : Codec) (raw : Text) : Prop := CarriesJson codec raw (.error .tooDeep)

section
variable {codec : Codec} {raw : Text} {entries : List (Scalar × Document)}

/-- The fields in one traversal, so that the first one that is not given is the first that fails. -/
theorem Attestation.ofObject_eq (codec : Codec) (entries : List (Scalar × Document)) :
    ofObject codec entries = (do
      let fields ← hexFieldNames.mapM (hexField entries)
      let timestamp ← timestampField entries
      let (dictionary, prices) ← (unpackPrices codec fields[0]!).mapError fun cause => .unreadable (.packedPrices cause)
      return { prices, dictionary, signature := fields[1]!, timestamp, publicKey := fields[2]! }) := by
  simp [ofObject, hexFieldNames]

theorem givesFields_iff : GivesFields entries ↔ ∃ fields, hexFieldNames.mapM (hexField entries) = .ok fields := by
  simp only [GivesFields, ← hexField_eq_ok]
  constructor
  · exact exists_mapM_ok
  · rintro ⟨fields, hfields⟩ name hname
    obtain ⟨bytes, -, hbytes⟩ := Forall₂.exists_right (mapM_eq_ok.mp hfields) hname
    exact ⟨bytes, hbytes⟩

theorem givesBytes_packed {fields : List (List UInt8)} (h : hexFieldNames.mapM (hexField entries) = .ok fields) :
    GivesBytes entries "packedPrices" fields[0]! := by
  obtain ⟨packed, others, hpacked, -, rfl⟩ := List.forall₂_cons_left_iff.mp (mapM_eq_ok.mp h)
  exact hexField_eq_ok.mp hpacked

theorem Attestation.ofObject_eq_ok {a : Attestation} : ofObject codec entries = .ok a ↔
    ∃ packed, GivesBytes entries "packedPrices" packed ∧ GivesBytes entries "signature" a.signature ∧
      GivesBytes entries "publicKey" a.publicKey ∧ GivesTime entries a.timestamp ∧
      unpackPrices codec packed = .ok (a.dictionary, a.prices) ∧ a.oracleId = none := by
  simp only [ofObject, bind_eq_ok, hexField_eq_ok, timestampField_eq_ok, mapError_eq_ok, pure_eq_ok]
  constructor
  · rintro ⟨packed, hpacked, _, hsignature, _, hkey, _, htime, ⟨dictionary, prices⟩, hunpack, rfl⟩
    exact ⟨packed, hpacked, hsignature, hkey, htime, hunpack, rfl⟩
  · rintro ⟨packed, hpacked, hsignature, hkey, htime, hunpack, hid⟩
    refine ⟨packed, hpacked, _, hsignature, _, hkey, _, htime, _, hunpack, ?_⟩
    rw [← hid]

theorem Attestation.ofObject_eq_error {e : AttestationError} : ofObject codec entries = .error e ↔
    (∃ earlier name later, hexFieldNames = earlier ++ name :: later ∧
        (∀ name ∈ earlier, ∃ bytes, GivesBytes entries name bytes) ∧ hexField entries name = .error e) ∨
      (GivesFields entries ∧ timestampField entries = .error e) ∨
      ∃ packed seconds cause, GivesFields entries ∧ GivesTime entries seconds ∧
        GivesBytes entries "packedPrices" packed ∧ unpackPrices codec packed = .error cause ∧
        e = .unreadable (.packedPrices cause) := by
  rw [ofObject_eq, bind_eq_error, mapM_eq_error]
  simp only [hexField_eq_ok, givesFields_iff]
  refine or_congr Iff.rfl ⟨?_, ?_⟩
  · rintro ⟨fields, hfields, h⟩
    rcases bind_eq_error.mp h with h | ⟨seconds, hseconds, h⟩
    · exact Or.inl ⟨⟨fields, hfields⟩, h⟩
    · rcases bind_eq_error.mp h with h | ⟨_, -, h⟩
      · obtain ⟨cause, hcause, rfl⟩ := mapError_eq_error.mp h
        exact Or.inr ⟨fields[0]!, seconds, cause, ⟨fields, hfields⟩, timestampField_eq_ok.mp hseconds,
          givesBytes_packed hfields, hcause, rfl⟩
      · cases h
  · rintro (⟨⟨fields, hfields⟩, h⟩ | ⟨packed, seconds, cause, ⟨fields, hfields⟩, htime, hpacked, hcause, rfl⟩)
    · exact ⟨fields, hfields, bind_eq_error.mpr (Or.inl h)⟩
    · -- The bytes that the bag is read from are the first field that was read.
      obtain rfl := hpacked.unique (givesBytes_packed hfields)
      refine ⟨fields, hfields, bind_eq_error.mpr (Or.inr ⟨seconds, timestampField_eq_ok.mpr htime, ?_⟩)⟩
      exact bind_eq_error.mpr (Or.inl (mapError_eq_error.mpr ⟨cause, hcause, rfl⟩))

theorem unescape_eq_ok {depth : Nat} {document : Document} :
    unescape depth raw = .ok document ↔ ∃ json, carried? raw = some json ∧ Json.read depth json = .ok document := by
  unfold unescape
  cases carried? raw with
  | none => simp
  | some json =>
    cases hread : Json.read depth json with
    | ok document => simp [hread]
    | error fault => cases fault <;> simp [hread]

theorem unescape_eq_error {depth : Nat} {e : AttestationError} : unescape depth raw = .error e ↔
    (carried? raw = none ∧ e = .unreadable .unescaped) ∨
      (∃ json, carried? raw = some json ∧ Json.read depth json = .error .malformed) ∧ e = .unreadable .unescaped ∨
      (∃ json, carried? raw = some json ∧ Json.read depth json = .error .tooDeep) ∧ e = .escaped .tooDeep := by
  unfold unescape
  cases carried? raw with
  | none => simp [eq_comm]
  | some json =>
    cases hread : Json.read depth json with
    | ok document => simp [hread]
    | error fault => cases fault <;> simp [hread, eq_comm]

theorem Attestation.read_eq_ok {a : Attestation} :
    read codec raw = .ok a ↔ ∃ entries, Publishes codec raw entries ∧ ofObject codec entries = .ok a := by
  unfold read Publishes CarriesJson
  simp only [← unescape_eq_ok]
  split
  · rename_i hodd
    simp [hodd]
  · rename_i heven
    cases unescape codec.jsonDepth raw with
    | error e => simp
    | ok document => cases document <;> simp [heven]

theorem Attestation.read_eq_error {e : AttestationError} : read codec raw = .error e ↔
    (raw.length % 2 = 1 ∧ e = .unreadable .oddLength) ∨
      (raw.length % 2 ≠ 1 ∧ unescape codec.jsonDepth raw = .error e) ∨
      ((∃ document, CarriesJson codec raw (.ok document) ∧ ∀ entries, document ≠ .map entries) ∧
        e = .unreadable .notObject) ∨
      ∃ entries, Publishes codec raw entries ∧ ofObject codec entries = .error e := by
  unfold read Publishes CarriesJson
  simp only [← unescape_eq_ok]
  split
  · rename_i hodd
    simp [hodd, eq_comm]
  · rename_i heven
    cases unescape codec.jsonDepth raw with
    | error e' => simp [heven]
    | ok document => cases document <;> simp [heven, eq_comm (a := e)]

theorem Attestation.read_of_ofObject_error {e : AttestationError} (hobject : Publishes codec raw entries)
    (h : ofObject codec entries = .error e) : read codec raw = .error e :=
  read_eq_error.mpr (Or.inr (Or.inr (Or.inr ⟨entries, hobject, h⟩)))

/-- What an object is reported under is the first fault of the text it stands in. -/
theorem FirstFault.of_ofObject {fault : AttestationFault} (hobject : Publishes codec raw entries)
    (h : Attestation.ofObject codec entries = .error (.unreadable fault)) : FirstFault codec raw fault := by
  rcases Attestation.ofObject_eq_error.mp h with ⟨earlier, name, later, order, hgiven, hfield⟩ | ⟨hgiven, htime⟩ |
    ⟨packed, seconds, cause, hgiven, htime, hpacked, hcause, he⟩
  · rcases hexField_eq_error.mp hfield with ⟨hnone, he⟩ | ⟨value, hvalue, hunread, he⟩
    · cases he
      exact .missingField hobject order hgiven hnone
    · cases he
      exact .notHex hobject order hgiven hvalue hunread
  · rcases timestampField_eq_error.mp htime with ⟨-, he⟩ | ⟨hfinite, hnone, he⟩
    · cases he
    · cases he
      exact .noTimestamp hobject hgiven hfinite hnone
  · cases he
    exact .packedPrices hobject hgiven htime hpacked hcause

/-- A text is reported under its first fault. -/
theorem Attestation.read_eq_unreadable {fault : AttestationFault} :
    read codec raw = .error (.unreadable fault) ↔ FirstFault codec raw fault := by
  constructor
  · intro h
    rcases read_eq_error.mp h with ⟨hodd, he⟩ | ⟨heven, hread⟩ | ⟨⟨document, hread, hother⟩, he⟩ | ⟨entries, hobject, h⟩
    · cases he
      exact .oddLength hodd
    · rcases unescape_eq_error.mp hread with ⟨hnone, he⟩ | ⟨hmalformed, he⟩ | ⟨-, he⟩
      · cases he
        exact .notText heven hnone
      · cases he
        exact .notJson ⟨heven, hmalformed⟩
      · cases he
    · cases he
      exact .notObject hread hother
    · exact .of_ofObject hobject h
  · intro h
    cases h with
    | oddLength odd => exact read_eq_error.mpr (Or.inl ⟨odd, rfl⟩)
    | notText even unread =>
      exact read_eq_error.mpr (Or.inr (Or.inl ⟨even, unescape_eq_error.mpr (Or.inl ⟨unread, rfl⟩)⟩))
    | notJson unread =>
      exact read_eq_error.mpr
        (Or.inr (Or.inl ⟨unread.1, unescape_eq_error.mpr (Or.inr (Or.inl ⟨unread.2, rfl⟩))⟩))
    | notObject read other => exact read_eq_error.mpr (Or.inr (Or.inr (Or.inl ⟨⟨_, read, other⟩, rfl⟩)))
    | missingField object order given missing =>
      exact read_of_ofObject_error object (ofObject_eq_error.mpr
        (Or.inl ⟨_, _, _, order, given, hexField_eq_error.mpr (Or.inl ⟨missing, rfl⟩)⟩))
    | notHex object order given present unread =>
      exact read_of_ofObject_error object (ofObject_eq_error.mpr
        (Or.inl ⟨_, _, _, order, given, hexField_eq_error.mpr (Or.inr ⟨_, present, unread, rfl⟩)⟩))
    | noTimestamp object given finite timeless =>
      exact read_of_ofObject_error object (ofObject_eq_error.mpr
        (Or.inr (Or.inl ⟨given, timestampField_eq_error.mpr (Or.inr ⟨finite, timeless, rfl⟩)⟩)))
    | packedPrices object given time bytes unread =>
      exact read_of_ofObject_error object (ofObject_eq_error.mpr
        (Or.inr (Or.inr ⟨_, _, _, given, time, bytes, unread, rfl⟩)))

/-- The infinite timestamp is the one field of an object whose reading ends without a report. -/
theorem Attestation.ofObject_eq_escaped {escape : AttestationEscape} :
    ofObject codec entries = .error (.escaped escape) ↔
      escape = .infiniteTimestamp ∧ GivesFields entries ∧ HasInfiniteTime entries := by
  constructor
  · intro h
    rcases ofObject_eq_error.mp h with ⟨_, name, _, -, -, hfield⟩ | ⟨hgiven, htime⟩ | ⟨_, _, _, -, -, -, -, he⟩
    · rcases hexField_eq_error.mp hfield with ⟨-, he⟩ | ⟨_, -, -, he⟩ <;> cases he
    · rcases timestampField_eq_error.mp htime with ⟨hinfinite, he⟩ | ⟨-, -, he⟩
      · cases he
        exact ⟨rfl, hgiven, hinfinite⟩
      · cases he
    · cases he
  · rintro ⟨rfl, hgiven, hinfinite⟩
    exact ofObject_eq_error.mpr (Or.inr (Or.inl ⟨hgiven, timestampField_eq_error.mpr (Or.inl ⟨hinfinite, rfl⟩)⟩))

theorem Attestation.read_eq_escaped {escape : AttestationEscape} : read codec raw = .error (.escaped escape) ↔
    (escape = .infiniteTimestamp ∧ PublishesInfiniteTime codec raw) ∨ (escape = .tooDeep ∧ NestsTooDeep codec raw) := by
  constructor
  · intro h
    rcases read_eq_error.mp h with ⟨-, he⟩ | ⟨heven, hread⟩ | ⟨-, he⟩ | ⟨entries, hobject, h⟩
    · cases he
    · rcases unescape_eq_error.mp hread with ⟨-, he⟩ | ⟨-, he⟩ | ⟨hdeep, he⟩
      · cases he
      · cases he
      · cases he
        exact Or.inr ⟨rfl, heven, hdeep⟩
    · cases he
    · obtain ⟨rfl, hgiven, hinfinite⟩ := ofObject_eq_escaped.mp h
      exact Or.inl ⟨rfl, entries, hobject, hgiven, hinfinite⟩
  · rintro (⟨rfl, entries, hobject, hgiven, hinfinite⟩ | ⟨rfl, heven, hdeep⟩)
    · exact read_of_ofObject_error hobject (ofObject_eq_escaped.mpr ⟨rfl, hgiven, hinfinite⟩)
    · exact read_eq_error.mpr (Or.inr (Or.inl ⟨heven, unescape_eq_error.mpr (Or.inr (Or.inr ⟨hdeep, rfl⟩))⟩))

end

/-- A published text gives an attestation or is reported, exactly if it neither publishes an infinite timestamp nor
    nests too deep; what is reported is its first fault. -/
theorem faults_reported_iff (codec : Codec) (raw : Text) :
    (((∃ a, Attestation.read codec raw = .ok a) ∨ ∃ fault, Attestation.read codec raw = .error (.unreadable fault)) ↔
        ¬PublishesInfiniteTime codec raw ∧ ¬NestsTooDeep codec raw) ∧
      ∀ fault, Attestation.read codec raw = .error (.unreadable fault) ↔ FirstFault codec raw fault := by
  refine ⟨?_, fun fault => Attestation.read_eq_unreadable⟩
  have hescaped : (∃ escape, Attestation.read codec raw = .error (.escaped escape)) ↔
      PublishesInfiniteTime codec raw ∨ NestsTooDeep codec raw := by
    simp [Attestation.read_eq_escaped, exists_or]
  rw [← not_or, ← hescaped]
  cases Attestation.read codec raw with
  | ok a => simp
  | error e => cases e <;> simp

/-- A text whose timestamp is infinite is neither read nor reported. -/
theorem infinite_timestamp_not_reported :
    let raw := Race.publication "01" "" (.float (.infinite false))
    ¬((∃ a, Attestation.read Race.tonCodec raw = .ok a) ∨
      ∃ fault, Attestation.read Race.tonCodec raw = .error (.unreadable fault)) := by
  intro raw
  have hread : Attestation.read Race.tonCodec raw = .error (.escaped .infiniteTimestamp) := by decide +kernel
  rw [hread]
  simp

end Solvency
