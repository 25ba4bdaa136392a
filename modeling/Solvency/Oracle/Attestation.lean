import Solvency.Cell.Codec
import Solvency.Cell.Reader
import Solvency.Document.Integer
import Solvency.Json.Reader
import Solvency.Table
import Solvency.Text.Hex
import Solvency.Text.Utf8

/-!
Attestations: the prices that an oracle signed, with the dictionary that it signed them in. What an oracle publishes is
two characters and the hexadecimal text of a JSON object, whose fields are hexadecimal text again; the packed prices
are a bag of cells.
-/

namespace Solvency

/-- The prices that an oracle signed at a time. -/
structure Attestation where
  prices : Table Text Int
  dictionary : Dictionary
  signature : List UInt8
  timestamp : Int
  publicKey : List UInt8 := []
  oracleId : Option Int := none
  deriving Repr

/-- What makes a published text unreadable. -/
inductive AttestationFault where
  | oddLength
  /-- The text is not that of a JSON document. -/
  | unescaped
  | notObject
  | missingField (name : Text)
  | notHex (name : Text)
  | noTimestamp
  | packedPrices (cause : CellError)
  deriving DecidableEq, Repr

/-- The text that reports the fault. What a reader of hexadecimal text, of JSON or of integers has to say stands as an
    asterisk. -/
def AttestationFault.message : AttestationFault → Text
  | .oddLength => "invalid price data"
  | .unescaped => "failed to unescape attestation: *"
  | .notObject => "attestation is not a JSON object"
  | .missingField name => "attestation has no '" ++ name ++ "'"
  | .notHex name => "attestation '" ++ name ++ "' is not hex: *"
  | .noTimestamp => "attestation has no valid timestamp: *"
  | .packedPrices cause => "failed to decode packed prices: " ++ cause.message

/-- What ends the reading of a published text without a report of its own. -/
inductive AttestationEscape where
  /-- The timestamp is an infinite number. -/
  | infiniteTimestamp
  /-- The lists and maps of the JSON document stand too deep inside each other. -/
  | tooDeep
  deriving DecidableEq, Repr

/-- Why a published text gives no attestation. -/
inductive AttestationError where
  | unreadable (fault : AttestationFault)
  | escaped (escape : AttestationEscape)
  deriving DecidableEq, Repr

/-- The width of the keys in a dictionary of prices. -/
def priceKeyBits : Nat := 256

/-- The greatest length of a price in bytes. -/
def priceMaxLength : Nat := 16

/-- The characters that a text carries: the UTF-8 bytes of its hexadecimal digits behind the first two characters. -/
def carried? (raw : Text) : Option (List Char) := do
  let bytes ← Text.hexBytes? (raw.drop 2)
  Text.readUtf8 bytes

/-- The JSON document that a text carries. -/
def unescape (depth : Nat) (raw : Text) : Except AttestationError Document :=
  match carried? raw with
  | none => .error (.unreadable .unescaped)
  | some json =>
    match Json.read depth json with
    | .ok document => .ok document
    | .error .malformed => .error (.unreadable .unescaped)
    | .error .tooDeep => .error (.escaped .tooDeep)

/-- The bytes that a field gives as hexadecimal text. -/
def hexField (entries : List (Scalar × Document)) (name : Text) : Except AttestationError (List UInt8) :=
  match Document.lookup name entries with
  | none => .error (.unreadable (.missingField name))
  | some (.scalar (.text value)) =>
    match Text.hexBytes? value with
    | some bytes => .ok bytes
    | none => .error (.unreadable (.notHex name))
  | some _ => .error (.unreadable (.notHex name))

/-- The time that an object was signed at. -/
def timestampField (entries : List (Scalar × Document)) : Except AttestationError Int :=
  match Document.lookup "timestamp" entries with
  | none => .error (.unreadable .noTimestamp)
  | some value =>
    match value.toInteger with
    | .ok seconds => .ok seconds
    | .error .infinite => .error (.escaped .infiniteTimestamp)
    | .error _ => .error (.unreadable .noTimestamp)

/-- The prices in a dictionary, under the decimal digits of its keys. -/
def readPrices (d : Dictionary) : Except CellError (Table Text Int) := do
  let rows ← d.entries.mapM fun entry => do
    return (Text.decimal entry.1, ← entry.2.parse (CellReader.varUint priceMaxLength))
  return .ofList rows

/-- The dictionary in a bag of cells, and its prices. -/
def unpackPrices (codec : Codec) (packed : List UInt8) : Except CellError (Dictionary × Table Text Int) := do
  let bag ← codec.ofBytes packed
  let root ← bag.parse CellReader.ref
  let dictionary ← root.dictionary priceKeyBits
  return (dictionary, ← readPrices dictionary)

def Attestation.ofObject (codec : Codec) (entries : List (Scalar × Document)) :
    Except AttestationError Attestation := do
  let packed ← hexField entries "packedPrices"
  let signature ← hexField entries "signature"
  let publicKey ← hexField entries "publicKey"
  let timestamp ← timestampField entries
  let (dictionary, prices) ← (unpackPrices codec packed).mapError fun cause => .unreadable (.packedPrices cause)
  return { prices, dictionary, signature, timestamp, publicKey }

def Attestation.read (codec : Codec) (raw : Text) : Except AttestationError Attestation :=
  if raw.length % 2 = 1 then .error (.unreadable .oddLength)
  else
    match unescape codec.jsonDepth raw with
    | .error e => .error e
    | .ok (.map entries) => Attestation.ofObject codec entries
    | .ok _ => .error (.unreadable .notObject)

end Solvency
