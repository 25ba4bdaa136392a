import Solvency.Text.Integer

/-!
Cells: typed tokens, references to other cells and, at the root of a dictionary, its entries. A dictionary has
integer keys in ascending order; its root carries the width that its keys were written with.
-/

namespace Solvency

/-- A stored value with its width. -/
inductive Token where
  | uint (bits : Nat) (value : Int)
  | int (bits : Nat) (value : Int)
  | varUint (maxLength : Nat) (value : Int)
  | coins (width : Nat) (value : Int)
  | address (width : Nat) (value : Text)
  | bytes (width : Nat) (value : List UInt8)
  | maybe (width : Nat) (present : Bool)
  | proof (width : Nat)
  deriving DecidableEq, Repr

/-- What a token stores. -/
inductive TokenKind where
  | uint
  | int
  | varUint
  | coins
  | address
  | bytes
  | maybe
  | proof
  deriving DecidableEq, Repr

namespace TokenKind

def name : TokenKind → Text
  | .uint => "uint"
  | .int => "int"
  | .varUint => "var_uint"
  | .coins => "coins"
  | .address => "address"
  | .bytes => "bytes"
  | .maybe => "maybe"
  | .proof => "proof"

end TokenKind

namespace Token

def kind : Token → TokenKind
  | .uint .. => .uint
  | .int .. => .int
  | .varUint .. => .varUint
  | .coins .. => .coins
  | .address .. => .address
  | .bytes .. => .bytes
  | .maybe .. => .maybe
  | .proof .. => .proof

def width : Token → Nat
  | .uint w _ | .int w _ | .varUint w _ | .coins w _ | .address w _ | .bytes w _ | .maybe w _ | .proof w => w

end Token

/-- A cell. The entries are those of a dictionary that the cell is the root of. -/
inductive Cell where
  | node (tokens : List Token) (refs : List Cell) (entries : Option (List (Int × Cell))) (keyBits : Nat)
  deriving Repr

namespace Cell

/-- The width of dictionary keys where none is given: an asset is named by a number of this width. -/
def defaultKeyBits : Nat := 256

def ofParts (tokens : List Token) (refs : List Cell) : Cell := .node tokens refs none defaultKeyBits

instance : Inhabited Cell := ⟨ofParts [] []⟩

def tokens : Cell → List Token
  | .node tokens _ _ _ => tokens

def refs : Cell → List Cell
  | .node _ refs _ _ => refs

/-- The entries of the dictionary that a cell is the root of. -/
def entries : Cell → Option (List (Int × Cell))
  | .node _ _ entries _ => entries

/-- The width of the keys of that dictionary. -/
def keyBits : Cell → Nat
  | .node _ _ _ keyBits => keyBits

end Cell

/-- Why a cell could not be read or written. -/
inductive CellError where
  | underflow (wanted : TokenKind)
  /-- The next token is of another kind, or of another width where one is asked for. -/
  | mismatch (wanted : TokenKind) (width : Option Nat) (found : TokenKind) (foundWidth : Nat)
  | noReference
  | keyWidth (stored asked : Nat)
  | notDictionary
  | outOfRange (value : Int) (bits : Nat)
  | negativeCoins
  | unknownBag
  | proofRefused
  deriving DecidableEq, Repr

def CellError.message : CellError → Text
  | .underflow wanted => "slice underflow reading " ++ wanted.name
  | .mismatch wanted width found foundWidth =>
    let asked := match width with
      | some bits => Text.decimal bits
      | none => "None"
    "expected " ++ wanted.name ++ "(" ++ asked ++ "), found " ++ found.name ++ "(" ++ Text.decimal foundWidth ++ ")"
  | .noReference => "no references left"
  | .keyWidth stored asked =>
    "dictionary keys have " ++ Text.decimal stored ++ " bits, not " ++ Text.decimal asked
  | .notDictionary => "cell is not a dictionary root"
  | .outOfRange value bits =>
    match Text.decimal? value with
    | some digits => digits ++ " does not fit in uint" ++ Text.decimal bits
    | none => Text.digitLimitMessage
  | .negativeCoins => "coins must be non-negative"
  | .unknownBag => "unknown bag of cells"
  | .proofRefused => "cannot build proof skeleton"

end Solvency
