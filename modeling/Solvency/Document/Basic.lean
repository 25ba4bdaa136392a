import Solvency.Binary64.Shortest
import Solvency.Calendar.Display
import Solvency.Text.Quoted

/-!
Documents: scalars, lists and maps as data formats carry them. Integers and binary64 numbers are kept apart, days and
time stamps are scalars of their own, maps keep the order of their keys, and a key is a scalar.
-/

namespace Solvency

/-- A limit of the runtime. -/
inductive RuntimeLimit where
  /-- That of the digits of an integer that is written. -/
  | digits
  /-- That of the lists and maps inside each other that are followed. -/
  | depth
  deriving DecidableEq, Repr

/-- A value without parts. -/
inductive Scalar where
  | null
  | bool (value : Bool)
  | integer (value : Int)
  | float (value : Binary64)
  | text (value : Text)
  | date (value : CalendarDate)
  | timestamp (value : Timestamp)
  deriving DecidableEq, Repr

/-- A value of any shape. -/
inductive Document where
  | scalar (value : Scalar)
  | list (items : List Document)
  | map (entries : List (Scalar × Document))
  deriving Repr

namespace Scalar

/-- What a key is compared by: numbers and truth values by their number. -/
def identity : Scalar → Scalar
  | .bool value => .integer (if value then 1 else 0)
  | .float value =>
    match value.truncate? with
    | some n => if (value.sub (.ofInt n)).isZero then .integer n else .float value
    | none => .float value
  | scalar => scalar

def sameKey (a b : Scalar) : Bool :=
  match a, b with
  | .timestamp s, .timestamp t => s.sameMoment t
  | a, b => a.identity = b.identity

/-- The text of a scalar as it stands by itself. -/
def display : Scalar → Text
  | .null => "None"
  | .bool value => if value then "True" else "False"
  | .integer value => Text.decimal value
  | .float value => value.render Binary64.plain
  | .text value => value
  | .date value => value.display
  | .timestamp value => value.display

/-- The text of a scalar as a part of a list or map: texts are quoted, days and times written as calls. -/
def displayPart : Scalar → Text
  | .text value => Text.quoted value
  | .date value => value.displayPart
  | .timestamp value => value.displayPart
  | scalar => scalar.display

/-- Whether a scalar has a text: an integer can have too many digits for one. -/
def hasDisplay : Scalar → Bool
  | .integer value => Text.isWritable value
  | _ => true

/-- The limit that stands against showing a scalar. -/
def limit? (value : Scalar) : Option RuntimeLimit := if value.hasDisplay then none else some .digits

/-- Null, false, zeros and the empty text. -/
def isVacant : Scalar → Bool
  | .null => true
  | .bool value => !value
  | .integer value => value = 0
  | .float value => value.isZero
  | .text value => value.isEmpty
  | .date _ => false
  | .timestamp _ => false

end Scalar

namespace Document

def ofText (value : Text) : Document := .scalar (.text value)

/-- The document that stands for nothing. -/
def null : Document := .scalar .null

instance : Inhabited Document := ⟨null⟩

mutual
/-- The text of a document as a part of another one. -/
def displayPart : Document → Text
  | .scalar value => value.displayPart
  | .list items => "[" ++ displayItems items ++ "]"
  | .map entries => "\x7b" ++ displayEntries entries ++ "\x7d"
/-- The items of a list with commas between. -/
def displayItems : List Document → Text
  | [] => ""
  | [item] => item.displayPart
  | item :: rest => item.displayPart ++ ", " ++ displayItems rest
/-- The entries of a map with commas between. -/
def displayEntries : List (Scalar × Document) → Text
  | [] => ""
  | [(key, value)] => key.displayPart ++ ": " ++ value.displayPart
  | (key, value) :: rest => key.displayPart ++ ": " ++ value.displayPart ++ ", " ++ displayEntries rest
end

/-- The text of a document as it stands by itself. -/
def display : Document → Text
  | .scalar value => value.display
  | document => document.displayPart

mutual
/-- Whether a document has a text: all its scalars need one. -/
def hasDisplay : Document → Bool
  | .scalar value => value.hasDisplay
  | .list items => haveDisplay items
  | .map entries => entriesHaveDisplay entries
/-- Whether all items of a list have a text. -/
def haveDisplay : List Document → Bool
  | [] => true
  | item :: rest => item.hasDisplay && haveDisplay rest
/-- Whether all keys and values of a map have a text. -/
def entriesHaveDisplay : List (Scalar × Document) → Bool
  | [] => true
  | (key, value) :: rest => key.hasDisplay && value.hasDisplay && entriesHaveDisplay rest
end

mutual
/-- How many lists and maps stand inside each other. -/
def height : Document → Nat
  | .scalar _ => 0
  | .list items => heightOfItems items + 1
  | .map entries => heightOfEntries entries + 1
/-- The greatest height of the items of a list. -/
def heightOfItems : List Document → Nat
  | [] => 0
  | item :: rest => max item.height (heightOfItems rest)
/-- The greatest height of the values of a map. -/
def heightOfEntries : List (Scalar × Document) → Nat
  | [] => 0
  | (_, value) :: rest => max value.height (heightOfEntries rest)
end

section Faults
variable {ε : Type} (ofScalar ofKey : Scalar → Option ε) (tooDeep : ε)

mutual
/-- The first fault of a document that is gone through in its order, down to a depth: that of a scalar or of a key, or
    that lists and maps stand deeper inside each other. -/
def firstFault : Nat → Document → Option ε
  | _, .scalar value => ofScalar value
  | 0, .list _ => some tooDeep
  | 0, .map _ => some tooDeep
  | depth + 1, .list items => firstFaultOfItems depth items
  | depth + 1, .map entries => firstFaultOfEntries depth entries
/-- The first fault in the items of a list. -/
def firstFaultOfItems : Nat → List Document → Option ε
  | _, [] => none
  | depth, item :: rest => (firstFault depth item).or (firstFaultOfItems depth rest)
/-- The first fault in the entries of a map. -/
def firstFaultOfEntries : Nat → List (Scalar × Document) → Option ε
  | _, [] => none
  | depth, (key, value) :: rest => ((ofKey key).or (firstFault depth value)).or (firstFaultOfEntries depth rest)
end

end Faults

/-- The limit that is reached first where a document is shown down to a depth. -/
def limit? (depth : Nat) (document : Document) : Option RuntimeLimit :=
  document.firstFault Scalar.limit? Scalar.limit? .depth depth

/-- The text of a document as it stands by itself, unless a limit is reached. -/
def displayWithin (depth : Nat) (document : Document) : Except RuntimeLimit Text :=
  match document.limit? depth with
  | some limit => .error limit
  | none => .ok document.display

/-- The text of a document as a part of another one, unless a limit is reached. -/
def displayPartWithin (depth : Nat) (document : Document) : Except RuntimeLimit Text :=
  match document.limit? depth with
  | some limit => .error limit
  | none => .ok document.displayPart

/-- Vacant scalars, the empty list and the empty map. -/
def isVacant : Document → Bool
  | .scalar value => value.isVacant
  | .list items => items.isEmpty
  | .map entries => entries.isEmpty

def lookup (key : Text) (entries : List (Scalar × Document)) : Option Document :=
  (entries.find? fun entry => entry.1 = .text key).map Prod.snd

/-- The entries with `key` set to `value`: in the place of the same key, or at the end. -/
def setEntry (key : Scalar) (value : Document) : List (Scalar × Document) → List (Scalar × Document)
  | [] => [(key, value)]
  | entry :: rest =>
    if entry.1.sameKey key then (entry.1, value) :: rest else entry :: setEntry key value rest

/-- The map that setting the entries one after another gives. -/
def ofEntries (entries : List (Scalar × Document)) : Document :=
  .map (entries.foldl (fun done entry => setEntry entry.1 entry.2 done) [])

end Document

end Solvency
