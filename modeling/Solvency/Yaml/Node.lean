import Solvency.Yaml.Scalar

/-!
Nodes of YAML text and the documents that they stand for. A mapping takes in the entries of other mappings under the
plain key `<<`, in front of its own, so that its own win; of several mappings in a sequence the earlier wins. What a
node stands for is worked out level by level from the root, and the first fault on that way is the fault of the node.
-/

namespace Solvency.Yaml

/-- A node: a plain text, a quoted one or a collection of nodes. -/
inductive Node where
  | plain (text : String)
  | quoted (text : Text)
  | sequence (items : List Node)
  | mapping (entries : List (Node × Node))
  /-- A mapping that is to take in the entries of something that has none. -/
  | unmergeable

namespace Node

/-- The node that is left out where a value may be left out. -/
def empty : Node := .plain ""

/-! ### Merging -/

/-- Whether a key asks for the entries of its value. -/
def isMergeKey : Node → Bool
  | .plain "<<" => true
  | _ => false

def entries? : Node → Option (List (Node × Node))
  | .mapping entries => some entries
  | _ => none

/-- The entries that a value has for the mapping around it, those that win last. -/
def offered? : Node → Option (List (Node × Node))
  | .mapping entries => some entries
  | .sequence items => (items.mapM entries?).map fun lists => lists.reverse.flatten
  | _ => none

/-- A mapping of entries, with what its merge keys ask for in front. -/
def merge (entries : List (Node × Node)) : Node :=
  let (asking, own) := entries.partition fun entry => entry.1.isMergeKey
  match asking.mapM fun entry => entry.2.offered? with
  | some offered => .mapping (offered.flatten ++ own)
  | none => .unmergeable

mutual
/-- A node without merge keys, in itself and below. -/
def merged : Node → Node
  | .plain text => .plain text
  | .quoted text => .quoted text
  | .sequence items => .sequence (mergedItems items)
  | .mapping entries => merge (mergedEntries entries)
  | .unmergeable => .unmergeable
def mergedItems : List Node → List Node
  | [] => []
  | item :: rest => item.merged :: mergedItems rest
/-- Entries whose keys and values have no merge keys below them. -/
def mergedEntries : List (Node × Node) → List (Node × Node)
  | [] => []
  | (key, value) :: rest => (key.merged, value.merged) :: mergedEntries rest
end

/-! ### Values -/

/-- The key that a node stands for. The plain text `=` is a text as a key, and no collection is a key. -/
def key : Node → Except Fault Scalar
  | .plain text => if text = "=" then .ok (.text text) else plainScalar text
  | .quoted text => .ok (.text text)
  | _ => .error .malformed

/-- The fault of a result, if it is one. -/
def faultOf {α : Type} : Except Fault α → List Fault
  | .ok _ => []
  | .error fault => [fault]

/-- The faults of a node that show before one looks inside it. -/
def ownFaults : Node → List Fault
  | .plain text => faultOf (plainScalar text)
  | _ => []

def byLevel : List (List Fault) → List (List Fault) → List (List Fault)
  | [], levels => levels
  | levels, [] => levels
  | a :: as, b :: bs => (a ++ b) :: byLevel as bs

mutual
/-- The faults inside a node without merge keys, level by level. -/
def faults : Node → List (List Fault)
  | .plain _ => []
  | .quoted _ => []
  | .sequence items => items.flatMap ownFaults :: faultsOfItems items
  | .mapping entries =>
    entries.flatMap (fun entry => faultOf entry.1.key ++ entry.2.ownFaults) :: faultsOfEntries entries
  | .unmergeable => [[.malformed]]
def faultsOfItems : List Node → List (List Fault)
  | [] => []
  | item :: rest => byLevel item.faults (faultsOfItems rest)
def faultsOfEntries : List (Node × Node) → List (List Fault)
  | [] => []
  | (_, value) :: rest => byLevel value.faults (faultsOfEntries rest)
end

mutual
/-- The document of a node without merge keys and faults. -/
def value : Node → Document
  | .plain text => .scalar ((plainScalar text).toOption.getD .null)
  | .quoted text => .ofText text
  | .sequence items => .list (values items)
  | .mapping entries => .ofEntries (keyedValues entries)
  | .unmergeable => .null
def values : List Node → List Document
  | [] => []
  | item :: rest => item.value :: values rest
/-- The documents of entries under their keys. -/
def keyedValues : List (Node × Node) → List (Scalar × Document)
  | [] => []
  | (key, value) :: rest => (key.key.toOption.getD .null, value.value) :: keyedValues rest
end

def document (node : Node) : Except Fault Document :=
  let node := node.merged
  match (node.ownFaults ++ node.faults.flatten).head? with
  | some fault => .error fault
  | none => .ok node.value

end Node

end Solvency.Yaml
