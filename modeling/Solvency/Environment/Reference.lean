import Solvency.Document.Basic
import Solvency.Environment.Name

/-!
References to variables. In a text, a name between `${` and `}` stands for the value of that variable, or for nothing
if it is not set; what a value holds is not looked at again. In a document every text is treated so, except for keys.
A document with a name that cannot be looked up, or that is nested too deep, is not resolved at all.
-/

namespace Solvency

/-- The variables that are set. -/
abbrev Environment := Text → Option Text

namespace Environment

/-- A text with its references replaced. Behind an opening mark the name collected so far stands first; a mark that
    is never closed, or that is closed at once, stands for itself. -/
def substituteFrom (env : Environment) : Option Text → Text → Text
  | none, [] => []
  | none, .char '$' :: .char '\x7b' :: rest => substituteFrom env (some []) rest
  | none, point :: rest => point :: substituteFrom env none rest
  | some name, [] => .char '$' :: .char '\x7b' :: name
  | some [], .char '\x7d' :: rest => .char '$' :: .char '\x7b' :: .char '\x7d' :: substituteFrom env none rest
  | some name, point :: rest =>
    if point = .char '\x7d' then (env name).getD [] ++ substituteFrom env none rest
    else substituteFrom env (some (name ++ [point])) rest

/-- A text with its references replaced. -/
def substituteText (env : Environment) (text : Text) : Text := env.substituteFrom none text

/-- A scalar with its references replaced. -/
def substituteScalar (env : Environment) : Scalar → Scalar
  | .text value => .text (env.substituteText value)
  | scalar => scalar

mutual
/-- A document with the references in its texts replaced. -/
def substitute (env : Environment) : Document → Document
  | .scalar value => .scalar (env.substituteScalar value)
  | .list items => .list (substituteItems env items)
  | .map entries => .map (substituteEntries env entries)
/-- The items of a list, each with its references replaced. -/
def substituteItems (env : Environment) : List Document → List Document
  | [] => []
  | item :: rest => substitute env item :: substituteItems env rest
/-- The entries of a map, each with the references of its value replaced. -/
def substituteEntries (env : Environment) : List (Scalar × Document) → List (Scalar × Document)
  | [] => []
  | (key, value) :: rest => (key, substitute env value) :: substituteEntries env rest
end

end Environment

/-! ### Names that are referred to -/

namespace Text

/-- The names that a text refers to, in their order. Behind an opening mark the name collected so far stands first. -/
def namesFrom : Option Text → Text → List Text
  | none, [] => []
  | none, .char '$' :: .char '\x7b' :: rest => namesFrom (some []) rest
  | none, _ :: rest => namesFrom none rest
  | some _, [] => []
  | some [], .char '\x7d' :: rest => namesFrom none rest
  | some name, point :: rest =>
    if point = .char '\x7d' then name :: namesFrom none rest else namesFrom (some (name ++ [point])) rest

/-- The names that a text refers to, in their order. -/
def names (text : Text) : List Text := namesFrom none text

end Text

/-- The names that a scalar refers to, in their order. -/
def Scalar.names : Scalar → List Text
  | .text value => Text.names value
  | _ => []

namespace Document

mutual
/-- The names that the texts of a document refer to, in their order. -/
def names : Document → List Text
  | .scalar value => value.names
  | .list items => namesOfItems items
  | .map entries => namesOfEntries entries
/-- The names that the items of a list refer to. -/
def namesOfItems : List Document → List Text
  | [] => []
  | item :: rest => item.names ++ namesOfItems rest
/-- The names that the values of entries refer to. -/
def namesOfEntries : List (Scalar × Document) → List Text
  | [] => []
  | (_, value) :: rest => value.names ++ namesOfEntries rest
end

end Document

/-- Why a document is not resolved. -/
inductive ResolveFault where
  /-- A reference to a name that no variable can be looked up by. -/
  | name (fault : NameFault)
  /-- Lists and maps stand too deep inside each other. -/
  | tooDeep
  deriving DecidableEq, Repr

/-- The first fault of the names that a scalar refers to. -/
def Scalar.resolveFault? (value : Scalar) : Option ResolveFault :=
  (value.names.findSome? nameFault?).map .name

/-- The first fault that stands against resolving a document down to a depth. -/
def Document.resolveFault? (depth : Nat) (document : Document) : Option ResolveFault :=
  document.firstFault Scalar.resolveFault? (fun _ => none) .tooDeep depth

/-- A document with the references in its texts replaced, if all names in it can be looked up and it is nested no deeper
    than `depth`. -/
def Environment.resolve (depth : Nat) (env : Environment) (document : Document) : Except ResolveFault Document :=
  match document.resolveFault? depth with
  | some fault => .error fault
  | none => .ok (env.substitute document)

end Solvency
