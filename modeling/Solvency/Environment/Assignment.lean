import Solvency.Environment.Reference
import Solvency.Table
import Solvency.Text.Blank
import Solvency.Text.Line

/-!
Files of assignments, `NAME=value` a line. Blank lines and comments are skipped, `export` may stand in front of a name,
and a line that is no assignment is left out. A value may be quoted, and may refer to variables that are set and to
names that are assigned above it. What the environment holds already is not assigned again.
-/

namespace Solvency

/-- A name with its value, if the line gives one. -/
structure Assignment where
  name : String
  value : Option String
  deriving DecidableEq, Repr

/-- Why an assignment cannot be made. -/
inductive AssignmentError where
  | illegalName
  | embeddedNull
  deriving DecidableEq, Repr

def AssignmentError.message : AssignmentError → Text
  | .illegalName => "illegal environment variable name"
  | .embeddedNull => "embedded null byte"

namespace Assignment

/-- A blank that does not end a line. -/
def isLineBlank (c : Char) : Bool := Text.isBlank c && c ≠ '\n'

/-- The text up to the closing quote and what is behind it. A character behind a backslash never closes. -/
def untilQuote (quote : Char) : List Char → Option (List Char × List Char)
  | [] => none
  | ['\\'] => none
  | '\\' :: c :: rest => (untilQuote quote rest).map fun found => ('\\' :: c :: found.1, found.2)
  | c :: rest => if c = quote then some ([], rest) else (untilQuote quote rest).map fun found => (c :: found.1, found.2)

/-- The character that an escape in single quotes stands for. -/
def singleEscape? : Char → Option Char
  | '\\' => some '\\'
  | '\'' => some '\''
  | _ => none

/-- The character that an escape in double quotes stands for. -/
def doubleEscape? : Char → Option Char
  | '\\' => some '\\'
  | '\'' => some '\''
  | '"' => some '"'
  | 'a' => some '\x07'
  | 'b' => some '\x08'
  | 'f' => some '\x0c'
  | 'n' => some '\n'
  | 'r' => some '\r'
  | 't' => some '\t'
  | 'v' => some '\x0b'
  | _ => none

/-- A text with its escapes replaced; a backslash in front of anything else stays. -/
def unescape (escape? : Char → Option Char) : List Char → List Char
  | '\\' :: c :: rest =>
    match escape? c with
    | some char => char :: unescape escape? rest
    | none => '\\' :: unescape escape? (c :: rest)
  | c :: rest => c :: unescape escape? rest
  | [] => []

/-- The part of a line in front of a comment, which starts with a `#` behind a blank. -/
def beforeComment : List Char → List Char
  | c :: '#' :: rest => if Text.isBlank c then [] else c :: beforeComment ('#' :: rest)
  | c :: rest => c :: beforeComment rest
  | [] => []

/-- The value behind an equals sign and what is behind it. -/
def readValue (text : List Char) : Option (List Char × List Char) :=
  match text.dropWhile isLineBlank with
  | '\'' :: rest => (untilQuote '\'' rest).map fun found => (unescape singleEscape? found.1, found.2)
  | '"' :: rest => (untilQuote '"' rest).map fun found => (unescape doubleEscape? found.1, found.2)
  | _ => some (Text.trim Text.isBlank (beforeComment (text.takeWhile (· ≠ '\n'))), text.dropWhile (· ≠ '\n'))

/-- The name in front of an equals sign and what is behind it. -/
def readName (text : List Char) : Option (List Char × List Char) :=
  let upTo (ends : Char → Bool) (text : List Char) : Option (List Char × List Char) :=
    match text.takeWhile (!ends ·) with
    | [] => none
    | name => some (name, text.dropWhile (!ends ·))
  match text with
  | '\'' :: rest =>
    match upTo (· = '\'') rest with
    | some (name, _ :: behind) => some (name, behind)
    | _ => none
  | _ => upTo (fun c => c = '=' || c = '#' || Text.isBlank c) text

/-- The text behind `export` and the blanks that follow it, if they are there. -/
def dropExport (text : List Char) : List Char :=
  match text with
  | 'e' :: 'x' :: 'p' :: 'o' :: 'r' :: 't' :: c :: rest =>
    if isLineBlank c then rest.dropWhile isLineBlank else text
  | _ => text

/-- What is behind the end of the line, if only a comment is in front of it. -/
def endOfLine? (text : List Char) : Option (List Char) :=
  let rest := text.dropWhile isLineBlank
  let rest := match rest with
    | '#' :: _ => rest.dropWhile (· ≠ '\n')
    | _ => rest
  match rest with
  | [] => some []
  | '\n' :: rest => some rest
  | _ => none

/-- What is behind the line. -/
def dropLine (text : List Char) : List Char := (text.dropWhile (· ≠ '\n')).drop 1

/-- The first line that is not blank, as an assignment if it is one, and what is behind it. -/
def readLine (text : List Char) : Option Assignment × List Char :=
  let text := dropExport (text.dropWhile Text.isBlank)
  match text with
  | '#' :: _ => (none, dropLine text)
  | _ =>
    match readName text with
    | none => (none, dropLine text)
    | some (name, behind) =>
      match behind.dropWhile isLineBlank with
      | '=' :: behind =>
        match readValue behind with
        | none => (none, dropLine behind)
        | some (value, behind) =>
          match endOfLine? behind with
          | some rest => (some ⟨String.ofList name, some (String.ofList value)⟩, rest)
          | none => (none, dropLine behind)
      | behind =>
        match endOfLine? behind with
        | some rest => (some ⟨String.ofList name, none⟩, rest)
        | none => (none, dropLine behind)

/-- The assignments of a text in their order. -/
def readLines (text : List Char) : List Assignment :=
  match readLine text with
  | (assignment, rest) =>
    if rest.length < text.length then assignment.toList ++ readLines rest else assignment.toList
termination_by text.length

end Assignment

namespace Environment

/-- A reference to a variable, with the value that stands in where it is not set. -/
structure Reference where
  name : String
  fallback : String

/-- A reference behind its opening mark, and what is behind it. -/
def readReference (text : List Char) : Option (Reference × List Char) :=
  let name := text.takeWhile fun c => c ≠ '\x7d' && c ≠ ':'
  match text.dropWhile fun c => c ≠ '\x7d' && c ≠ ':' with
  | '\x7d' :: rest => some (⟨String.ofList name, ""⟩, rest)
  | ':' :: '-' :: behind =>
    match behind.dropWhile (· ≠ '\x7d') with
    | _ :: rest => some (⟨String.ofList name, String.ofList (behind.takeWhile (· ≠ '\x7d'))⟩, rest)
    | [] => none
  | _ => none

/-- A text with its references replaced by what `value` gives for them. -/
def expand (value : Reference → Text) (text : List Char) : Text :=
  match text with
  | [] => []
  | c :: rest =>
    let found := match c, rest with
      | '$', '\x7b' :: behind => readReference behind
      | _, _ => none
    match found with
    | some (reference, behind) =>
      if behind.length ≤ rest.length then value reference ++ expand value behind else []
    | none => .char c :: expand value rest
termination_by text.length

/-- What assignments one after another give the names; a later one of a name wins. -/
def assigned (env : Environment) (assignments : List Assignment) : Table Text (Option Text) :=
  assignments.foldl
    (fun done assignment =>
      let value (reference : Reference) : Text :=
        match env reference.name, done.get? reference.name with
        | some value, _ => value
        | none, some value => value.getD []
        | none, none => reference.fallback
      done.insert assignment.name (assignment.value.map fun text => expand value text.toList))
    .empty

/-- A variable can have the name and the value. -/
def checkVariable (name value : Text) : Except AssignmentError Unit :=
  if name.contains (.char '\x00') || value.contains (.char '\x00') then .error .embeddedNull
  else if name.contains (.char '=') then .error .illegalName
  else .ok ()

/-- The environment with the assignments of a text made, where it does not hold the names already. -/
def withAssignments (env : Environment) (text : String) : Except AssignmentError Environment := do
  let lines := Text.unifyLineEnds (Text.dropByteOrderMark text.toList)
  let values := env.assigned (Assignment.readLines lines)
  for (name, value) in values.rows do
    match env name, value with
    | none, some value => checkVariable name value
    | _, _ => pure ()
  return fun name => env name <|> (values.get? name).join

/-- A letter without its case, so far as letters of ASCII come of it. -/
def foldCase (c : Char) : Char := if c = 'ſ' then 's' else c.toLower

def yesWords : List Text := ["1", "true", "t", "yes", "y"]

/-- A variable is set to a word for yes. -/
def isOn (env : Environment) (name : Text) : Bool :=
  match env name with
  | some value => yesWords.contains (value.map (CodePoint.map foldCase))
  | none => false

/-- The environment with the assignments of a file made, unless the variable `switch` turns such files off. -/
def withFile (env : Environment) (switch : Text) (text : String) : Except AssignmentError Environment :=
  if env.isOn switch then .ok env else env.withAssignments text

end Environment

end Solvency
