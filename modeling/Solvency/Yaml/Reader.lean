import Solvency.Text.Line
import Solvency.Yaml.Node
import Solvency.Yaml.Token

/-!
Reading of YAML text: the tokens of the text grouped into nodes, and the document of the outermost one. A node that is
left out is empty and stands for null. Where a token is not the one that has to come, the text is malformed, unless it
could not be read on there for another reason.
-/

namespace Solvency.Yaml

/-- A part of a text with the tokens behind it. -/
abbrev Parsed (α : Type) := Except Fault (α × List Token)

/-- The fault of tokens that cannot go on as they do. -/
def unexpected {α : Type} : List Token → Except Fault α
  | .broken fault :: _ => .error fault
  | _ => .error .malformed

/-- Whether a token ends an entry of a block. -/
def endsBlockEntry : Option Token → Bool
  | some .key | some .value | some .blockEnd | none => true
  | _ => false

mutual
/-- A node. In a block a collection may start; under a key a sequence may start at the column of the key. -/
def node (block underKey : Bool) : Nat → List Token → Parsed Node
  | 0, tokens => unexpected tokens
  | fuel + 1, tokens =>
    match tokens with
    | .plain text :: rest => .ok (.plain text, rest)
    | .quoted text :: rest => .ok (.quoted text, rest)
    | .flowSequence :: rest => flowItems true fuel [] rest
    | .flowMapping :: rest => flowEntries true fuel [] rest
    | .blockSequence :: rest => if block then blockItems fuel [] rest else unexpected tokens
    | .blockMapping :: rest => if block then blockEntries fuel [] rest else unexpected tokens
    | .blockEntry :: _ => if underKey then indentlessItems fuel [] tokens else unexpected tokens
    | _ => unexpected tokens
/-- The items of a block sequence, collected in reverse. -/
def blockItems : Nat → List Node → List Token → Parsed Node
  | 0, _, tokens => unexpected tokens
  | fuel + 1, done, tokens =>
    match tokens with
    | .blockEnd :: rest => .ok (.sequence done.reverse, rest)
    | .blockEntry :: rest =>
      if rest.head? = some .blockEntry ∨ rest.head? = some .blockEnd then blockItems fuel (.empty :: done) rest
      else
        match node true false fuel rest with
        | .ok (item, rest) => blockItems fuel (item :: done) rest
        | .error fault => .error fault
    | _ => unexpected tokens
/-- The items of a sequence at the column of its key, collected in reverse. -/
def indentlessItems : Nat → List Node → List Token → Parsed Node
  | 0, _, tokens => unexpected tokens
  | fuel + 1, done, tokens =>
    match tokens with
    | .blockEntry :: rest =>
      if rest.head? = some .blockEntry ∨ endsBlockEntry rest.head? then indentlessItems fuel (.empty :: done) rest
      else
        match node true false fuel rest with
        | .ok (item, rest) => indentlessItems fuel (item :: done) rest
        | .error fault => .error fault
    | .broken fault :: _ => .error fault
    | _ => .ok (.sequence done.reverse, tokens)
/-- A key or value of a block mapping, empty if it is left out. -/
def blockPart : Nat → List Token → Parsed Node
  | 0, tokens => unexpected tokens
  | fuel + 1, tokens => if endsBlockEntry tokens.head? then .ok (.empty, tokens) else node true true fuel tokens
/-- The entries of a block mapping, collected in reverse. -/
def blockEntries : Nat → List (Node × Node) → List Token → Parsed Node
  | 0, _, tokens => unexpected tokens
  | fuel + 1, done, tokens =>
    match tokens with
    | .blockEnd :: rest => .ok (.mapping done.reverse, rest)
    | .key :: rest =>
      match blockPart fuel rest with
      | .error fault => .error fault
      | .ok (key, rest) =>
        let found := match rest with
          | .value :: rest => blockPart fuel rest
          | rest => .ok (.empty, rest)
        match found with
        | .error fault => .error fault
        | .ok (value, rest) => blockEntries fuel ((key, value) :: done) rest
    | _ => unexpected tokens
/-- The value behind a key in flow, empty if it is left out. -/
def flowValue : Nat → Token → List Token → Parsed Node
  | 0, _, tokens => unexpected tokens
  | fuel + 1, ending, tokens =>
    match tokens with
    | .value :: rest =>
      if rest.head? = some .flowEntry ∨ rest.head? = some ending then .ok (.empty, rest)
      else node false false fuel rest
    | _ => .ok (.empty, tokens)
/-- A key behind its mark in flow and its value. -/
def flowPair : Nat → Token → List Token → Parsed (Node × Node)
  | 0, _, tokens => unexpected tokens
  | fuel + 1, ending, tokens =>
    let found :=
      if tokens.head? = some .value ∨ tokens.head? = some .flowEntry ∨ tokens.head? = some ending then
        .ok (.empty, tokens)
      else node false false fuel tokens
    match found with
    | .error fault => .error fault
    | .ok (key, rest) =>
      match flowValue fuel ending rest with
      | .error fault => .error fault
      | .ok (value, rest) => .ok ((key, value), rest)
/-- The items of a flow sequence, collected in reverse; a pair by itself is a mapping. -/
def flowItems (first : Bool) : Nat → List Node → List Token → Parsed Node
  | 0, _, tokens => unexpected tokens
  | fuel + 1, done, tokens =>
    match tokens with
    | .flowSequenceEnd :: rest => .ok (.sequence done.reverse, rest)
    | _ =>
      let behind : Except Fault (List Token) := match first, tokens with
        | true, tokens => .ok tokens
        | false, .flowEntry :: rest => .ok rest
        | false, tokens => unexpected tokens
      match behind with
      | .error fault => .error fault
      | .ok (.key :: rest) =>
        match flowPair fuel .flowSequenceEnd rest with
        | .ok (entry, rest) => flowItems false fuel (.mapping [entry] :: done) rest
        | .error fault => .error fault
      | .ok (.flowSequenceEnd :: rest) => .ok (.sequence done.reverse, rest)
      | .ok tokens =>
        match node false false fuel tokens with
        | .ok (item, rest) => flowItems false fuel (item :: done) rest
        | .error fault => .error fault
/-- The entries of a flow mapping, collected in reverse; a key by itself has no value. -/
def flowEntries (first : Bool) : Nat → List (Node × Node) → List Token → Parsed Node
  | 0, _, tokens => unexpected tokens
  | fuel + 1, done, tokens =>
    match tokens with
    | .flowMappingEnd :: rest => .ok (.mapping done.reverse, rest)
    | _ =>
      let behind : Except Fault (List Token) := match first, tokens with
        | true, tokens => .ok tokens
        | false, .flowEntry :: rest => .ok rest
        | false, tokens => unexpected tokens
      match behind with
      | .error fault => .error fault
      | .ok (.key :: rest) =>
        match flowPair fuel .flowMappingEnd rest with
        | .ok (entry, rest) => flowEntries false fuel (entry :: done) rest
        | .error fault => .error fault
      | .ok (.flowMappingEnd :: rest) => .ok (.mapping done.reverse, rest)
      | .ok tokens =>
        match node false false fuel tokens with
        | .ok (key, rest) => flowEntries false fuel ((key, .empty) :: done) rest
        | .error fault => .error fault
end

/-- The outermost node of the tokens of a text: at most one, with or without marks around it. -/
def ofTokens (tokens : List Token) : Except Fault Node :=
  let ended (found : Node × List Token) : Except Fault Node :=
    match found.2.dropWhile (· = .documentEnd) with
    | [] => .ok found.1
    | rest => unexpected rest
  let outermost (tokens : List Token) : Parsed Node :=
    match tokens with
    | [] | .documentEnd :: _ => .ok (.empty, tokens)
    | _ => node true false (4 * tokens.length + 4) tokens
  match tokens with
  | .documentStart :: rest => outermost rest >>= ended
  | .documentEnd :: _ => unexpected tokens
  | _ => outermost tokens >>= ended

/-- The document that a YAML text stands for; an empty text stands for null. -/
def read (text : String) : Except Fault Document := do
  (← ofTokens (tokens (Text.unifyLineEnds text.toList))).document

end Solvency.Yaml
