import Solvency.Text.Line
import Solvency.Yaml.Text

/-!
Tokens of YAML text. Blocks are marked by where they start and end: a collection starts at a column to the right of
the one around it, and ends before the first token to the left of its own column. A key is known as such only when
its colon is found, so its mark is put in front of the tokens that it already gave. Where a text cannot be read on, its
tokens end with the fault.
-/

namespace Solvency.Yaml

/-- A token. -/
inductive Token where
  | documentStart
  | documentEnd
  | blockSequence
  | blockMapping
  | blockEnd
  | flowSequence
  | flowSequenceEnd
  | flowMapping
  | flowMappingEnd
  | blockEntry
  | flowEntry
  | key
  | value
  | plain (text : String)
  | quoted (text : Text)
  /-- Where the text cannot be read on. -/
  | broken (fault : Fault)
  deriving DecidableEq, Repr

/-- A place where a key may have started. One that stands at the column of its block has to become a key. -/
structure PossibleKey where
  token : Nat
  required : Bool
  line : Nat
  column : Nat
  index : Nat

/-- What has been read of a text. -/
structure Lexer where
  cursor : Cursor
  /-- The possible key of every open flow collection, the innermost first, and of the block around them. -/
  keys : List (Option PossibleKey) := [none]
  /-- The columns of the open blocks, the innermost first. -/
  columns : List Int := []
  mayStartKey : Bool := true
  tokens : Array Token := #[]

namespace Lexer

/-- Whether a flow collection is open. -/
def inFlow (l : Lexer) : Bool := 1 < l.keys.length

/-- The column of the innermost block. -/
def column (l : Lexer) : Int := l.columns.headD (-1)

def emit (l : Lexer) (token : Token) : Lexer := { l with tokens := l.tokens.push token }

/-- Past the next `n` characters. -/
def advance (l : Lexer) (n : Nat) : Lexer := { l with cursor := l.cursor.advanceBy n }

/-- A token put in front of the one at a place. -/
def emitAt (l : Lexer) (place : Nat) (token : Token) : Lexer :=
  { l with tokens := (l.tokens.extract 0 place).push token ++ l.tokens.extract place l.tokens.size }

/-- Past blanks, comments and line ends; behind a line end outside flow a key may start. -/
def skipToToken : Nat → Lexer → Lexer
  | 0, l => l
  | fuel + 1, l =>
    let c := l.cursor.skipWhile (· = ' ')
    let c := if c.peek = some '#' then c.skipWhile fun char => !isBreak char else c
    match c.lineBreak? with
    | some (_, c) => skipToToken fuel { l with cursor := c, mayStartKey := l.mayStartKey || !l.inFlow }
    | none => { l with cursor := c }

/-- Keys do not go on over lines or over more than 1024 characters. -/
def isFresh (l : Lexer) (key : PossibleKey) : Bool :=
  key.line = l.cursor.line && l.cursor.index - key.index ≤ 1024

/-- The possible keys that have gone on too far given up. -/
def dropStaleKeys (l : Lexer) : Except Fault Lexer := do
  let keys ← l.keys.mapM fun
    | none => .ok none
    | some key =>
      if l.isFresh key then .ok (some key)
      else if key.required then .error .malformed
      else .ok none
  return { l with keys }

/-- The tokens in front of every possible key: whatever follows, nothing is put between them. -/
def settled (l : Lexer) : Array Token :=
  let places := (l.keys.filterMap id).filterMap fun key => if l.isFresh key then some key.token else none
  l.tokens.extract 0 (places.foldl min l.tokens.size)

/-- The blocks to the right of a column closed. -/
def closeBlocks (l : Lexer) (column : Int) : Lexer :=
  if l.inFlow then l
  else
    let open_ := l.columns.dropWhile fun c => column < c
    let ended := l.columns.length - open_.length
    { l with columns := open_, tokens := l.tokens ++ Array.replicate ended .blockEnd }

/-- The possible key of the innermost collection given up. -/
def dropKey (l : Lexer) : Except Fault Lexer :=
  match l.keys with
  | some key :: rest => if key.required then .error .malformed else .ok { l with keys := none :: rest }
  | _ => .ok l

/-- The next token taken as one that a key may start with. -/
def saveKey (l : Lexer) : Except Fault Lexer :=
  if l.mayStartKey then do
    let l ← l.dropKey
    let c := l.cursor
    let required := !l.inFlow && l.column = c.column
    return { l with keys := some ⟨l.tokens.size, required, c.line, c.column, c.index⟩ :: l.keys.drop 1 }
  else .ok l

/-- A block opened at a column, if it lies to the right of the innermost one. -/
def openBlock (l : Lexer) (column : Int) (place : Nat) (token : Token) : Lexer :=
  if l.column < column then { l.emitAt place token with columns := column :: l.columns } else l

def documentMark (l : Lexer) (token : Token) : Except Fault Lexer := do
  let l ← (l.closeBlocks (-1)).dropKey
  return ({ l with mayStartKey := false }.advance 3 |>.emit token)

def flowStart (l : Lexer) (token : Token) : Except Fault Lexer := do
  let l ← l.saveKey
  return ({ l with keys := none :: l.keys, mayStartKey := true }.advance 1 |>.emit token)

def flowEnd (l : Lexer) (token : Token) : Except Fault Lexer := do
  let l ← l.dropKey
  if !l.inFlow then throw .malformed
  return ({ l with keys := l.keys.drop 1, mayStartKey := false }.advance 1 |>.emit token)

/-- A comma between the items of a flow collection. -/
def flowEntry (l : Lexer) : Except Fault Lexer := do
  let l ← l.dropKey
  return ({ l with mayStartKey := true }.advance 1 |>.emit .flowEntry)

/-- A dash in front of the item of a block sequence. -/
def blockEntry (l : Lexer) : Except Fault Lexer := do
  if !l.inFlow && !l.mayStartKey then throw .malformed
  let l := if l.inFlow then l else l.openBlock l.cursor.column l.tokens.size .blockSequence
  let l ← l.dropKey
  return ({ l with mayStartKey := true }.advance 1 |>.emit .blockEntry)

/-- A question mark in front of a key. -/
def explicitKey (l : Lexer) : Except Fault Lexer := do
  if !l.inFlow && !l.mayStartKey then throw .malformed
  let l := if l.inFlow then l else l.openBlock l.cursor.column l.tokens.size .blockMapping
  let l ← l.dropKey
  return ({ l with mayStartKey := !l.inFlow }.advance 1 |>.emit .key)

/-- A colon in front of a value. What stood before it is the key; without such a colon may open a mapping. -/
def value (l : Lexer) : Except Fault Lexer :=
  match l.keys with
  | some key :: rest =>
    let l := { l with keys := none :: rest }.emitAt key.token .key
    let l := if l.inFlow then l else l.openBlock key.column key.token .blockMapping
    return ({ l with mayStartKey := false }.advance 1 |>.emit .value)
  | _ => do
    if !l.inFlow && !l.mayStartKey then throw .malformed
    let l := if l.inFlow then l else l.openBlock l.cursor.column l.tokens.size .blockMapping
    return ({ l with mayStartKey := !l.inFlow }.advance 1 |>.emit .value)

def quoted (l : Lexer) (double : Bool) : Except Fault Lexer := do
  let l ← l.saveKey
  let (text, c) ← quotedText double l.cursor
  return ({ l with cursor := c, mayStartKey := false }.emit (.quoted text))

def plain (l : Lexer) : Except Fault Lexer := do
  let l ← l.saveKey
  let (chars, c, broke) := plainText l.inFlow (l.column + 1) l.cursor
  return ({ l with cursor := c, mayStartKey := broke }.emit (.plain (String.ofList chars)))

/-- Characters that no plain text starts with, or only in front of another one. -/
def indicators : List Char :=
  ['-', '?', ':', ',', '[', ']', '\x7b', '\x7d', '#', '&', '*', '!', '|', '>', '\'', '"', '%', '@', '\x60']

def startsPlain (l : Lexer) (char : Char) : Bool :=
  (!endsWord (some char) && !indicators.contains char)
    || (!endsWord (l.cursor.peekAt 1) && (char = '-' || (!l.inFlow && (char = '?' || char = ':'))))

def token (l : Lexer) (char : Char) : Except Fault Lexer :=
  let c := l.cursor
  let ends := endsWord (c.peekAt 1)
  if c.atMarker '-' then l.documentMark .documentStart
  else if c.atMarker '.' then l.documentMark .documentEnd
  else if char = '[' then l.flowStart .flowSequence
  else if char = '\x7b' then l.flowStart .flowMapping
  else if char = ']' then l.flowEnd .flowSequenceEnd
  else if char = '\x7d' then l.flowEnd .flowMappingEnd
  else if char = ',' then l.flowEntry
  else if char = '-' ∧ ends then l.blockEntry
  else if char = '?' ∧ (l.inFlow ∨ ends) then l.explicitKey
  else if char = ':' ∧ (l.inFlow ∨ ends) then l.value
  else if char = '\'' then l.quoted false
  else if char = '"' then l.quoted true
  else if l.startsPlain char then l.plain
  else .error .malformed

/-- The lexer behind the next token, and whether the text has ended. -/
def step (l : Lexer) : Except Fault (Lexer × Bool) := do
  let l ← (skipToToken (l.cursor.rest.length + 1) l).dropStaleKeys
  let l := l.closeBlocks l.cursor.column
  match l.cursor.peek with
  | none => return (← (l.closeBlocks (-1)).dropKey, true)
  | some char => return (← l.token char, false)

/-- The tokens up to the end of the text or to the first place where it cannot be read on. Every token takes at least
    one character. -/
def toEnd : Nat → Lexer → List Token
  | 0, l => l.tokens.toList
  | fuel + 1, l =>
    match l.step with
    | .ok (l, true) => l.tokens.toList
    | .ok (l, false) => toEnd fuel l
    | .error fault => l.settled.toList ++ [.broken fault]

end Lexer

/-- The tokens of admitted characters; a mark of byte order in front of them is no part of the text. -/
def lex (text : List Char) : List Token :=
  let rest := Text.dropByteOrderMark text
  Lexer.toEnd (rest.length + 1) { cursor := .start rest }

/-- Where the piece around a place starts. A text is taken in piece by piece: 8192 characters first, then 4096 each. -/
def pieceStart (place : Nat) : Nat := if place < 8192 then 0 else place / 4096 * 4096

/-- Tokens that do not go on. -/
def cutOff (tokens : List Token) : List Token :=
  match tokens.getLast? with
  | some (.broken _) => tokens
  | _ => tokens ++ [.broken .malformed]

/-- The tokens of a text. They do not go on into a piece that has a character which is not admitted. -/
def tokens (text : List Char) : List Token :=
  match text.findIdx? fun c => !isAdmitted c with
  | none => lex text
  | some place => cutOff (lex (text.take (pieceStart place)))

end Solvency.Yaml
