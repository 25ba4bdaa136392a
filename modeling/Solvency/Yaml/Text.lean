import Solvency.Text.Base
import Solvency.Yaml.Cursor
import Solvency.Yaml.Fault

/-!
Texts inside YAML: plain ones and those in single or double quotes. A text may go on over several lines; a single line
end inside it counts as a space, and of several the first does not count.
-/

namespace Solvency.Yaml

/-- What line ends count as: the first one as a space if it stands alone, and the others as they are. -/
def foldBreaks (first : Char) (more : List Char) : List Char :=
  if first ≠ '\n' then first :: more else if more.isEmpty then [' '] else more

/-! ### Plain texts -/

/-- Whether a plain text ends before a character with another one behind it. -/
def endsPlain (flow : Bool) (char : Char) (next : Option Char) : Bool :=
  endsWord (some char)
    || (char = ':' && (endsWord next || (flow && next.any fun c => [',', '[', ']', '\x7b', '\x7d'].contains c)))
    || (flow && [',', '?', '[', ']', '\x7b', '\x7d'].contains char)

/-- The characters of a plain text on one line up to the next blank. -/
def plainRun (flow : Bool) : List Char → List Char
  | [] => []
  | char :: rest => if endsPlain flow char rest.head? then [] else char :: plainRun flow rest

/-- Line ends and spaces at the start of lines, collected in reverse; nothing if a document starts or ends there. -/
def plainBreaks : Nat → List Char → Cursor → Option (List Char × Cursor)
  | 0, done, c => some (done.reverse, c)
  | fuel + 1, done, c =>
    if c.peek = some ' ' then plainBreaks fuel done c.advance
    else
      match c.lineBreak? with
      | some (char, c) => if c.atDocumentEdge then none else plainBreaks fuel (char :: done) c
      | none => some (done.reverse, c)

/-- What separates two words of a plain text, with the place behind it and whether a line ended; nothing if the text
    ends here. -/
def plainGap (c : Cursor) : List Char × Cursor × Bool :=
  let spaces := c.rest.takeWhile (· = ' ')
  let c := c.advanceBy spaces.length
  match c.lineBreak? with
  | none => (spaces, c, false)
  | some (first, c) =>
    if c.atDocumentEdge then ([], c, true)
    else
      match plainBreaks c.rest.length [] c with
      | some (more, c) => (foldBreaks first more, c, true)
      | none => ([], c, true)

/-- The words of a plain text, collected in reverse behind `done`, with the gap before the next one. -/
def plainWords (flow : Bool) (indent : Int) : Nat → List Char → List Char → Cursor → Bool → List Char × Cursor × Bool
  | 0, done, _, c, broke => (done.reverse, c, broke)
  | fuel + 1, done, gap, c, broke =>
    let run := if c.peek = some '#' then [] else plainRun flow c.rest
    if run.isEmpty then (done.reverse, c, broke)
    else
      let done := run.reverse ++ gap.reverse ++ done
      let (gap, c, broke) := plainGap (c.advanceBy run.length)
      if gap.isEmpty ∨ c.peek = some '#' ∨ (flow = false ∧ (c.column : Int) < indent) then (done.reverse, c, broke)
      else plainWords flow indent fuel done gap c broke

/-- A plain text, the place behind it and whether a line ended there. Outside flow its lines are indented by at least
    `indent`. -/
def plainText (flow : Bool) (indent : Int) (c : Cursor) : List Char × Cursor × Bool :=
  plainWords flow indent (c.rest.length + 1) [] [] c false

/-! ### Quoted texts -/

/-- The character that a backslash and another one stand for. -/
def escape? : Char → Option Char
  | '0' => some '\x00'
  | 'a' => some '\x07'
  | 'b' => some '\x08'
  | 't' => some '\t'
  | '\t' => some '\t'
  | 'n' => some '\n'
  | 'v' => some '\x0b'
  | 'f' => some '\x0c'
  | 'r' => some '\r'
  | 'e' => some '\x1b'
  | ' ' => some ' '
  | '"' => some '"'
  | '\\' => some '\\'
  | '/' => some '/'
  | 'N' => some '\u0085'
  | '_' => some '\u00A0'
  | 'L' => some '\u2028'
  | 'P' => some '\u2029'
  | _ => none

/-- The number of hexadecimal digits behind a backslash and a letter. -/
def escapeWidth? : Char → Option Nat
  | 'x' => some 2
  | 'u' => some 4
  | 'U' => some 8
  | _ => none

/-- The code point that hexadecimal digits of a number name. -/
def codePoint (width : Nat) (ds : List Char) : Except Fault CodePoint :=
  if ds.length < width || !ds.all fun d => (Text.hexValue? d).isSome then .error .malformed
  else
    let point := Text.ofBase 16 ds
    if 0x80000000 ≤ point then .error .tooLarge
    else
      match CodePoint.ofNat? point with
      | some point => .ok point
      | none => .error .noCharacter

/-- Line ends inside quotes with the blanks around them, collected in reverse. -/
def quotedBreaks : Nat → List Char → Cursor → Except Fault (List Char × Cursor)
  | 0, done, c => .ok (done.reverse, c)
  | fuel + 1, done, c =>
    if c.atDocumentEdge then .error .malformed
    else
      let c := c.skipWhile fun char => char = ' ' || char = '\t'
      match c.lineBreak? with
      | some (char, c) => quotedBreaks fuel (char :: done) c
      | none => .ok (done.reverse, c)

/-- An escape in double quotes behind its backslash. -/
def quotedEscape (c : Cursor) : Except Fault (Text × Cursor) :=
  match c.peek with
  | none => .error .malformed
  | some letter =>
    match escape? letter, escapeWidth? letter, c.lineBreak? with
    | some char, _, _ => .ok ([.char char], c.advance)
    | none, some width, _ => do
      let point ← codePoint width (c.advance.rest.take width)
      return ([point], c.advance.advanceBy width)
    | none, none, some (_, c) => do
      let (breaks, c) ← quotedBreaks (c.rest.length + 1) [] c
      return (.ofChars breaks, c)
    | none, none, none => .error .malformed

/-- Blanks and line ends inside quotes. -/
def quotedGap (c : Cursor) : Except Fault (List Char × Cursor) :=
  let blanks := c.rest.takeWhile fun char => char = ' ' || char = '\t'
  let c := c.advanceBy blanks.length
  match c.peek, c.lineBreak? with
  | none, _ => .error .malformed
  | some _, some (first, c) => do
    let (more, c) ← quotedBreaks (c.rest.length + 1) [] c
    return (foldBreaks first more, c)
  | some _, none => .ok (blanks, c)

/-- A text behind its opening quote up to the closing one, collected in reverse. -/
def quotedFrom (double : Bool) : Nat → Text → Cursor → Except Fault (Text × Cursor)
  | 0, _, _ => .error .malformed
  | fuel + 1, done, c =>
    match c.rest with
    | [] => .error .malformed
    | '\'' :: '\'' :: _ =>
      if double then quotedFrom double fuel (.char '\'' :: done) c.advance
      else quotedFrom double fuel (.char '\'' :: done) (c.advanceBy 2)
    | '\\' :: _ =>
      if double then
        match quotedEscape c.advance with
        | .ok (escaped, c) => quotedFrom double fuel (escaped.reverse ++ done) c
        | .error fault => .error fault
      else quotedFrom double fuel (.char '\\' :: done) c.advance
    | char :: _ =>
      if char = (if double then '"' else '\'') then .ok (done.reverse, c.advance)
      else if endsWord (some char) then
        match quotedGap c with
        | .ok (gap, c) => quotedFrom double fuel ((Text.ofChars gap).reverse ++ done) c
        | .error fault => .error fault
      else quotedFrom double fuel (.char char :: done) c.advance

/-- A text from its opening quote on, and the place behind it. -/
def quotedText (double : Bool) (c : Cursor) : Except Fault (Text × Cursor) :=
  quotedFrom double (c.rest.length + 1) [] c.advance

end Solvency.Yaml
