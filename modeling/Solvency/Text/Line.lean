/-!
Text files. Whatever system a file was written on, its lines end in one line feed when it is read, and a byte order
mark in front of them is not part of its text.
-/

namespace Solvency.Text

/-- A text without the byte order mark in front of it. -/
def dropByteOrderMark : List Char → List Char
  | '\uFEFF' :: rest => rest
  | text => text

/-- A text with the line ends of every system as line feeds. -/
def unifyLineEnds : List Char → List Char
  | [] => []
  | '\r' :: '\n' :: rest => '\n' :: unifyLineEnds rest
  | '\r' :: rest => '\n' :: unifyLineEnds rest
  | c :: rest => c :: unifyLineEnds rest

end Solvency.Text
