import Solvency.Document.Basic

/-!
Writing of JSON text, without blanks. Quotes, backslashes, controls and surrogates inside a text are escaped; all else
stands as it is.
-/

namespace Solvency.Json

/-- Numbers are written as in any other text, apart from the names of the three that are none. -/
def layout : Binary64.Layout := { Binary64.plain with infinity := "Infinity", notANumber := "NaN" }

def textPoint : CodePoint → List Char
  | .char c =>
    if c = '"' ∨ c = '\\' then ['\\', c]
    else if c.toNat < 0x20 then '\\' :: 'u' :: Text.hexOfWidth 4 c.toNat
    else [c]
  | .surrogate offset => '\\' :: 'u' :: Text.hexOfWidth 4 (CodePoint.surrogate offset).value

def writeText (text : Text) : List Char := '"' :: text.flatMap textPoint ++ ['"']

def writeScalar : Scalar → List Char
  | .null => "null".toList
  | .bool true => "true".toList
  | .bool false => "false".toList
  | .integer value => Text.integerChars value
  | .float value => (value.render layout).toList
  | .text value => writeText value
  | .date value => writeText value.display
  | .timestamp value => writeText value.display

/-- The name of a member: the key, as text. -/
def writeKey : Scalar → List Char
  | .text value => writeText value
  | .date value => writeText value.display
  | .timestamp value => writeText value.display
  | key => '"' :: writeScalar key ++ ['"']

mutual
def write : Document → List Char
  | .scalar value => writeScalar value
  | .list items => '[' :: writeItems items ++ [']']
  | .map entries => '\x7b' :: writeEntries entries ++ ['\x7d']
/-- The items of a list with commas between. -/
def writeItems : List Document → List Char
  | [] => []
  | [item] => write item
  | item :: rest => write item ++ ',' :: writeItems rest
/-- The members of a map with commas between. -/
def writeEntries : List (Scalar × Document) → List Char
  | [] => []
  | [(key, value)] => writeKey key ++ ':' :: write value
  | (key, value) :: rest => writeKey key ++ ':' :: write value ++ ',' :: writeEntries rest
end

end Solvency.Json
