/-!
Texts. A text is a list of code points: characters and surrogates. A surrogate is half of a pair and no character by
itself, but a format that names code points by number can name one, so a text can hold it.
-/

namespace Solvency

/-- A code point. A surrogate is given by its distance from the first one. -/
inductive CodePoint where
  | char (c : Char)
  | surrogate (offset : Fin 0x800)
  deriving DecidableEq, Repr

namespace CodePoint

def value : CodePoint → Nat
  | .char c => c.toNat
  | .surrogate offset => 0xD800 + offset.val

/-- The code point of a number; there is none behind `0x10FFFF`. -/
def ofNat? (n : Nat) : Option CodePoint :=
  if n.isValidChar then some (.char (Char.ofNat n))
  else if h : n - 0xD800 < 0x800 then some (.surrogate ⟨n - 0xD800, h⟩)
  else none

/-- The character that a code point is, if it is one. -/
def char? : CodePoint → Option Char
  | .char c => some c
  | .surrogate _ => none

/-- A code point with its character changed; a surrogate stays as it is. -/
def map (f : Char → Char) : CodePoint → CodePoint
  | .char c => .char (f c)
  | .surrogate offset => .surrogate offset

end CodePoint

/-- A text. -/
abbrev Text := List CodePoint

namespace Text

def ofChars (cs : List Char) : Text := cs.map .char

def ofString (s : String) : Text := ofChars s.toList

instance : Coe String Text := ⟨ofString⟩

def chars? (text : Text) : Option (List Char) := text.mapM CodePoint.char?

/-- Texts one after another with a text between. -/
def intercalate (separator : Text) (texts : List Text) : Text := List.intercalate separator texts

/-- Whether a text equals another one or stands in front of it: by the first code points that differ, a part in front of
    the whole. -/
def le : Text → Text → Bool
  | [], _ => true
  | _ :: _, [] => false
  | a :: as, b :: bs => a.value < b.value || (a.value = b.value && le as bs)

theorem chars?_ofChars (cs : List Char) : chars? (ofChars cs) = some cs := by
  induction cs with
  | nil => rfl
  | cons c cs ih =>
    have rest : (cs.map CodePoint.char).mapM CodePoint.char? = some cs := ih
    rw [chars?, ofChars, List.map_cons, List.mapM_cons, rest]
    rfl

end Text

end Solvency
