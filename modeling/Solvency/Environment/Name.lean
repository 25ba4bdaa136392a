import Solvency.Text.Integer
import Solvency.Text.Quoted

/-!
Names of variables. A variable is looked up by the bytes of its name: characters have those of UTF-8, and a surrogate
from DC80 on, for the first 128, stands for the byte with its low eight bits. Any other surrogate has no bytes, so a
name that holds one cannot be looked up.
-/

namespace Solvency

/-- A surrogate in a name that has no bytes, its place, and the place of the last surrogate that follows without a
    break. -/
structure NameFault where
  surrogate : Fin 0x800
  first : Nat
  last : Nat
  deriving DecidableEq, Repr

def NameFault.message (fault : NameFault) : Text :=
  let escape : Text := .ofChars (Text.numericEscape (CodePoint.surrogate fault.surrogate).value)
  let points : Text :=
    if fault.first = fault.last then "character '" ++ escape ++ "' in position " ++ Text.decimal fault.first
    else "characters in position " ++ Text.decimal fault.first ++ "-" ++ Text.decimal fault.last
  "'utf-8' codec can't encode " ++ points ++ ": surrogates not allowed"

def standsForByte (surrogate : Fin 0x800) : Bool := 0x480 ≤ surrogate.val && surrogate.val < 0x500

/-- The first fault in what is left of a name at a place. -/
def nameFaultFrom (place : Nat) : Text → Option NameFault
  | [] => none
  | .char _ :: rest => nameFaultFrom (place + 1) rest
  | .surrogate surrogate :: rest =>
    if standsForByte surrogate then nameFaultFrom (place + 1) rest
    else some ⟨surrogate, place, place + (rest.takeWhile fun point => point.char?.isNone).length⟩

def nameFault? (name : Text) : Option NameFault := nameFaultFrom 0 name

end Solvency
