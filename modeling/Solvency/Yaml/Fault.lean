import Solvency.Calendar.Display

/-!
What can be wrong with a YAML text: its form, or a scalar that has the form of a value and stands for none.
-/

namespace Solvency.Yaml

/-- Why a text stands for no document. -/
inductive Fault where
  /-- The text is not well formed, or a node stands where it cannot. -/
  | malformed
  /-- An escape for a code point behind the last one. -/
  | noCharacter
  /-- An escape for a code point of more than 31 bits, or a place of a number to the base of sixty beyond binary64. -/
  | tooLarge
  /-- An integer without digits, or with too many. -/
  | noInteger
  | calendar (cause : CalendarError)
  deriving DecidableEq, Repr

/-- The text that reports the fault, for the faults that have one. -/
def Fault.message? : Fault → Option Text
  | .noCharacter => some "chr() arg not in range(0x110000)"
  | .calendar cause => some cause.message
  | _ => none

end Solvency.Yaml
