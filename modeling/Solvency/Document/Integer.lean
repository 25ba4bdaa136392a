import Solvency.Document.Basic

/-!
Documents read as integers. Numbers are cut toward zero, truth values count as one and zero, and a text is read as
a decimal integer; every other document has no integer, for one of three causes.
-/

namespace Solvency

/-- Why a document has no integer. -/
inductive IntegerError where
  /-- A text that is no integer, or a number that is none. -/
  | malformed
  /-- An infinite number. -/
  | infinite
  /-- A null, a day, a time stamp, a list or a map. -/
  | notNumeric
  deriving DecidableEq, Repr

def Scalar.toInteger : Scalar → Except IntegerError Int
  | .null => .error .notNumeric
  | .bool value => .ok (if value then 1 else 0)
  | .integer value => .ok value
  | .float (.infinite _) => .error .infinite
  | .float value =>
    match value.truncate? with
    | some n => .ok n
    | none => .error .malformed
  | .text value =>
    match Text.readInteger value with
    | some n => .ok n
    | none => .error .malformed
  | .date _ => .error .notNumeric
  | .timestamp _ => .error .notNumeric

def Document.toInteger : Document → Except IntegerError Int
  | .scalar value => value.toInteger
  | _ => .error .notNumeric

end Solvency
