import Solvency.Binary64.Arithmetic
import Solvency.Binary64.Shortest
import Solvency.Text.Integer

/-!
Clock readings in seconds: whole, or with a fraction as a binary64 value. Lengths of time are given the same way.
-/

namespace Solvency

/-- Why a clock reading has no whole seconds. -/
inductive ClockFault where
  | infinite
  | notNumber
  deriving DecidableEq, Repr

def ClockFault.message : ClockFault → Text
  | .infinite => "the clock reads an infinite time"
  | .notNumber => "the clock reads no number"

/-- A reading of a clock. -/
inductive Instant where
  | whole (seconds : Int)
  | fractional (seconds : Binary64)
  deriving DecidableEq, Repr

namespace Instant

/-- The reading without its fraction, cut toward zero. -/
def seconds : Instant → Except ClockFault Int
  | .whole seconds => .ok seconds
  | .fractional (.infinite _) => .error .infinite
  | .fractional seconds =>
    match seconds.truncate? with
    | some n => .ok n
    | none => .error .notNumber

/-- Whether more than `limit` seconds lie between a whole second and the reading. The whole second is first brought to
    the precision of a fractional reading, which a number beyond the binary64 range does not have. -/
def isLaterBy (now : Instant) (since limit : Int) : Except ArithmeticError Bool :=
  match now with
  | .whole seconds => .ok (decide (limit < seconds - since))
  | .fractional seconds =>
    match Binary64.ofInt since with
    | .infinite _ => .error .tooLarge
    | since => .ok ((seconds.sub since).exceeds limit)

/-- Whether a number of seconds has few enough digits to be written. -/
def isWritable : Instant → Bool
  | .whole seconds => Text.isWritable seconds
  | .fractional _ => true

/-- The text of a number of seconds. -/
def display : Instant → Text
  | .whole seconds => Text.decimal seconds
  | .fractional seconds => seconds.render Binary64.plain

end Instant

/-- A length of time. -/
abbrev Duration := Instant

/-- When a length of time ends that starts now. -/
inductive Deadline where
  /-- It has ended already. -/
  | passed
  /-- It ends before anything that waits can go on. -/
  | immediate
  | later
  /-- It ends beyond the binary64 range, where no clock gets. -/
  | unreachable
  deriving DecidableEq, Repr

/-- The deadline of a length of time: what is no number, or less than a microsecond, ends immediately. -/
def Instant.deadline : Duration → Deadline
  | .whole seconds =>
    if seconds ≤ 0 then .passed
    else
      match Binary64.ofInt seconds with
      | .infinite _ => .unreachable
      | _ => .later
  | .fractional .nan => .immediate
  | .fractional seconds =>
    if !seconds.exceeds 0 then .passed
    else if (seconds.mul (.ofInt 1000000)).exceeds 1 then .later
    else .immediate

end Solvency
