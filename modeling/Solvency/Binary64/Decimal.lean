import Solvency.Binary64.Basic
import Solvency.Text.Integer

/-!
Decimal text as binary64: a mantissa of decimal digits times a power of ten, rounded once. Magnitudes far outside the
range of values end at infinity or zero without the power being formed.
-/

namespace Solvency.Binary64

/-- The value nearest to `mantissa * 10 ^ exponent`. -/
def ofDecimal (negative : Bool) (mantissa : Nat) (exponent : Int) : Binary64 :=
  if mantissa = 0 then zero negative
  else
    let magnitude := (Text.digits mantissa).length + exponent
    if 310 < magnitude then .infinite negative
    else if magnitude < -330 then zero negative
    else
      match exponent with
      | .ofNat k => ofRatio negative (mantissa * Nat.pow 10 k) 1
      | .negSucc k => ofRatio negative mantissa (Nat.pow 10 (k + 1))

end Solvency.Binary64
