import Solvency.Binary64.Basic

/-!
Sums and products of binary64 values. Both are exact results rounded once; a result beyond the largest value is
infinite, and an exact zero has the sign that its parts give it.
-/

namespace Solvency.Binary64

/-- The value with the other sign. -/
def negate : Binary64 → Binary64
  | .finite negative m e => .finite (!negative) m e
  | .infinite negative => .infinite (!negative)
  | .nan => .nan

/-- Whether the value has a minus sign. -/
def isNegative : Binary64 → Bool
  | .finite negative _ _ => negative
  | .infinite negative => negative
  | .nan => false

/-- The exact sum rounded once. -/
def add (a b : Binary64) : Binary64 := a.sub b.negate

/-- The exact product rounded once; zero times infinity is no number. -/
def mul (a b : Binary64) : Binary64 :=
  let negative := a.isNegative != b.isNegative
  match a, b with
  | .finite _ m e, .finite _ n f =>
    if m * n = 0 then zero negative
    else
      let product := ofScaled (m * n) (e + f)
      if negative then product.negate else product
  | .nan, _ => .nan
  | _, .nan => .nan
  | a, b => if a.isZero || b.isZero then .nan else .infinite negative

end Solvency.Binary64
