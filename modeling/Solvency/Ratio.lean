import Solvency.Text.Basic

/-!
Ratios of whole amounts. Every amount in the library is an integer in the smallest unit, and a ratio
of two of them loses its fraction: it is cut toward zero, whatever the signs.
-/

namespace Solvency

/-- Why a calculation has no result. -/
inductive ArithmeticError where
  | divisionByZero
  | tooLarge
  deriving DecidableEq, Repr

def ArithmeticError.message : ArithmeticError → Text
  | .divisionByZero => "fixed-point division by zero"
  | .tooLarge => "the ratio is too large for a binary64 value"

/-- The product `x * y` over `z` cut toward zero, for a `z` that is known not to be zero. -/
def scaled (x y z : Int) : Int := (x * y).tdiv z

/-- The ratio of `x` to `y` cut toward zero. -/
def divide (x y : Int) : Except ArithmeticError Int :=
  if y = 0 then .error .divisionByZero else .ok (x.tdiv y)

/-- The ratio of the exact product `x * y` to `z` cut toward zero. -/
def mulDiv (x y z : Int) : Except ArithmeticError Int := divide (x * y) z

theorem divide_of_ne_zero {x y : Int} (h : y ≠ 0) : divide x y = .ok (x.tdiv y) := if_neg h

@[simp] theorem divide_zero (x : Int) : divide x 0 = .error .divisionByZero := rfl

theorem mulDiv_of_ne_zero {x y z : Int} (h : z ≠ 0) : mulDiv x y z = .ok (scaled x y z) :=
  divide_of_ne_zero h

/-- The mean of two amounts, cut to the floor: `-1` for `-1` and `0`. -/
def floorMean (a b : Int) : Int := (a + b).fdiv 2

end Solvency
