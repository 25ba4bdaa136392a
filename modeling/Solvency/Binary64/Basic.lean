import Solvency.Ratio

/-!
Binary64 values as exact numbers. A finite value is a significand below `2 ^ 53` times a power of two; a ratio of
natural numbers is rounded to the nearest value, a half to the even significand. All arithmetic goes through exact
integers and rounds once.
-/

namespace Solvency

/-- A binary64 value; a finite one is the significand times two to the exponent, with its sign. -/
inductive Binary64 where
  | finite (negative : Bool) (significand : Nat) (exponent : Int)
  | infinite (negative : Bool)
  | nan
  deriving DecidableEq, Repr

namespace Binary64

/-- The exponent of the smallest step between values. -/
def leastExponent : Int := -1074

/-- The largest exponent of a finite value. -/
def greatestExponent : Int := 971

/-- The bit above the fraction, which a significand has unless it is at the least exponent: two to the power 52. -/
def hiddenBit : Nat := 4503599627370496

def zero (negative : Bool) : Binary64 := .finite negative 0 leastExponent

/-- The quotient rounded to the nearest natural number, a half to the even one. -/
def roundHalfEven (num den : Nat) : Nat :=
  let q := num / den
  let r := num % den
  if 2 * r < den ∨ (2 * r = den ∧ q % 2 = 0) then q else q + 1

/-- Whether `num / den` lies below two to the power `e`. -/
def belowPower (num den : Nat) : Int → Bool
  | .ofNat k => num < den * Nat.pow 2 k
  | .negSucc k => num * Nat.pow 2 (k + 1) < den

/-- The exponent at which `num / den` has 53 binary digits before the point, or the least one. -/
def unitExponent (num den : Nat) : Int :=
  let gap : Int := (num.log2 : Int) - den.log2
  let floorLog := if belowPower num den gap then gap - 1 else gap
  max (floorLog - 52) leastExponent

/-- The number of steps of two to the power `e` nearest to `num / den`. -/
def steps (num den : Nat) : Int → Nat
  | .ofNat k => roundHalfEven num (den * Nat.pow 2 k)
  | .negSucc k => roundHalfEven (num * Nat.pow 2 (k + 1)) den

/-- The value of a rounded significand, which may have reached `2 ^ 53`, or infinity above the largest value. -/
def ofSteps (negative : Bool) (significand : Nat) (exponent : Int) : Binary64 :=
  let carried := significand = 2 * hiddenBit
  let exponent := if carried then exponent + 1 else exponent
  if greatestExponent < exponent then .infinite negative
  else .finite negative (if carried then hiddenBit else significand) exponent

/-- The value nearest to the ratio `num / den`, for a `den` that is not zero. -/
def ofRatio (negative : Bool) (num den : Nat) : Binary64 :=
  if num = 0 then zero negative
  else
    let e := unitExponent num den
    ofSteps negative (steps num den e) e

/-- The value nearest to an integer times a power of two. -/
def ofScaled (n : Int) : Int → Binary64
  | .ofNat k => ofRatio (n < 0) (n.natAbs * Nat.pow 2 k) 1
  | .negSucc k => ofRatio (n < 0) n.natAbs (Nat.pow 2 (k + 1))

/-- The value nearest to an integer. -/
def ofInt (n : Int) : Binary64 := ofScaled n 0

/-- The exact ratio of two integers rounded once. -/
def ofQuotient (x y : Int) : Except ArithmeticError Binary64 :=
  if y = 0 then .error .divisionByZero
  else
    match ofRatio ((x < 0) != (y < 0)) x.natAbs y.natAbs with
    | .infinite _ => .error .tooLarge
    | value => .ok value

/-- A significand with a sign, in steps of two to the power `unit`, which is at most the exponent. -/
def stepsAt (negative : Bool) (significand : Nat) (exponent unit : Int) : Int :=
  let n : Nat := significand * Nat.pow 2 (exponent - unit).toNat
  if negative then -n else n

/-- The exact difference rounded once; an exact zero is positive unless a positive zero leaves a negative one. -/
def sub : Binary64 → Binary64 → Binary64
  | .finite n m e, .finite n' m' e' =>
    let unit := min e e'
    let difference := stepsAt n m e unit - stepsAt n' m' e' unit
    if difference = 0 then zero (n && !n' && m = 0) else ofScaled difference unit
  | .nan, _ => .nan
  | _, .nan => .nan
  | .infinite n, .infinite n' => if n = n' then .nan else .infinite n
  | .infinite n, .finite _ _ _ => .infinite n
  | .finite _ _ _, .infinite n' => .infinite (!n')

/-- Whether the value is greater than an integer, exactly. -/
def exceeds : Binary64 → Int → Bool
  | .finite negative m (.ofNat k), n => n < stepsAt negative m k 0
  | .finite negative m (.negSucc k), n => n * Nat.pow 2 (k + 1) < (if negative then -(m : Int) else m)
  | .infinite negative, _ => !negative
  | .nan, _ => false

/-- The integer of a finite value, cut toward zero. -/
def truncate? : Binary64 → Option Int
  | .finite negative m (.ofNat k) => some (stepsAt negative m k 0)
  | .finite negative m (.negSucc k) =>
    let n : Nat := m / Nat.pow 2 (k + 1)
    some (if negative then -n else n)
  | _ => none

/-- Whether the value is a zero of either sign. -/
def isZero : Binary64 → Bool
  | .finite _ m _ => m = 0
  | _ => false

def signBit (negative : Bool) : Nat := if negative then Nat.pow 2 63 else 0

/-- The 64 bits of the interchange format: sign, biased exponent, fraction. -/
def toBits : Binary64 → Nat
  | .finite negative m e =>
    if m < hiddenBit then signBit negative + m
    else signBit negative + (e - leastExponent + 1).toNat * hiddenBit + (m - hiddenBit)
  | .infinite negative => signBit negative + 2047 * hiddenBit
  | .nan => 2047 * hiddenBit + hiddenBit / 2

end Binary64

end Solvency
