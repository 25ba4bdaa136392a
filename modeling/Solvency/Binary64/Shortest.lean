import Solvency.Binary64.Basic
import Solvency.Text.Integer

/-!
The shortest decimal text of a binary64 value. Of the decimals that round to the value, those on the coarsest
decimal grid are taken, and of these the nearest one. A layout says how its digits are written.
-/

namespace Solvency.Binary64

/-- Digits times a power of ten. -/
structure Decimal where
  digits : Nat
  exponent : Int
  deriving DecidableEq, Repr

/-- The numerator and denominator of a power. -/
def powerRatio (base : Nat) : Int → Nat × Nat
  | .ofNat k => (base.pow k, 1)
  | .negSucc k => (1, base.pow (k + 1))

/-- The interval of numbers that round to a value, in quarter steps: its low end, the value and its high end. Below
    a power of two the step is half as wide. -/
def quarters (significand : Nat) (exponent : Int) : Nat × Nat × Nat :=
  let below := if significand = hiddenBit ∧ leastExponent < exponent then 1 else 2
  (4 * significand - below, 4 * significand, 4 * significand + 2)

/-- The point of the grid of ten to the power `k` that rounds to the value, the nearest one if two do, and the even one
    if both are as near. -/
def onGrid? (significand : Nat) (exponent k : Int) : Option Nat :=
  let (low, value, high) := quarters significand exponent
  let (binNum, binDen) := powerRatio 2 (exponent - 2)
  let (tenNum, tenDen) := powerRatio 10 k
  let unit := tenNum * binDen
  let scale := binNum * tenDen
  let rounds (point : Nat) : Bool :=
    if significand % 2 = 0 then low * scale ≤ point * unit && point * unit ≤ high * scale
    else low * scale < point * unit && point * unit < high * scale
  let floor := value * scale / unit
  let ceiling := floor + 1
  let down := value * scale - floor * unit
  let up := ceiling * unit - value * scale
  if rounds floor then
    if rounds ceiling && (up < down || (up = down && floor % 2 = 1)) then some ceiling else some floor
  else if rounds ceiling then some ceiling
  else none

/-- The first grid with a hit, from ten to the power `k` downward for `fuel` grids. -/
def searchGrids (significand : Nat) (exponent : Int) : Nat → Int → Decimal
  | 0, k => ⟨significand, k⟩
  | fuel + 1, k =>
    match onGrid? significand exponent k with
    | some digits => ⟨digits, k⟩
    | none => searchGrids significand exponent fuel (k - 1)

/-- The shortest decimal of a finite value that is not zero. Every value has one between `10 ^ 309` and
    `10 ^ (-340)`. -/
def shortest (significand : Nat) (exponent : Int) : Decimal := searchGrids significand exponent 650 309

/-- How a decimal is written. -/
structure Layout where
  /-- The exponents of the first digit that are written without a power of ten. -/
  leastPositional : Int
  greatestPositional : Int
  /-- The least number of digits of a written power of ten. -/
  exponentWidth : Nat
  infinity : String
  notANumber : String

/-- Powers of ten are written below `10 ^ (-4)` and from `10 ^ 16` on, with a sign and at least two digits. -/
def plain : Layout := ⟨-4, 15, 2, "inf", "nan"⟩

/-- The digits of a decimal around a point, which stands behind `point` digits. -/
def positional (ds : List Char) (point : Int) : List Char :=
  if point ≤ 0 then '0' :: '.' :: List.replicate (-point).toNat '0' ++ ds
  else if ds.length ≤ point.toNat then ds ++ List.replicate (point.toNat - ds.length) '0' ++ ['.', '0']
  else ds.take point.toNat ++ '.' :: ds.drop point.toNat

/-- The digits of a decimal with the point behind the first one and a power of ten. -/
def scientific (width : Nat) (ds : List Char) (power : Int) : List Char :=
  let mantissa := match ds with
    | first :: second :: rest => first :: '.' :: second :: rest
    | _ => ds
  let exponent := Text.digits power.natAbs
  mantissa ++ 'e' :: (if power < 0 then '-' else '+') ::
    List.replicate (width - exponent.length) '0' ++ exponent

/-- The text of a value in a layout. -/
def render (layout : Layout) : Binary64 → String
  | .nan => layout.notANumber
  | .infinite negative => (if negative then "-" else "") ++ layout.infinity
  | .finite negative m e =>
    let body :=
      if m = 0 then ['0', '.', '0']
      else
        let decimal := shortest m e
        let ds := Text.digits decimal.digits
        let power := ds.length + decimal.exponent - 1
        if layout.leastPositional ≤ power ∧ power ≤ layout.greatestPositional then positional ds (power + 1)
        else scientific layout.exponentWidth ds power
    String.ofList (if negative then '-' :: body else body)

end Solvency.Binary64
