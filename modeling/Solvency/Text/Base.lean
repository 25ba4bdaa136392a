import Solvency.Text.Hex

/-! Numbers to a base up to sixteen. A character that is no digit counts as zero. -/

namespace Solvency.Text

/-- The number that digits stand for to a base. -/
def ofBase (base : Nat) (ds : List Char) : Nat := ds.foldl (fun n d => n * base + (hexValue? d).getD 0) 0

end Solvency.Text
