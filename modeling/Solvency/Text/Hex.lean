import Solvency.Text.Basic
import Solvency.Text.Blank

/-!
Bytes as hexadecimal text. Writing gives two lower-case digits a byte; reading takes either case and ASCII blanks
between, not within, the pairs.
-/

namespace Solvency.Text

/-- The value of a hexadecimal digit of either case. -/
def hexValue? (c : Char) : Option Nat :=
  if '0' ≤ c ∧ c ≤ '9' then some (c.toNat - '0'.toNat)
  else if 'a' ≤ c ∧ c ≤ 'f' then some (c.toNat - 'a'.toNat + 10)
  else if 'A' ≤ c ∧ c ≤ 'F' then some (c.toNat - 'A'.toNat + 10)
  else none

/-- The lower-case digit of a value below sixteen. -/
def hexDigit (n : Nat) : Char := Nat.digitChar n

/-- The bytes that hexadecimal text stands for. -/
def readHex : List Char → Option (List UInt8)
  | [] => some []
  | c :: rest =>
    if c.toNat < 0x80 && isPadding c then readHex rest
    else
      match rest with
      | [] => none
      | d :: rest =>
        match hexValue? c, hexValue? d with
        | some high, some low => (readHex rest).map (UInt8.ofNat (high * 16 + low) :: ·)
        | _, _ => none

def hexBytes? (text : Text) : Option (List UInt8) := text.chars?.bind readHex

/-- The hexadecimal text of bytes. -/
def writeHex : List UInt8 → List Char
  | [] => []
  | b :: rest => hexDigit (b.toNat / 16) :: hexDigit (b.toNat % 16) :: writeHex rest

end Solvency.Text
