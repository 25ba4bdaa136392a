import Solvency.Text.Basic

/-!
UTF-8. A character takes one to four bytes; reading refuses a byte sequence that is cut short, that is longer
than its character needs, or that stands for a surrogate or for more than the last code point. Surrogates have no bytes.
-/

namespace Solvency.Text

/-- A byte that continues a code point: six more bits. -/
def continuation? (b : UInt8) : Option Nat :=
  if 0x80 ≤ b.toNat ∧ b.toNat < 0xC0 then some (b.toNat - 0x80) else none

/-- The character at a code point that needs at least `least`, if there is one. -/
def charAt? (least point : Nat) : Option Char :=
  if least ≤ point ∧ point.isValidChar then some (Char.ofNat point) else none

/-- The first character of the bytes and the bytes behind it. -/
def readChar : List UInt8 → Option (Char × List UInt8)
  | [] => none
  | a :: rest =>
    if a.toNat < 0x80 then some (Char.ofNat a.toNat, rest)
    else if 0xC0 ≤ a.toNat ∧ a.toNat < 0xE0 then
      match rest with
      | b :: rest => do
        let b ← continuation? b
        let c ← charAt? 0x80 ((a.toNat - 0xC0) * 64 + b)
        some (c, rest)
      | _ => none
    else if 0xE0 ≤ a.toNat ∧ a.toNat < 0xF0 then
      match rest with
      | b :: c :: rest => do
        let b ← continuation? b
        let c ← continuation? c
        let char ← charAt? 0x800 (((a.toNat - 0xE0) * 64 + b) * 64 + c)
        some (char, rest)
      | _ => none
    else if 0xF0 ≤ a.toNat ∧ a.toNat < 0xF8 then
      match rest with
      | b :: c :: d :: rest => do
        let b ← continuation? b
        let c ← continuation? c
        let d ← continuation? d
        let char ← charAt? 0x10000 ((((a.toNat - 0xF0) * 64 + b) * 64 + c) * 64 + d)
        some (char, rest)
      | _ => none
    else none

/-- Reading a character uses up at least one byte. -/
theorem length_readChar {bytes rest : List UInt8} {c : Char} (h : readChar bytes = some (c, rest)) :
    rest.length < bytes.length := by
  unfold readChar at h
  split at h
  · cases h
  · split at h
    · cases h; simp
    · split at h
      · split at h
        · simp only [Option.bind_eq_bind, Option.bind_eq_some_iff, Option.some.injEq, Prod.mk.injEq] at h
          obtain ⟨_, _, _, _, _, rfl⟩ := h
          simp only [List.length_cons]; omega
        · cases h
      · split at h
        · split at h
          · simp only [Option.bind_eq_bind, Option.bind_eq_some_iff, Option.some.injEq, Prod.mk.injEq] at h
            obtain ⟨_, _, _, _, _, _, _, rfl⟩ := h
            simp only [List.length_cons]; omega
          · cases h
        · split at h
          · split at h
            · simp only [Option.bind_eq_bind, Option.bind_eq_some_iff, Option.some.injEq, Prod.mk.injEq] at h
              obtain ⟨_, _, _, _, _, _, _, _, _, rfl⟩ := h
              simp only [List.length_cons]; omega
            · cases h
          · cases h

/-- The characters of UTF-8 bytes, collected behind `done` in reverse. -/
def readUtf8From (done : List Char) (bytes : List UInt8) : Option (List Char) :=
  match bytes with
  | [] => some done.reverse
  | b :: bytes =>
    match _ : readChar (b :: bytes) with
    | some (c, rest) => readUtf8From (c :: done) rest
    | none => none
termination_by bytes.length
decreasing_by exact length_readChar ‹_›

def readUtf8 (bytes : List UInt8) : Option (List Char) := readUtf8From [] bytes

def charBytes (c : Char) : List UInt8 :=
  let n := c.toNat
  if n < 0x80 then [UInt8.ofNat n]
  else if n < 0x800 then [UInt8.ofNat (0xC0 + n / 64), UInt8.ofNat (0x80 + n % 64)]
  else if n < 0x10000 then
    [UInt8.ofNat (0xE0 + n / 4096), UInt8.ofNat (0x80 + n / 64 % 64), UInt8.ofNat (0x80 + n % 64)]
  else
    [UInt8.ofNat (0xF0 + n / 262144), UInt8.ofNat (0x80 + n / 4096 % 64), UInt8.ofNat (0x80 + n / 64 % 64),
     UInt8.ofNat (0x80 + n % 64)]

/-- The UTF-8 bytes of characters. -/
def writeUtf8 (cs : List Char) : List UInt8 := cs.flatMap charBytes

/-- The UTF-8 bytes of a text, if it holds no surrogate. -/
def utf8? (text : Text) : Option (List UInt8) := text.chars?.map writeUtf8

end Solvency.Text
