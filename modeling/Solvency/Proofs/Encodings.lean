import Solvency.Text.Hex
import Solvency.Text.Utf8

/-! Encodings: bytes as hexadecimal text, and characters as bytes. What is written in either encoding is read back, so
    that bytes and characters survive being published. -/

namespace Solvency.Text

/-! ### Hexadecimal text -/

theorem hexValue?_hexDigit {n : Nat} (h : n < 16) : hexValue? (hexDigit n) = some n := by
  have hall : ∀ n : Fin 16, hexValue? (hexDigit n) = some n.val := by decide
  exact hall ⟨n, h⟩

theorem isPadding_hexDigit {n : Nat} (h : n < 16) : isPadding (hexDigit n) = false := by
  have hall : ∀ n : Fin 16, isPadding (hexDigit n) = false := by decide
  exact hall ⟨n, h⟩

theorem readHex_writeHex (bytes : List UInt8) : readHex (writeHex bytes) = some bytes := by
  induction bytes with
  | nil => rfl
  | cons b bytes ih =>
    have hb : b.toNat < 256 := b.toNat_lt
    have hhigh : b.toNat / 16 < 16 := by omega
    have hlow : b.toNat % 16 < 16 := by omega
    have hvalue : b.toNat / 16 * 16 + b.toNat % 16 = b.toNat := by omega
    rw [writeHex, readHex, isPadding_hexDigit hhigh, Bool.and_false, if_neg Bool.false_ne_true]
    simp only [hexValue?_hexDigit hhigh, hexValue?_hexDigit hlow, ih, hvalue, Option.map_some, UInt8.ofNat_toNat]

theorem hexBytes?_writeHex (bytes : List UInt8) : hexBytes? (ofChars (writeHex bytes)) = some bytes := by
  rw [hexBytes?, chars?_ofChars, Option.bind_some, readHex_writeHex]

theorem length_writeHex (bytes : List UInt8) : (writeHex bytes).length = 2 * bytes.length := by
  induction bytes with
  | nil => rfl
  | cons b bytes ih =>
    rw [writeHex, List.length_cons, List.length_cons, List.length_cons, ih]
    omega

/-! ### UTF-8 -/

theorem toNat_ofNat {n : Nat} (h : n < 256) : (UInt8.ofNat n).toNat = n := UInt8.toNat_ofNat_of_lt' h

theorem continuation?_ofNat {n : Nat} (h : n < 64) : continuation? (UInt8.ofNat (0x80 + n)) = some n := by
  rw [continuation?, toNat_ofNat (by omega), if_pos (by omega), Nat.add_sub_cancel_left]

theorem charAt?_toNat {least : Nat} {c : Char} (h : least ≤ c.toNat) : charAt? least c.toNat = some c := by
  rw [charAt?, if_pos ⟨h, c.valid⟩, Char.ofNat_toNat]

theorem toNat_lt (c : Char) : c.toNat < 0x110000 := by
  rcases c.valid with h | ⟨-, h⟩
  · exact Nat.lt_trans h (by decide)
  · exact h

/-- A character is read back from its bytes, whatever stands behind them. -/
theorem readChar_charBytes (c : Char) (rest : List UInt8) : readChar (charBytes c ++ rest) = some (c, rest) := by
  have hlast := toNat_lt c
  -- One case for each number of bytes; in each, the pieces of the code point make up the code point again.
  unfold charBytes
  dsimp only
  rcases Nat.lt_or_ge c.toNat 0x80 with hone | hone
  · rw [if_pos hone, List.singleton_append]
    unfold readChar
    simp only [toNat_ofNat (show c.toNat < 256 by omega), if_pos hone, Char.ofNat_toNat]
  rw [if_neg (Nat.not_lt.mpr hone)]
  rcases Nat.lt_or_ge c.toNat 0x800 with htwo | htwo
  · have hvalue : c.toNat / 64 * 64 + c.toNat % 64 = c.toNat := by omega
    rw [if_pos htwo]
    simp only [List.cons_append, List.nil_append, readChar, toNat_ofNat (show 0xC0 + c.toNat / 64 < 256 by omega)]
    rw [if_neg (by omega), if_pos (by omega), continuation?_ofNat (by omega)]
    simp [hvalue, charAt?_toNat hone]
  rw [if_neg (Nat.not_lt.mpr htwo)]
  rcases Nat.lt_or_ge c.toNat 0x10000 with hthree | hthree
  · have hvalue : (c.toNat / 4096 * 64 + c.toNat / 64 % 64) * 64 + c.toNat % 64 = c.toNat := by omega
    rw [if_pos hthree]
    simp only [List.cons_append, List.nil_append, readChar, toNat_ofNat (show 0xE0 + c.toNat / 4096 < 256 by omega)]
    rw [if_neg (by omega), if_neg (by omega), if_pos (by omega), continuation?_ofNat (by omega),
      continuation?_ofNat (by omega)]
    simp [hvalue, charAt?_toNat htwo]
  · have hvalue : ((c.toNat / 262144 * 64 + c.toNat / 4096 % 64) * 64 + c.toNat / 64 % 64) * 64 + c.toNat % 64 =
        c.toNat := by omega
    rw [if_neg (Nat.not_lt.mpr hthree)]
    simp only [List.cons_append, List.nil_append, readChar, toNat_ofNat (show 0xF0 + c.toNat / 262144 < 256 by omega)]
    rw [if_neg (by omega), if_neg (by omega), if_neg (by omega), if_pos (by omega), continuation?_ofNat (by omega),
      continuation?_ofNat (by omega), continuation?_ofNat (by omega)]
    simp [hvalue, charAt?_toNat hthree]

theorem readUtf8From_writeUtf8 (done cs : List Char) :
    readUtf8From done (writeUtf8 cs) = some (done.reverse ++ cs) := by
  induction cs generalizing done with
  | nil => simp [writeUtf8, readUtf8From]
  | cons c cs ih =>
    have hread := readChar_charBytes c (writeUtf8 cs)
    rw [writeUtf8, List.flatMap_cons, ← writeUtf8]
    cases hall : charBytes c ++ writeUtf8 cs with
    | nil => rw [hall] at hread; cases hread
    | cons b bytes =>
      rw [hall] at hread
      rw [readUtf8From]
      split
      · rename_i hc
        cases hread.symm.trans hc
        rw [ih, List.reverse_cons, List.append_assoc, List.singleton_append]
      · rename_i hc
        cases hread.symm.trans hc

/-- Characters are read back from their bytes. -/
theorem readUtf8_writeUtf8 (cs : List Char) : readUtf8 (writeUtf8 cs) = some cs := readUtf8From_writeUtf8 [] cs

end Solvency.Text
