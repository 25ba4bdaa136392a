import Solvency.Deployment.Basic

/-! The number of a digest has 256 bits: a digest is at most eight words of four bytes each, and big-endian bytes stand
    for a number below the power of 256 that their count gives. -/

namespace Solvency

namespace Digest

theorem foldl_digit_lt (bytes : List UInt8) {n m : Nat} (h : n < m) :
    bytes.foldl (fun n b => n * 256 + b.toNat) n < m * Nat.pow 256 bytes.length := by
  induction bytes generalizing n m with
  | nil => simpa using h
  | cons b bytes ih =>
    have hb : b.toNat < 256 := b.toNat_lt
    have hstep := ih (n := n * 256 + b.toNat) (m := m * 256) (by omega)
    rw [Nat.mul_assoc, Nat.mul_comm 256] at hstep
    exact hstep

theorem ofBigEndian_lt (bytes : List UInt8) : ofBigEndian bytes < Nat.pow 256 bytes.length := by
  have h := foldl_digit_lt bytes (n := 0) (m := 1) (by decide)
  rw [Nat.one_mul] at h
  exact h

theorem length_bigEndian (width n : Nat) : (bigEndian width n).length = width := by
  induction width generalizing n with
  | zero => rfl
  | succ width ih => rw [bigEndian, List.length_append, ih]; rfl

theorem length_absorb_le (state : List UInt32) (block : List UInt8) : (absorb state block).length ≤ state.length := by
  unfold absorb
  rw [List.length_zipWith]
  exact Nat.min_le_left _ _

theorem length_foldl_absorb_le (blocks : List (List UInt8)) (state : List UInt32) :
    (blocks.foldl absorb state).length ≤ state.length := by
  induction blocks generalizing state with
  | nil => exact Nat.le_refl _
  | cons block blocks ih => exact Nat.le_trans (ih (absorb state block)) (length_absorb_le state block)

theorem length_flatMap_bigEndian (words : List UInt32) :
    (words.flatMap fun word => bigEndian 4 word.toNat).length = 4 * words.length := by
  induction words with
  | nil => rfl
  | cons word words ih => rw [List.flatMap_cons, List.length_append, length_bigEndian, ih, List.length_cons]; omega

theorem length_digest_le (message : List UInt8) : (digest message).length ≤ 32 := by
  unfold digest
  rw [length_flatMap_bigEndian]
  exact Nat.mul_le_mul_left 4 (length_foldl_absorb_le _ initialState)

theorem digestNumber_lt (message : List UInt8) : digestNumber message < Nat.pow 2 256 :=
  Nat.lt_of_lt_of_le (ofBigEndian_lt _) (Nat.pow_le_pow_right (by decide) (length_digest_le message))

end Digest

theorem AssetSpec.id_nonneg (asset : AssetSpec) : 0 ≤ asset.id := by
  unfold AssetSpec.id assetId?
  cases Text.utf8? asset.name with
  | none => exact Int.le_refl _
  | some bytes => exact Int.natCast_nonneg _

theorem AssetSpec.id_lt (asset : AssetSpec) : asset.id < Nat.pow 2 256 := by
  unfold AssetSpec.id assetId?
  cases Text.utf8? asset.name with
  | none => decide
  | some bytes => exact Int.ofNat_lt.mpr (Digest.digestNumber_lt _)

end Solvency
