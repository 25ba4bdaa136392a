/-!
The 256-bit digest of a byte string: the message is padded to blocks of sixteen big-endian words, and every block
mixes its 64 scheduled words into a state of eight.
-/

namespace Solvency.Digest

/-- The state before the first block: fractions of the square roots of the first eight primes. -/
def initialState : List UInt32 :=
  [0x6a09e667, 0xbb67ae85, 0x3c6ef372, 0xa54ff53a, 0x510e527f, 0x9b05688c, 0x1f83d9ab, 0x5be0cd19]

/-- The words added in the 64 rounds: fractions of the cube roots of the first 64 primes. -/
def roundWords : List UInt32 :=
  [0x428a2f98, 0x71374491, 0xb5c0fbcf, 0xe9b5dba5, 0x3956c25b, 0x59f111f1, 0x923f82a4, 0xab1c5ed5, 0xd807aa98,
   0x12835b01, 0x243185be, 0x550c7dc3, 0x72be5d74, 0x80deb1fe, 0x9bdc06a7, 0xc19bf174, 0xe49b69c1, 0xefbe4786,
   0x0fc19dc6, 0x240ca1cc, 0x2de92c6f, 0x4a7484aa, 0x5cb0a9dc, 0x76f988da, 0x983e5152, 0xa831c66d, 0xb00327c8,
   0xbf597fc7, 0xc6e00bf3, 0xd5a79147, 0x06ca6351, 0x14292967, 0x27b70a85, 0x2e1b2138, 0x4d2c6dfc, 0x53380d13,
   0x650a7354, 0x766a0abb, 0x81c2c92e, 0x92722c85, 0xa2bfe8a1, 0xa81a664b, 0xc24b8b70, 0xc76c51a3, 0xd192e819,
   0xd6990624, 0xf40e3585, 0x106aa070, 0x19a4c116, 0x1e376c08, 0x2748774c, 0x34b0bcb5, 0x391c0cb3, 0x4ed8aa4a,
   0x5b9cca4f, 0x682e6ff3, 0x748f82ee, 0x78a5636f, 0x84c87814, 0x8cc70208, 0x90befffa, 0xa4506ceb, 0xbef9a3f7,
   0xc67178f2]

/-- A word with its bits turned right. -/
def rotateRight (w n : UInt32) : UInt32 := (w >>> n) ||| (w <<< (32 - n))

/-- The big-endian bytes of a number, filled up or cut to a width. -/
def bigEndian : Nat → Nat → List UInt8
  | 0, _ => []
  | width + 1, n => bigEndian width (n / 256) ++ [UInt8.ofNat (n % 256)]

def ofBigEndian (bytes : List UInt8) : Nat := bytes.foldl (fun n b => n * 256 + b.toNat) 0

/-- The message with a one bit, zeros and its length in bits, in whole blocks. -/
def padded (message : List UInt8) : List UInt8 :=
  let zeros := (119 - message.length % 64) % 64
  message ++ 0x80 :: List.replicate zeros 0 ++ bigEndian 8 (message.length * 8)

/-- Bytes in groups of `size`, the last one shorter if they do not come out even. -/
def groups (size : Nat) : Nat → List UInt8 → List (List UInt8)
  | 0, _ => []
  | count + 1, bytes => bytes.take size :: groups size count (bytes.drop size)

def blockWords (block : List UInt8) : List UInt32 :=
  (groups 4 16 block).map fun bytes => UInt32.ofNat (ofBigEndian bytes)

/-- The words after `window`, which holds the last sixteen. -/
def extend : Nat → List UInt32 → List UInt32
  | 0, _ => []
  | count + 1, window =>
    let a := window.getD 0 0
    let b := window.getD 1 0
    let y := window.getD 14 0
    let low := rotateRight b 7 ^^^ rotateRight b 18 ^^^ (b >>> 3)
    let high := rotateRight y 17 ^^^ rotateRight y 19 ^^^ (y >>> 10)
    let word := a + low + window.getD 9 0 + high
    word :: extend count (window.drop 1 ++ [word])

/-- The 64 words that a block is mixed in with. -/
def schedule (block : List UInt8) : List UInt32 :=
  let words := blockWords block
  words ++ extend 48 words

/-- One round: the state with a round word and a scheduled word mixed in. -/
def mix (state : List UInt32) (k w : UInt32) : List UInt32 :=
  match state with
  | [a, b, c, d, e, f, g, h] =>
    let choice := (e &&& f) ^^^ ((~~~e) &&& g)
    let majority := (a &&& b) ^^^ (a &&& c) ^^^ (b &&& c)
    let up := h + (rotateRight e 6 ^^^ rotateRight e 11 ^^^ rotateRight e 25) + choice + k + w
    let down := (rotateRight a 2 ^^^ rotateRight a 13 ^^^ rotateRight a 22) + majority
    [up + down, a, b, c, d + up, e, f, g]
  | _ => state

def absorb (state : List UInt32) (block : List UInt8) : List UInt32 :=
  let mixed := (roundWords.zip (schedule block)).foldl (fun s kw => mix s kw.1 kw.2) state
  state.zipWith (· + ·) mixed

def digest (message : List UInt8) : List UInt8 :=
  let bytes := padded message
  let final := (groups 64 (bytes.length / 64) bytes).foldl absorb initialState
  final.flatMap fun word => bigEndian 4 word.toNat

def digestNumber (message : List UInt8) : Nat := ofBigEndian (digest message)

end Solvency.Digest
