import FabricReconciliation.Lib.Codec

/-!
# SHA-256 (`hash.cpp`)

The streaming hasher, as the source computes it: eight 32-bit chaining words, a bit
count that wraps at 64 bits, and a block buffer. `buffer` holds the `buffered_` bytes that
are meaningful; the stale rest of the source's 64-byte array is never read.
-/

namespace FabricReconciliation

open Lib

/-- `Sha256Digest`. -/
abbrev Digest := FixedBytes 32

/-- `kSha256Bytes`. -/
def kSha256Bytes : Nat := 32

namespace Sha256

/-- `kRoundConstants` (`hash.cpp:12`). -/
def kRoundConstants : List UInt32 := [
  0x428a2f98, 0x71374491, 0xb5c0fbcf, 0xe9b5dba5, 0x3956c25b, 0x59f111f1, 0x923f82a4,
  0xab1c5ed5, 0xd807aa98, 0x12835b01, 0x243185be, 0x550c7dc3, 0x72be5d74, 0x80deb1fe,
  0x9bdc06a7, 0xc19bf174, 0xe49b69c1, 0xefbe4786, 0x0fc19dc6, 0x240ca1cc, 0x2de92c6f,
  0x4a7484aa, 0x5cb0a9dc, 0x76f988da, 0x983e5152, 0xa831c66d, 0xb00327c8, 0xbf597fc7,
  0xc6e00bf3, 0xd5a79147, 0x06ca6351, 0x14292967, 0x27b70a85, 0x2e1b2138, 0x4d2c6dfc,
  0x53380d13, 0x650a7354, 0x766a0abb, 0x81c2c92e, 0x92722c85, 0xa2bfe8a1, 0xa81a664b,
  0xc24b8b70, 0xc76c51a3, 0xd192e819, 0xd6990624, 0xf40e3585, 0x106aa070, 0x19a4c116,
  0x1e376c08, 0x2748774c, 0x34b0bcb5, 0x391c0cb3, 0x4ed8aa4a, 0x5b9cca4f, 0x682e6ff3,
  0x748f82ee, 0x78a5636f, 0x84c87814, 0x8cc70208, 0x90befffa, 0xa4506ceb, 0xbef9a3f7,
  0xc67178f2]

def rotateRight (value bits : UInt32) : UInt32 := (value >>> bits) ||| (value <<< (32 - bits))

def choose (x y z : UInt32) : UInt32 := (x &&& y) ^^^ (~~~x &&& z)

def majority (x y z : UInt32) : UInt32 := (x &&& y) ^^^ (x &&& z) ^^^ (y &&& z)

def bigSigma0 (x : UInt32) : UInt32 := rotateRight x 2 ^^^ rotateRight x 13 ^^^ rotateRight x 22

def bigSigma1 (x : UInt32) : UInt32 := rotateRight x 6 ^^^ rotateRight x 11 ^^^ rotateRight x 25

def smallSigma0 (x : UInt32) : UInt32 := rotateRight x 7 ^^^ rotateRight x 18 ^^^ (x >>> 3)

def smallSigma1 (x : UInt32) : UInt32 := rotateRight x 17 ^^^ rotateRight x 19 ^^^ (x >>> 10)

/-- The chaining value `state_[0..7]`, also the working variables `a..h` of a compression. -/
structure Words where
  a : UInt32
  b : UInt32
  c : UInt32
  d : UInt32
  e : UInt32
  f : UInt32
  g : UInt32
  h : UInt32
deriving DecidableEq

def initialWords : Words :=
  ⟨0x6a09e667, 0xbb67ae85, 0x3c6ef372, 0xa54ff53a, 0x510e527f, 0x9b05688c, 0x1f83d9ab, 0x5be0cd19⟩

/-- The first loop of `Compress`: sixteen big-endian words, newest first. -/
def loadWords : Nat → Bytes → List UInt32 → List UInt32
  | n + 1, b0 :: b1 :: b2 :: b3 :: rest, acc =>
    loadWords n rest
      (((b0.toUInt32 <<< 24) ||| (b1.toUInt32 <<< 16) ||| (b2.toUInt32 <<< 8) ||| b3.toUInt32) :: acc)
  | _, _, acc => acc

/-- The second loop: `schedule[index]` from entries 2, 7, 15 and 16 places back. The list is
newest first, so these are positions 1, 6, 14 and 15. -/
def extendSchedule : Nat → List UInt32 → List UInt32
  | 0, w => w
  | n + 1, w =>
    extendSchedule n
      ((smallSigma1 (w.getD 1 0) + w.getD 6 0 + smallSigma0 (w.getD 14 0) + w.getD 15 0) :: w)

def schedule (block : Bytes) : List UInt32 := (extendSchedule 48 (loadWords 16 block [])).reverse

def round (s : Words) (k w : UInt32) : Words :=
  let temp1 := s.h + bigSigma1 s.e + choose s.e s.f s.g + k + w
  let temp2 := bigSigma0 s.a + majority s.a s.b s.c
  ⟨temp1 + temp2, s.a, s.b, s.c, s.d + temp1, s.e, s.f, s.g⟩

def rounds : Words → List UInt32 → List UInt32 → Words
  | s, k :: ks, w :: ws => rounds (round s k w) ks ws
  | s, _, _ => s

/-- `Sha256::Compress` (`hash.cpp:62`). -/
def compress (s : Words) (block : Bytes) : Words :=
  let r := rounds s kRoundConstants (schedule block)
  ⟨s.a + r.a, s.b + r.b, s.c + r.c, s.d + r.d, s.e + r.e, s.f + r.f, s.g + r.g, s.h + r.h⟩

end Sha256

/-- `class Sha256`: chaining words, `bit_length_` and the buffered bytes. -/
structure Sha256 where
  state : Sha256.Words
  bitLength : UInt64
  buffer : Bytes

namespace Sha256

def init : Sha256 := ⟨initialWords, 0, []⟩

/-- `while (size >= 64) Compress(bytes)`; the first argument bounds the iterations. -/
def absorbBlocks : Nat → Words → Bytes → Words × Bytes
  | 0, s, bytes => (s, bytes)
  | n + 1, s, bytes =>
    if 64 ≤ bytes.length then absorbBlocks n (compress s (bytes.take 64)) (bytes.drop 64)
    else (s, bytes)

/-- The part of `Update` after the buffer has been dealt with. -/
def absorb (h : Sha256) (bytes : Bytes) : Sha256 :=
  let r := absorbBlocks bytes.length h.state bytes
  { h with state := r.1, buffer := if 0 < r.2.length then r.2 else h.buffer }

/-- `Sha256::Update` (`hash.cpp:113`). -/
def update (h : Sha256) (data : Bytes) : Sha256 :=
  if data.length = 0 then h
  else
    let h := { h with bitLength := h.bitLength + UInt64.ofNat data.length * 8 }
    if 0 < h.buffer.length then
      let need := 64 - h.buffer.length
      let take := if data.length < need then data.length else need
      let filled := h.buffer ++ data.take take
      let h := if filled.length = 64 then { h with state := compress h.state filled, buffer := [] }
        else { h with buffer := filled }
      if take = data.length then h else absorb h (data.drop take)
    else absorb h data

/-- `while (buffered_ != 56) Update(&zero, 1)`; at most 64 rounds are ever needed. -/
def padZeros : Nat → Sha256 → Sha256
  | 0, h => h
  | n + 1, h => if h.buffer.length = 56 then h else padZeros n (update h [0])

def lengthBytes (totalBits : UInt64) : Bytes := (leBytes 8 totalBits.toNat).reverse

def wordBytes (w : UInt32) : Bytes := (leBytes 4 w.toNat).reverse

/-- `Sha256::Final` (`hash.cpp:160`). -/
def final (h : Sha256) : Digest :=
  let padded := padZeros 64 (update h [0x80])
  let s := (update padded (lengthBytes h.bitLength)).state
  FixedBytes.ofBytes 32 ([s.a, s.b, s.c, s.d, s.e, s.f, s.g, s.h].flatMap wordBytes)

end Sha256

/-- `Sha256Of` (`hash.cpp:184`). -/
def sha256Of (bytes : Bytes) : Digest := (Sha256.init.update bytes).final

def hexDigit (n : Nat) : UInt8 :=
  if n < 10 then UInt8.ofNat (0x30 + n) else UInt8.ofNat (0x61 + (n - 10))

/-- `ToHex` (`hash.cpp:194`). -/
def toHex (bytes : Bytes) : Bytes :=
  bytes.flatMap fun b => [hexDigit (b.toNat / 16), hexDigit (b.toNat % 16)]

end FabricReconciliation
