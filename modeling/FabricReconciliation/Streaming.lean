import FabricReconciliation.Hash
import FabricReconciliation.Lib.Blocks

/-!
# The streaming hasher (`hash.cpp:53-169`)

`Update` fills the buffer, compresses whole blocks straight from its input and keeps the rest; `Final` pads
through `Update` itself. However a message is split, the hasher has compressed its whole blocks and holds
what is left of it.

* **`update_eq`** — one `Update`, whatever the buffer holds;
* **`padZeros_eq`** — the padding loop stops after less than a block of zeros;
* **`streaming`** — chunks hash to the FIPS 180-4 digest of their concatenation.
-/

namespace FabricReconciliation

open Lib

namespace Sha256

/-! ## The standard -/

/-- The padding of FIPS 180-4: a one bit, zeros up to 56 bytes, and the length in bits as a 64-bit word. -/
def padding (length : Nat) : Bytes :=
  0x80 :: (List.replicate ((119 - length % 64) % 64) 0 ++ (leBytes 8 (8 * length)).reverse)

/-- The digest of FIPS 180-4: the compression function folded over the blocks of the padded message. -/
def fipsDigest (message : Bytes) : Digest :=
  let s := (blocks 64 (message ++ padding message.length)).foldl compress initialWords
  FixedBytes.ofBytes 32 ([s.a, s.b, s.c, s.d, s.e, s.f, s.g, s.h].flatMap wordBytes)

/-! ## One `Update` -/

theorem absorbBlocks_eq {rounds : Nat} {s : Words} {bytes : Bytes} (hrounds : bytes.length ≤ rounds) :
    absorbBlocks rounds s bytes = ((blocks 64 bytes).foldl compress s, remainder 64 bytes) := by
  induction rounds generalizing s bytes with
  | zero =>
    have hnil : bytes = [] := List.eq_nil_of_length_eq_zero (by omega)
    rw [hnil]
    rfl
  | succ rounds ih =>
    unfold absorbBlocks
    by_cases hlong : 64 ≤ bytes.length
    · have hfront : (bytes.take 64).length = 64 := List.length_take_of_le hlong
      have hrest := @ih (compress s (bytes.take 64)) (bytes.drop 64) (by rw [List.length_drop]; omega)
      rw [if_pos hlong, hrest]
      conv_rhs => rw [← List.take_append_drop 64 bytes]
      rw [blocks_cons (by decide) hfront, remainder_cons (by decide) hfront, List.foldl_cons]
    · have hshort : bytes.length < 64 := not_le.mp hlong
      rw [if_neg hlong, blocks_short hshort, remainder_short hshort]
      rfl

theorem absorb_eq (state : Words) (bitLength : UInt64) (bytes : Bytes) : absorb ⟨state, bitLength, []⟩ bytes =
    ⟨(blocks 64 bytes).foldl compress state, bitLength, remainder 64 bytes⟩ := by
  unfold absorb
  rw [absorbBlocks_eq (le_refl _)]
  by_cases hrest : 0 < (remainder 64 bytes).length
  · simp only [if_pos hrest]
  · have hnil : remainder 64 bytes = [] := List.eq_nil_of_length_eq_zero (by omega)
    simp [hnil]

/-- **`update_eq`**: the whole blocks of the buffer and the input are compressed, the rest is buffered. -/
theorem update_eq {h : Sha256} (hfill : h.buffer.length < 64) (data : Bytes) : h.update data =
    { state := (blocks 64 (h.buffer ++ data)).foldl compress h.state
      bitLength := h.bitLength + UInt64.ofNat data.length * 8
      buffer := remainder 64 (h.buffer ++ data) } := by
  unfold update
  by_cases hnone : data.length = 0
  · have hnil : data = [] := List.eq_nil_of_length_eq_zero hnone
    rw [if_pos hnone, hnil, List.append_nil, blocks_short hfill, remainder_short hfill]
    simp
  rw [if_neg hnone]
  by_cases hbuffered : 0 < h.buffer.length
  · rw [if_pos hbuffered]
    by_cases hsmall : data.length < 64 - h.buffer.length
    · -- everything goes into the buffer
      have hshort : (h.buffer ++ data).length < 64 := by
        rw [List.length_append]
        omega
      have hnot : ¬ (h.buffer ++ data).length = 64 := by omega
      simp only [if_pos hsmall, List.take_length, if_neg hnot, if_true, blocks_short hshort, remainder_short hshort]
      rfl
    · -- the buffer is completed first
      have htake : (data.take (64 - h.buffer.length)).length = 64 - h.buffer.length :=
        List.length_take_of_le (not_lt.mp hsmall)
      have hfilled : (h.buffer ++ data.take (64 - h.buffer.length)).length = 64 := by
        rw [List.length_append, htake]
        omega
      have hsplit : h.buffer ++ data =
          (h.buffer ++ data.take (64 - h.buffer.length)) ++ data.drop (64 - h.buffer.length) := by
        rw [List.append_assoc, List.take_append_drop]
      simp only [if_neg hsmall, if_pos hfilled]
      rw [hsplit, blocks_cons (by decide) hfilled, remainder_cons (by decide) hfilled, List.foldl_cons]
      by_cases hall : 64 - h.buffer.length = data.length
      · have hnil : data.drop (64 - h.buffer.length) = [] := by rw [hall, List.drop_length]
        rw [if_pos hall, hnil]
        rfl
      · rw [if_neg hall, absorb_eq]
  · have hempty : h.buffer = [] := List.eq_nil_of_length_eq_zero (by omega)
    rw [if_neg hbuffered, hempty, absorb_eq, List.nil_append]

theorem length_update {h : Sha256} (hfill : h.buffer.length < 64) (data : Bytes) :
    (h.update data).buffer.length = (h.buffer.length + data.length) % 64 := by
  rw [update_eq hfill, length_remainder, List.length_append]

/-! ## Messages in chunks -/

/-- What a hasher has taken in. -/
structure Absorbed (h : Sha256) (message : Bytes) : Prop where
  state : h.state = (blocks 64 message).foldl compress initialWords
  bitLength : h.bitLength = UInt64.ofNat message.length * 8
  buffer : h.buffer = remainder 64 message

theorem Absorbed.fill {h : Sha256} {message : Bytes} (hm : h.Absorbed message) :
    h.buffer.length = message.length % 64 := by
  rw [hm.buffer, length_remainder]

theorem absorbed_init : init.Absorbed [] := ⟨rfl, rfl, rfl⟩

theorem Absorbed.update {h : Sha256} {message : Bytes} (hm : h.Absorbed message) (data : Bytes) :
    (h.update data).Absorbed (message ++ data) := by
  have hfill : h.buffer.length < 64 := hm.fill ▸ Nat.mod_lt _ (by decide)
  obtain ⟨hblocks, hremainder⟩ := blocks_stream (n := 64) (by decide) message data
  rw [update_eq hfill]
  constructor
  · rw [hblocks, List.foldl_append, hm.state, hm.buffer]
  · rw [hm.bitLength, List.length_append, UInt64.ofNat_add, UInt64.add_mul]
  · rw [hremainder, hm.buffer]

theorem Absorbed.foldl {h : Sha256} {message : Bytes} (hm : h.Absorbed message) (chunks : List Bytes) :
    (chunks.foldl Sha256.update h).Absorbed (message ++ chunks.flatten) := by
  induction chunks generalizing h message with
  | nil =>
    rw [List.flatten_nil, List.append_nil]
    exact hm
  | cons chunk rest ih =>
    rw [List.flatten_cons, ← List.append_assoc]
    exact ih (hm.update chunk)

/-! ## The padding -/

/-- One round of the padding loop. -/
def padZero (h : Sha256) : Sha256 := h.update [0]

theorem length_padZero {h : Sha256} (hfill : h.buffer.length < 64) (rounds : Nat) :
    (padZero^[rounds] h).buffer.length = (h.buffer.length + rounds) % 64 := by
  induction rounds with
  | zero => exact (Nat.mod_eq_of_lt hfill).symm
  | succ rounds ih =>
    have hbound : (padZero^[rounds] h).buffer.length < 64 := ih ▸ Nat.mod_lt _ (by decide)
    rw [Function.iterate_succ_apply', padZero, length_update hbound, ih]
    simp only [List.length_singleton]
    omega

/-- **`padZeros_eq`**: the loop ends as soon as 56 bytes are buffered, and its bound is never reached. -/
theorem padZeros_eq {h : Sha256} (hfill : h.buffer.length < 64) {bound : Nat}
    (hbound : (120 - h.buffer.length) % 64 ≤ bound) :
    padZeros bound h = padZero^[(120 - h.buffer.length) % 64] h := by
  induction bound generalizing h with
  | zero =>
    rw [Nat.le_zero.mp hbound]
    rfl
  | succ bound ih =>
    unfold padZeros
    by_cases hdone : h.buffer.length = 56
    · rw [if_pos hdone, hdone]
      rfl
    · have hnext : (h.update [0]).buffer.length = (h.buffer.length + 1) % 64 := length_update hfill [0]
      have hless : (120 - h.buffer.length) % 64 = (120 - (h.update [0]).buffer.length) % 64 + 1 := by
        rw [hnext]
        omega
      rw [if_neg hdone, ih (by rw [hnext]; omega) (by omega), hless, Function.iterate_succ_apply]
      rfl

theorem Absorbed.padZeros {h : Sha256} {message : Bytes} (hm : h.Absorbed message) (rounds : Nat) :
    (padZero^[rounds] h).Absorbed (message ++ List.replicate rounds 0) := by
  induction rounds with
  | zero =>
    rw [List.replicate_zero, List.append_nil]
    exact hm
  | succ rounds ih =>
    rw [Function.iterate_succ_apply', List.replicate_succ', ← List.append_assoc]
    exact ih.update [0]

/-- `Final` of a hasher is the digest of what it has taken in. -/
theorem Absorbed.final {h : Sha256} {message : Bytes} (hm : h.Absorbed message) (hlength : message.length < 2 ^ 61) :
    h.final = fipsDigest message := by
  have hmarked := hm.update [0x80]
  have hfill : (h.update [0x80]).buffer.length < 64 := hmarked.fill ▸ Nat.mod_lt _ (by decide)
  have hzeros : (120 - (h.update [0x80]).buffer.length) % 64 = (119 - message.length % 64) % 64 := by
    rw [hmarked.fill, List.length_append, List.length_singleton]
    omega
  have hbits : h.bitLength.toNat = 8 * message.length := by
    have hword : message.length < 2 ^ 64 := by omega
    rw [hm.bitLength, UInt64.toNat_mul, UInt64.toNat_ofNat_of_lt' hword]
    simp only [UInt64.reduceToNat]
    omega
  have hpadded := (hmarked.padZeros ((119 - message.length % 64) % 64)).update (lengthBytes h.bitLength)
  have hmessage : message ++ [0x80] ++ List.replicate ((119 - message.length % 64) % 64) 0 ++ lengthBytes h.bitLength =
      message ++ padding message.length := by
    rw [lengthBytes, hbits, padding]
    simp only [List.append_assoc, List.cons_append, List.nil_append]
  rw [hmessage] at hpadded
  unfold Sha256.final fipsDigest
  simp only [padZeros_eq hfill (by omega : (120 - (h.update [0x80]).buffer.length) % 64 ≤ 64), hzeros, hpadded.state]

/-- **`streaming`**: the digest of chunks is that of their concatenation, and the padding loop ends whatever
the buffer holds. -/
theorem streaming (chunks : List Bytes) :
    (chunks.flatten.length < 2 ^ 61 → (chunks.foldl update init).final = fipsDigest chunks.flatten) ∧
    ∀ h : Sha256, h.buffer.length < 64 → ∃ rounds < 64, padZeros 64 h = padZero^[rounds] h ∧
      (padZero^[rounds] h).buffer.length = 56 ∧ ∀ i < rounds, (padZero^[i] h).buffer.length ≠ 56 := by
  refine ⟨fun hlength => ?_, fun h hfill => ?_⟩
  · have hall := absorbed_init.foldl chunks
    rw [List.nil_append] at hall
    exact hall.final hlength
  · have hless : (120 - h.buffer.length) % 64 < 64 := Nat.mod_lt _ (by decide)
    refine ⟨(120 - h.buffer.length) % 64, hless, padZeros_eq hfill (le_of_lt hless), ?_, fun i hi => ?_⟩
    · rw [length_padZero hfill]
      omega
    · rw [length_padZero hfill]
      omega

theorem streaming_abc : ([[0x61], [], [0x62, 0x63]].foldl update init).final = fipsDigest [0x61, 0x62, 0x63] :=
  (streaming [[0x61], [], [0x62, 0x63]]).1 (by decide)

example : (fipsDigest [0x61, 0x62, 0x63]).bytes.take 8 = [0xba, 0x78, 0x16, 0xbf, 0x8f, 0x01, 0xcf, 0xea] := by
  decide +kernel

end Sha256

end FabricReconciliation
