import FabricReconciliation.Vocabulary

/-!
# Canonical encoding (`canonical.hpp`, `canonical.cpp`)

`CanonicalWriter` and `CanonicalReader` on top of the codec library: a writer is the script of
its `Put` calls, performed under the ceiling `kMaxCanonicalBytes`; a reader is a function of the
remaining bytes. The typed `Put`/`Read` pairs and their round trips are stated once here.
-/

namespace FabricReconciliation

open Lib

/-- `kMaxCanonicalBytes`: 64 MiB. -/
abbrev kMaxCanonicalBytes : Nat := 67108864

/-- `kCanonicalSchemaVersion`. -/
abbrev kCanonicalSchemaVersion : Nat := 1

/-- `CanonicalWriter::Digest`: the hash of the buffer, failed writer or not. -/
def digestOf (sc : Script) : Digest := sha256Of (fill kMaxCanonicalBytes sc).1

/-- `writer.ok() ? writer.buffer() : ""`, the way every encoder ends. -/
def encoded (sc : Script) : Bytes := finish kMaxCanonicalBytes sc

theorem length_encoded_le (sc : Script) : (encoded sc).length ≤ kMaxCanonicalBytes := by
  unfold encoded finish
  split
  · exact fill_length_le _ _
  · simp

/-! ## Typed writes -/

def putU16 (v : Nat) : Script := putLE 2 v
def putU64 (v : UInt64) : Script := putLE 8 v.toNat
def putI64 (v : Int64) : Script := putLE 8 v.toUInt64.toNat
def putBool (b : Bool) : Script := putByte (if b then 1 else 0)
def putDigest {n : Nat} (d : FixedBytes n) : Script := putRaw d.bytes

/-- A container size, `size() & 0xffffffff`. -/
def putCount (n : Nat) : Script := putLE 4 (n % 4294967296)

/-- `PutU8(static_cast<std::uint8_t>(value))` of an enumerator. -/
def putEnum {α : Type} [DecidableEq α] [Enumeration α] (a : α) : Script := putLE 1 (Enumeration.raw a)

def putReason (r : ReasonCode) : Script := putU16 r.raw.val

/-- A 16-byte incarnation identity, written as length-prefixed bytes. -/
def putBoot (b : BootId) : Script := putBytes b.bytes

/-! ## Typed reads -/

namespace Read

def u8 : Reader Nat := Reader.le 1
def u16 : Reader Nat := Reader.le 2
def u32 : Reader Nat := Reader.le 4
def u64 : Reader UInt64 := do return UInt64.ofNat (← Reader.le 8)
def i64 : Reader Int64 := do return (UInt64.ofNat (← Reader.le 8)).toInt64
/-- `ReadBool`: any non-zero byte is true. -/
def bool : Reader Bool := do return (← Reader.byte) != 0
def bytes : Reader Bytes := Reader.bytes kMaxCanonicalBytes

/-- A fixed number of raw bytes (`ReadDigest`). -/
def fixed (n : Nat) : Reader (FixedBytes n) := do return FixedBytes.ofBytes n (← Reader.raw n)

def digest : Reader Digest := fixed 32

/-- Length-prefixed bytes that must be exactly 16 long. -/
def boot : Reader BootId := do
  let text ← bytes
  Reader.require (text.length == 16)
  return FixedBytes.ofBytes 16 text

/-- A raw value checked against the enumeration's range. -/
def enum (α : Type) [DecidableEq α] [Enumeration α] : Reader α := do
  let raw ← u8
  Reader.ofOption (Enumeration.ofRaw raw)

def reason : Reader ReasonCode := do
  let raw ← u16
  Reader.ofOption (ReasonCode.ofRaw raw)

end Read

/-! ## Round trips of the typed operations -/

section RoundTrip

variable {α : Type} {o : Option α}

@[simp] theorem total_putU16 (v : Nat) : (putU16 v).Total := total_putLE 2 v
@[simp] theorem total_putU64 (v : UInt64) : (putU64 v).Total := total_putLE 8 _
@[simp] theorem total_putI64 (v : Int64) : (putI64 v).Total := total_putLE 8 _
@[simp] theorem total_putBool (b : Bool) : (putBool b).Total := total_putByte _
@[simp] theorem total_putDigest {n : Nat} (d : FixedBytes n) : (putDigest d).Total := total_putRaw _
@[simp] theorem total_putCount (n : Nat) : (putCount n).Total := total_putLE 4 _
@[simp] theorem total_putReason (r : ReasonCode) : (putReason r).Total := total_putU16 _

@[simp] theorem total_putEnum [DecidableEq α] [Enumeration α] (a : α) : (putEnum a).Total :=
  total_putLE 1 _

@[simp] theorem total_putBoot (b : BootId) : (putBoot b).Total := by
  simp [putBoot, total_putBytes, b.length_eq]

@[simp] theorem total_putId {tag : IdTag} (id : StringId tag) : (putBytes id.text).Total := by
  have := id.text_length
  rw [total_putBytes]
  omega

theorem reads_u16 {v : Nat} (h : v < 65536) : Reads Read.u16 (putU16 v).image (some v) := by
  rw [putU16, image_putLE]
  exact Reads.le (by omega)

theorem reads_u64 (v : UInt64) : Reads Read.u64 (putU64 v).image (some v) := by
  rw [putU64, image_putLE]
  have hv : UInt64.ofNat v.toNat = v := UInt64.ofNat_toNat
  have h := Reads.bind_end (f := fun n => Reader.pure (UInt64.ofNat n))
    (Reads.le (n := 8) (v := v.toNat) (by have := v.toNat_lt; omega)) (Reads.pure _)
  rw [hv] at h
  exact h

theorem reads_i64 (v : Int64) : Reads Read.i64 (putI64 v).image (some v) := by
  rw [putI64, image_putLE]
  have hv : (UInt64.ofNat v.toUInt64.toNat).toInt64 = v := by
    rw [UInt64.ofNat_toNat]
    rfl
  have h := Reads.bind_end (f := fun n => Reader.pure (UInt64.ofNat n).toInt64)
    (Reads.le (n := 8) (v := v.toUInt64.toNat) (by have := v.toUInt64.toNat_lt; omega)) (Reads.pure _)
  rw [hv] at h
  exact h

theorem reads_bool (b : Bool) : Reads Read.bool (putBool b).image (some b) := by
  have h := Reads.bind_end (f := fun x : UInt8 => Reader.pure (x != 0))
    (Reads.byte (if b then 1 else 0)) (Reads.pure _)
  have hb : ((if b then (1 : UInt8) else 0) != 0) = b := by cases b <;> decide
  rw [hb] at h
  exact h

theorem reads_bytes {bs : Bytes} (h : bs.length ≤ kMaxCanonicalBytes) :
    Reads Read.bytes (putBytes bs).image (some bs) := by
  have h32 : bs.length < 2 ^ 32 := by
    unfold kMaxCanonicalBytes at h
    omega
  rw [image_putBytes h32]
  exact Reads.bytes h32 h

theorem reads_text {tag : IdTag} (id : StringId tag) :
    Reads Read.bytes (putBytes id.text).image (some id.text) :=
  reads_bytes (by have := id.text_length; unfold kMaxCanonicalBytes; omega)

theorem reads_fixed {n : Nat} (d : FixedBytes n) : Reads (Read.fixed n) (putDigest d).image (some d) := by
  have h := Reads.bind_end (f := fun bs => Reader.pure (FixedBytes.ofBytes n bs))
    (Reads.raw d.bytes) (Reads.pure _)
  rw [d.length_eq, FixedBytes.ofBytes_bytes] at h
  rw [putDigest, image_putRaw]
  exact h

theorem reads_digest (d : Digest) : Reads Read.digest (putDigest d).image (some d) := reads_fixed d

theorem reads_boot (b : BootId) : Reads Read.boot (putBoot b).image (some b) := by
  refine Reads.bind_end (reads_bytes (by rw [b.length_eq]; decide)) ?_
  refine Reads.require (by simp [b.length_eq]) ?_
  rw [FixedBytes.ofBytes_bytes]
  exact Reads.pure b

theorem reads_count {n : Nat} (h : n < 4294967296) : Reads Read.u32 (putCount n).image (some n) := by
  rw [putCount, image_putLE, Nat.mod_eq_of_lt h]
  exact Reads.le (by omega)

theorem reads_enum [DecidableEq α] [Enumeration α] (a : α)
    (h : (Enumeration.table (α := α)).length ≤ 256) : Reads (Read.enum α) (putEnum a).image (some a) := by
  rw [putEnum, image_putLE]
  have hlt := Enumeration.raw_lt a
  refine Reads.bind_end (Reads.le (by omega)) ?_
  rw [Enumeration.ofRaw_raw]
  exact Reads.pure a

theorem reads_reason (r : ReasonCode) : Reads Read.reason (putReason r).image (some r) := by
  have hlt := r.raw.isLt
  refine Reads.bind_end (reads_u16 (by omega)) ?_
  rw [ReasonCode.ofRaw_raw]
  exact Reads.pure r

/-- A validated identity text parses back to its identity. -/
theorem reads_tryParse {tag : IdTag} {id : StringId tag} {f : StringId tag → Reader α} {cs : Bytes}
    (hid : id.empty = false) (h : Reads (f id) cs o) :
    Reads (Reader.bind (Reader.ofOption (StringId.tryParse id.text)) f) cs o :=
  Reads.ofOption (StringId.tryParse_text hid) h

theorem reads_parseOrEmpty {tag : IdTag} {id : StringId tag} {f : StringId tag → Reader α} {cs : Bytes}
    (h : Reads (f id) cs o) :
    Reads (Reader.bind (Reader.ofOption (StringId.parseOrEmpty id.text)) f) cs o :=
  Reads.ofOption (StringId.parseOrEmpty_text id) h

end RoundTrip

/-- An encoder's result, when there is one, is the whole image and fits the ceiling. -/
theorem encoded_ne_nil {sc : Script} (h : encoded sc ≠ []) :
    sc.Total ∧ sc.image.length ≤ kMaxCanonicalBytes ∧ encoded sc = sc.image := finish_ne_nil h

theorem digestOf_eq {sc : Script} (ht : sc.Total) (hl : sc.image.length ≤ kMaxCanonicalBytes) :
    digestOf sc = sha256Of sc.image := by rw [digestOf, fill_eq ht hl]

end FabricReconciliation
