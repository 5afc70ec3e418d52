import FabricReconciliation.Journal
import FabricReconciliation.Lib.Checked

/-!
# Snapshots (`snapshot.hpp`, `snapshot.cpp`, `store.cpp:632-873`)

A snapshot file is a 112-byte header with a digest over header and payload, and the payload: the
whole durable state in canonical encoding.

* **`readSnapshot_image`** — a published image is read back when its size is within the limit;
* **`applySnapshotPayload_encoded`** — the reader restores exactly the encoded state if the tables
  are within the reader's bounds (`SnapshotBounds`), and refuses the payload otherwise.
-/

namespace FabricReconciliation

open Lib

/-! ## The file -/

abbrev kSnapshotHeaderBytes : Nat := 112
abbrev kSnapshotFormatVersion : Nat := 1

/-- `kSnapshotMagic`: the text `FABRSNAP`. -/
def kSnapshotMagic : Bytes := [0x46, 0x41, 0x42, 0x52, 0x53, 0x4e, 0x41, 0x50]

/-- `SnapshotHeader`. -/
structure SnapshotHeader where
  formatVersion : Nat
  headerBytes : Nat
  store : StoreId
  watermark : RecordSequence
  epoch : CoordinatorEpoch
  createdUnixMs : UnixMillis
  payloadLen : Nat
deriving DecidableEq

/-- The first 80 bytes of a snapshot, everything in front of its digest. -/
def snapshotPrefix (header : SnapshotHeader) (payload : Bytes) : Bytes :=
  kSnapshotMagic ++ (leBytes 4 header.formatVersion ++ (leBytes 4 header.headerBytes ++ (header.store.bytes ++
  (leBytes 8 header.watermark.toNat ++ (leBytes 8 header.epoch.toNat ++
  (leBytes 8 header.createdUnixMs.toUInt64.toNat ++ (leBytes 8 payload.length ++ List.replicate 16 0)))))))

/-- `BuildSnapshotImage` (`snapshot.cpp:79`). -/
def buildSnapshotImage (header : SnapshotHeader) (payload : Bytes) : Bytes :=
  let front := snapshotPrefix header payload
  front ++ ((recordDigest front payload).bytes ++ payload)

/-- `ParseSnapshotImage` (`snapshot.cpp:100`). -/
def parseSnapshotImage (image : Bytes) : Option (SnapshotHeader × Bytes) :=
  if image.length < kSnapshotHeaderBytes then none
  else if slice 0 8 image ≠ kSnapshotMagic then none
  else if load 4 8 image ≠ kSnapshotFormatVersion then none
  else if load 4 12 image ≠ kSnapshotHeaderBytes then none
  else if slice 64 16 image ≠ List.replicate 16 0 then none
  else if image.length - kSnapshotHeaderBytes ≠ load 8 56 image then none
  else if slice 80 32 image ≠
      (recordDigest (slice 0 80 image) (slice kSnapshotHeaderBytes (load 8 56 image) image)).bytes then none
  else some ({
    formatVersion := load 4 8 image
    headerBytes := load 4 12 image
    store := FixedBytes.ofBytes 16 (slice 16 16 image)
    watermark := UInt64.ofNat (load 8 32 image)
    epoch := UInt64.ofNat (load 8 40 image)
    createdUnixMs := (UInt64.ofNat (load 8 48 image)).toInt64
    payloadLen := load 8 56 image }, slice kSnapshotHeaderBytes (load 8 56 image) image)

/-- The largest snapshot file the reader accepts; the sum wraps like `std::size_t`. -/
def maxSnapshotBytes (limits : RuntimeLimits) : Nat := (limits.maxJournalBytes + 112).toNat

/-- `ReadSnapshot` (`snapshot.cpp:178`). -/
def readSnapshot (limits : RuntimeLimits) : Option Bytes → Except Status (SnapshotHeader × Bytes)
  | none => .error ⟨.notFound, .none, "snapshot does not exist"⟩
  | some content =>
    if maxSnapshotBytes limits < content.length then
      .error ⟨.limitExceeded, .snapshotDigestMismatch, "snapshot exceeds the configured maximum size"⟩
    else match parseSnapshotImage content with
      | none => .error (integrityFailure .snapshotDigestMismatch "snapshot failed validation")
      | some parsed => .ok parsed

/-! ## The payload -/

/-- The fields in front of the tables. -/
def snapshotHead (s : DurableState) : Script :=
  putU16 kCanonicalSchemaVersion ++ (putU64 s.lastEpoch ++ (putU64 s.nextAttempt ++ putBool s.hasPolicy))

/-- The writes of `EncodeSnapshotPayload` (`store.cpp:632`). -/
def snapshotScript (s : DurableState) : Script :=
  snapshotHead s ++ ((if s.hasPolicy then putBytes (encodePolicy s.policy) else []) ++
  (putCount s.intentGenerations.size ++ (putEach (fun e => putBytes e.1.text ++ (putCount e.2.length ++
    putEach putU64 e.2)) s.intentGenerations.entries ++
  (putCount s.intents.size ++ (putEach (fun e => putBytes (encodeIntent e.2)) s.intents.entries ++
  (putCount s.observations.size ++ (putEach (fun e => putBytes e.1.text ++ (putCount e.2.length ++
    putEach (fun d => putBytes (encodeObservation d)) e.2)) s.observations.entries ++
  (putCount s.attempts.size ++ (putEach (fun e => putBytes (encodeAttempt e.2)) s.attempts.entries ++
  (putCount s.outcomes.length ++ (putEach (fun o => putBytes (encodeOutcome o)) s.outcomes ++
  (putCount s.fences.size ++ (putEach (fun e => putBytes (encodeFence e.2)) s.fences.entries ++
  putU64 s.compactions)))))))))))))

/-- `EncodeSnapshotPayload`; empty when the writer failed. -/
def encodeSnapshotPayload (s : DurableState) : Bytes := encoded (snapshotScript s)

/-- Every refusal of the snapshot payload. -/
def snapshotInvalid (detail : String) : Status := integrityFailure .snapshotDigestMismatch detail

/-- A table size checked against its bound. -/
def readTableSize (bound : Nat) (detail : String) : Checked Status Nat :=
  Checked.expect (snapshotInvalid detail) do
    let n ← Read.u32
    Reader.require (decide (n ≤ bound))
    return n

/-- A nested encoding: length-prefixed bytes that must decode as a whole. -/
def readNested {α : Type} (what : String) (decode : Bytes → Option α) : Checked Status α := do
  let bytes ← Checked.expect (snapshotInvalid (what ++ " is truncated")) Read.bytes
  Checked.expect (snapshotInvalid (what ++ " failed validation")) (Reader.ofOption (decode bytes))

/-- The scope and the list length that open a generation or observation entry. -/
def readScopeEntry (bound : Nat) (detail : String) : Checked Status (ScopeId × Nat) := do
  let (text, count) ← Checked.expect (snapshotInvalid detail) do
    let text ← Read.bytes
    let count ← Read.u32
    Reader.require (decide (count ≤ bound))
    return (text, count)
  let scope ← Checked.expect (snapshotInvalid "snapshot carries an invalid scope identity")
    (Reader.ofOption (StringId.tryParse text))
  return (scope, count)

def readGenerationEntry (limits : RuntimeLimits) : Checked Status (ScopeId × List IntentGeneration) := do
  let (scope, count) ← readScopeEntry limits.maxRetainedObservationsPerScope.toNat
    "snapshot generation entry is invalid"
  let generations ← Checked.list count
    (Checked.expect (snapshotInvalid "snapshot generation list is truncated") Read.u64)
  return (scope, generations)

def readIntentEntry (limits : RuntimeLimits) : Checked Status (ScopeId × IntentDocument) := do
  let d ← readNested "snapshot intent" fun bytes => decodeIntentExact bytes limits
  return (d.scope, d)

def readObservation (limits : RuntimeLimits) : Checked Status ObservationDocument := do
  let bytes ← Checked.expect (snapshotInvalid "snapshot observation list is truncated") Read.bytes
  Checked.expect (snapshotInvalid "snapshot observation failed validation")
    (Reader.ofOption (decodeObservationExact bytes limits))

def readObservationEntry (limits : RuntimeLimits) : Checked Status (ScopeId × List ObservationDocument) := do
  let (scope, count) ← readScopeEntry limits.maxRetainedObservationsPerScope.toNat
    "snapshot observation entry is invalid"
  let stream ← Checked.list count (readObservation limits)
  return (scope, stream)

def readAttemptEntry (limits : RuntimeLimits) : Checked Status (UInt64 × AttemptRecord) := do
  let a ← readNested "snapshot attempt" (decodeAttempt limits).exactly
  return (a.id, a)

def readFenceEntry : Checked Status (FenceId × FenceEntry) := do
  let f ← readNested "snapshot fence" decodeFence.exactly
  return (f.id, f)

/-- The policy of a snapshot, when there is one. -/
def readPolicy (limits : RuntimeLimits) (hasPolicy : Bool) : Checked Status ReconciliationPolicy :=
  if hasPolicy then readNested "snapshot policy" fun bytes => decodePolicyExact bytes limits
  else Checked.pure {}

/-- The reads of `ApplySnapshotPayload` (`store.cpp:687`), over a state that so far only carries
the store identity. -/
def snapshotReader (limits : RuntimeLimits) (s : DurableState) : Checked Status DurableState := do
  let (lastEpoch, nextAttempt, hasPolicy) ← Checked.expect (snapshotInvalid "snapshot payload header is invalid") do
    let schema ← Read.u16
    Reader.require (schema == kCanonicalSchemaVersion)
    let lastEpoch ← Read.u64
    let nextAttempt ← Read.u64
    let hasPolicy ← Read.bool
    return (lastEpoch, nextAttempt, hasPolicy)
  let policy ← readPolicy limits hasPolicy
  let generationScopes ← readTableSize limits.maxScopes.toNat "snapshot generation table is invalid"
  let generations ← Checked.table generationScopes (readGenerationEntry limits)
  let intentCount ← readTableSize limits.maxScopes.toNat "snapshot intent table is invalid"
  let intents ← Checked.table intentCount (readIntentEntry limits)
  let observationScopes ← readTableSize limits.maxScopes.toNat "snapshot observation table is invalid"
  let observations ← Checked.table observationScopes (readObservationEntry limits)
  let attemptCount ← readTableSize limits.maxRetainedAttempts.toNat "snapshot attempt table is invalid"
  let attempts ← Checked.table attemptCount (readAttemptEntry limits)
  let outcomeCount ← readTableSize limits.maxRetainedOutcomes.toNat "snapshot outcome table is invalid"
  let outcomes ← Checked.list outcomeCount (readNested "snapshot outcome" decodeOutcome.exactly)
  let fenceCount ← readTableSize (limits.maxScopes * 16).toNat "snapshot fence table is invalid"
  let fences ← Checked.table fenceCount readFenceEntry
  let compactions ← Checked.expect
    (snapshotInvalid "snapshot payload has trailing bytes or is truncated") Read.u64
  return { s with
    lastEpoch := lastEpoch
    nextAttempt := if nextAttempt = 0 then 1 else nextAttempt
    hasPolicy := hasPolicy, policy := policy
    intentGenerations := generations, intents := intents, observations := observations
    attempts := attempts, outcomes := outcomes, fences := fences, compactions := compactions }

/-- `ApplySnapshotPayload`. -/
def applySnapshotPayload (limits : RuntimeLimits) (payload : Bytes) (s : DurableState) :
    Except Status DurableState :=
  Checked.exactly (snapshotInvalid "snapshot payload has trailing bytes or is truncated")
    (snapshotReader limits s) payload

/-! ## Reading a published image -/

/-- The header `Compact` writes. -/
def snapshotHeaderOf (s : DurableState) (createdUnixMs : UnixMillis) (payload : Bytes) : SnapshotHeader :=
  ⟨kSnapshotFormatVersion, kSnapshotHeaderBytes, s.store, s.sequence, s.lastEpoch, createdUnixMs, payload.length⟩

@[simp] theorem length_snapshotPrefix (header : SnapshotHeader) (payload : Bytes) :
    (snapshotPrefix header payload).length = 80 := by
  simp [snapshotPrefix, kSnapshotMagic]

@[simp] theorem length_buildSnapshotImage (header : SnapshotHeader) (payload : Bytes) :
    (buildSnapshotImage header payload).length = 112 + payload.length := by
  simp [buildSnapshotImage]
  omega

theorem parse_buildSnapshotImage (s : DurableState) (created : UnixMillis) (payload : Bytes)
    (hlen : payload.length < 2 ^ 64) :
    parseSnapshotImage (buildSnapshotImage (snapshotHeaderOf s created payload) payload) =
      some (snapshotHeaderOf s created payload, payload) := by
  have hfront : slice 0 80 (buildSnapshotImage (snapshotHeaderOf s created payload) payload) =
      snapshotPrefix (snapshotHeaderOf s created payload) payload := slice_here (length_snapshotPrefix _ _)
  have hdigest : slice 80 32 (buildSnapshotImage (snapshotHeaderOf s created payload) payload) =
      (recordDigest (snapshotPrefix (snapshotHeaderOf s created payload) payload) payload).bytes := by
    rw [buildSnapshotImage, slice_skip (length_snapshotPrefix _ _) (le_refl 80)]
    exact slice_here (length_digest _)
  have hpayload : slice 112 payload.length (buildSnapshotImage (snapshotHeaderOf s created payload) payload) =
      payload := by
    rw [buildSnapshotImage, slice_skip (length_snapshotPrefix _ _) (by omega),
      slice_skip (length_digest _) (by omega), ← List.append_nil payload]
    simpa using slice_here (b := []) (rfl : payload.length = payload.length)
  -- every field lies inside the first 80 bytes
  have hslice : ∀ n offset, offset + n ≤ 80 →
      slice offset n (buildSnapshotImage (snapshotHeaderOf s created payload) payload) =
        slice offset n (snapshotPrefix (snapshotHeaderOf s created payload) payload) := by
    intro n offset h
    rw [buildSnapshotImage, slice_append (by simp; omega)]
  have hload : ∀ n offset, offset + n ≤ 80 →
      load n offset (buildSnapshotImage (snapshotHeaderOf s created payload) payload) =
        load n offset (snapshotPrefix (snapshotHeaderOf s created payload) payload) := by
    intro n offset h
    rw [load, load, hslice n offset h]
  have hmagic : slice 0 8 (snapshotPrefix (snapshotHeaderOf s created payload) payload) = kSnapshotMagic :=
    slice_here rfl
  have hversion : load 4 8 (snapshotPrefix (snapshotHeaderOf s created payload) payload) = 1 := by
    rw [snapshotPrefix, load_skip (k := 8) rfl (by omega)]
    exact load_here (by simp [snapshotHeaderOf, kSnapshotFormatVersion, kSnapshotHeaderBytes])
  have hbytes : load 4 12 (snapshotPrefix (snapshotHeaderOf s created payload) payload) = 112 := by
    rw [snapshotPrefix, load_skip (k := 8) rfl (by omega), load_skip (k := 4) (by simp) (by omega)]
    exact load_here (by simp [snapshotHeaderOf, kSnapshotFormatVersion, kSnapshotHeaderBytes])
  have hstore : slice 16 16 (snapshotPrefix (snapshotHeaderOf s created payload) payload) = s.store.bytes := by
    rw [snapshotPrefix, slice_skip (k := 8) rfl (by omega), slice_skip (k := 4) (by simp) (by omega),
      slice_skip (k := 4) (by simp) (by omega)]
    exact slice_here (length_storeId s.store)
  have hword : ∀ skip, 32 ≤ skip → skip + 8 ≤ 80 →
      load 8 skip (snapshotPrefix (snapshotHeaderOf s created payload) payload) =
        load 8 (skip - 32) (leBytes 8 s.sequence.toNat ++ (leBytes 8 s.lastEpoch.toNat ++
          (leBytes 8 created.toUInt64.toNat ++ (leBytes 8 payload.length ++ List.replicate 16 0)))) := by
    intro skip h1 h2
    rw [snapshotPrefix, load_skip (k := 8) rfl (by omega), load_skip (k := 4) (by simp) (by omega),
      load_skip (k := 4) (by simp) (by omega), load_skip (length_storeId _) (by omega),
      show skip - 8 - 4 - 4 - 16 = skip - 32 by omega]
    rfl
  have hwatermark : load 8 32 (snapshotPrefix (snapshotHeaderOf s created payload) payload) =
      s.sequence.toNat := by
    rw [hword 32 (by omega) (by omega), load_here (by have := s.sequence.toNat_lt; omega)]
  have hepoch : load 8 40 (snapshotPrefix (snapshotHeaderOf s created payload) payload) =
      s.lastEpoch.toNat := by
    rw [hword 40 (by omega) (by omega), load_skip (k := 8) (by simp) (by omega),
      load_here (by have := s.lastEpoch.toNat_lt; omega)]
  have hcreated : load 8 48 (snapshotPrefix (snapshotHeaderOf s created payload) payload) =
      created.toUInt64.toNat := by
    rw [hword 48 (by omega) (by omega), load_skip (k := 8) (by simp) (by omega),
      load_skip (k := 8) (by simp) (by omega), load_here (by have := created.toUInt64.toNat_lt; omega)]
  have hsize : load 8 56 (snapshotPrefix (snapshotHeaderOf s created payload) payload) = payload.length := by
    rw [hword 56 (by omega) (by omega), load_skip (k := 8) (by simp) (by omega),
      load_skip (k := 8) (by simp) (by omega), load_skip (k := 8) (by simp) (by omega),
      load_here (by omega)]
  have hzero : slice 64 16 (snapshotPrefix (snapshotHeaderOf s created payload) payload) =
      List.replicate 16 0 := by
    rw [snapshotPrefix, slice_skip (k := 8) rfl (by omega), slice_skip (k := 4) (by simp) (by omega),
      slice_skip (k := 4) (by simp) (by omega), slice_skip (length_storeId _) (by omega),
      slice_skip (k := 8) (by simp) (by omega), slice_skip (k := 8) (by simp) (by omega),
      slice_skip (k := 8) (by simp) (by omega), slice_skip (k := 8) (by simp) (by omega)]
    rfl
  unfold parseSnapshotImage
  rw [if_neg (by simp), hslice 8 0 (by omega), if_neg (by simp [hmagic]), hload 4 8 (by omega),
    if_neg (by simp [hversion]), hload 4 12 (by omega), if_neg (by simp [hbytes]),
    hslice 16 64 (by omega), if_neg (by simp [hzero]), hload 8 56 (by omega), hsize,
    if_neg (by simp), hfront, hdigest, hpayload, if_neg (by simp), hslice 16 16 (by omega),
    hload 8 32 (by omega), hload 8 40 (by omega), hload 8 48 (by omega), hversion, hbytes, hstore,
    hwatermark, hepoch, hcreated, FixedBytes.ofBytes_bytes, UInt64.ofNat_toNat, UInt64.ofNat_toNat,
    UInt64.ofNat_toNat]
  rfl

/-- **`readSnapshot_image`**. -/
theorem readSnapshot_image {limits : RuntimeLimits} (s : DurableState) (created : UnixMillis)
    {payload : Bytes} (hlen : payload.length < 2 ^ 64) :
    readSnapshot limits (some (buildSnapshotImage (snapshotHeaderOf s created payload) payload)) =
      if maxSnapshotBytes limits < 112 + payload.length then
        .error ⟨.limitExceeded, .snapshotDigestMismatch, "snapshot exceeds the configured maximum size"⟩
      else .ok (snapshotHeaderOf s created payload, payload) := by
  simp only [readSnapshot, length_buildSnapshotImage, parse_buildSnapshotImage s created payload hlen]

/-! ## Reading the payload back -/

/-- The bounds `ApplySnapshotPayload` puts on the tables. -/
structure SnapshotBounds (limits : RuntimeLimits) (s : DurableState) : Prop where
  generations : s.intentGenerations.size ≤ limits.maxScopes.toNat
  intents : s.intents.size ≤ limits.maxScopes.toNat
  observations : s.observations.size ≤ limits.maxScopes.toNat
  attempts : s.attempts.size ≤ limits.maxRetainedAttempts.toNat
  outcomes : s.outcomes.length ≤ limits.maxRetainedOutcomes.toNat
  fences : s.fences.size ≤ (limits.maxScopes * 16).toNat

/-- Every table entry has an encoding of its own within the canonical ceiling. -/
structure EntriesFit (s : DurableState) : Prop where
  policy : s.hasPolicy = true → encodePolicy s.policy ≠ []
  intents : ∀ e ∈ s.intents.entries, encodeIntent e.2 ≠ []
  observations : ∀ e ∈ s.observations.entries, ∀ d ∈ e.2, encodeObservation d ≠ []
  attempts : ∀ e ∈ s.attempts.entries, encodeAttempt e.2 ≠ []
  outcomes : ∀ o ∈ s.outcomes, encodeOutcome o ≠ []
  fences : ∀ e ∈ s.fences.entries, encodeFence e.2 ≠ []

theorem total_putEncoded (sc : Script) : (putBytes (encoded sc)).Total := by
  have := length_encoded_le sc
  rw [total_putBytes]
  simp only [kMaxCanonicalBytes] at this
  omega

theorem one_le_image_encoded (sc : Script) : 1 ≤ (putBytes (encoded sc)).image.length :=
  image_putBytes_pos _ (total_putEncoded sc)

theorem total_snapshotScript (s : DurableState) : (snapshotScript s).Total := by
  have hpolicy : (if s.hasPolicy then putBytes (encodePolicy s.policy) else []).Total := by
    split
    · exact total_putEncoded _
    · exact Script.total_nil
  simp only [snapshotScript, snapshotHead, Script.total_append, total_putU16, total_putU64, total_putBool, hpolicy,
    total_putCount, total_putEach, total_putId, true_and, and_true]
  exact ⟨fun e _ a _ => trivial, fun e _ => total_putEncoded _, fun e _ a _ => total_putEncoded _,
    fun e _ => total_putEncoded _, fun o _ => total_putEncoded _, fun e _ => total_putEncoded _⟩

/-- A state whose payload fits has tables of fewer than `2 ^ 32` entries. -/
structure CountsFit (s : DurableState) : Prop where
  generations : s.intentGenerations.size < 4294967296
  generationLists : ∀ e ∈ s.intentGenerations.entries, e.2.length < 4294967296
  intents : s.intents.size < 4294967296
  observations : s.observations.size < 4294967296
  streams : ∀ e ∈ s.observations.entries, e.2.length < 4294967296
  attempts : s.attempts.size < 4294967296
  outcomes : s.outcomes.length < 4294967296
  fences : s.fences.size < 4294967296

theorem countsFit_of_fits {s : DurableState}
    (hfit : (snapshotScript s).image.length ≤ kMaxCanonicalBytes) : CountsFit s := by
  have hgen : ∀ e : ScopeId × List IntentGeneration, e.2.length ≤ (putBytes e.1.text ++ (putCount e.2.length ++
      putEach putU64 e.2)).image.length ∧ 1 ≤ (putBytes e.1.text ++ (putCount e.2.length ++
      putEach putU64 e.2)).image.length := by
    intro e
    have h1 := image_putBytes_pos e.1.text (total_putId e.1)
    have h2 := length_le_image_putEach (f := putU64) (fun v => by simp [putU64]) e.2
    simp only [Script.image_append, List.length_append]
    omega
  have hobs : ∀ e : ScopeId × List ObservationDocument, e.2.length ≤ (putBytes e.1.text ++
      (putCount e.2.length ++ putEach (fun d => putBytes (encodeObservation d)) e.2)).image.length ∧
      1 ≤ (putBytes e.1.text ++ (putCount e.2.length ++
      putEach (fun d => putBytes (encodeObservation d)) e.2)).image.length := by
    intro e
    have h1 := image_putBytes_pos e.1.text (total_putId e.1)
    have h2 := length_le_image_putEach (f := fun d => putBytes (encodeObservation d))
      (fun d => one_le_image_encoded _) e.2
    simp only [Script.image_append, List.length_append]
    omega
  have h1 := length_le_image_putEach (fun e => (hgen e).2) s.intentGenerations.entries
  have h2 := length_le_image_putEach (f := fun e : ScopeId × IntentDocument => putBytes (encodeIntent e.2))
    (fun e => one_le_image_encoded _) s.intents.entries
  have h3 := length_le_image_putEach (fun e => (hobs e).2) s.observations.entries
  have h4 := length_le_image_putEach (f := fun e : UInt64 × AttemptRecord => putBytes (encodeAttempt e.2))
    (fun e => one_le_image_encoded _) s.attempts.entries
  have h5 := length_le_image_putEach (f := fun o => putBytes (encodeOutcome o))
    (fun e => one_le_image_encoded _) s.outcomes
  have h6 := length_le_image_putEach (f := fun e : FenceId × FenceEntry => putBytes (encodeFence e.2))
    (fun e => one_le_image_encoded _) s.fences.entries
  simp only [snapshotScript, Script.image_append, List.length_append, kMaxCanonicalBytes] at hfit
  unfold OrdMap.size at hfit
  refine ⟨?_, ?_, ?_, ?_, ?_, ?_, ?_, ?_⟩
  · unfold OrdMap.size; omega
  · intro e he
    have h := image_le_putEach (f := fun e : ScopeId × List IntentGeneration => putBytes e.1.text ++
      (putCount e.2.length ++ putEach putU64 e.2)) he
    have := (hgen e).1
    simp only [Script.image_append] at h this
    omega
  · unfold OrdMap.size; omega
  · unfold OrdMap.size; omega
  · intro e he
    have h := image_le_putEach (f := fun e : ScopeId × List ObservationDocument => putBytes e.1.text ++
      (putCount e.2.length ++ putEach (fun d => putBytes (encodeObservation d)) e.2)) he
    have := (hobs e).1
    simp only [Script.image_append] at h this
    omega
  · unfold OrdMap.size; omega
  · omega
  · unfold OrdMap.size; omega

section Tables

variable {limits : RuntimeLimits}

theorem reads_tableSize {n bound : Nat} {detail : String} (hn : n < 4294967296) :
    Reads (readTableSize bound detail).erase (putCount n).image (if n ≤ bound then some n else none) := by
  refine reads_expect (Reads.bind_end (reads_count hn) ?_)
  by_cases h : n ≤ bound
  · rw [if_pos h]
    exact Reads.require (by simpa using h) (Reads.pure n)
  · rw [if_neg h]
    exact Reads.require_false (by simpa using h)

theorem reads_nested {α : Type} {what : String} {decode : Bytes → Option α} {sc : Script} {a : α}
    (h : decode (encoded sc) = some a) :
    Reads (readNested what decode).erase (putBytes (encoded sc)).image (some a) := by
  refine reads_checkedBind_end (reads_expect (reads_bytes (length_encoded_le sc))) ?_
  rw [Checked.erase_expect, h]
  exact Reads.pure a

theorem reads_scopeEntry {scope : ScopeId} {n bound : Nat} {detail : String} (hs : scope.empty = false)
    (hn : n < 4294967296) (hb : n ≤ bound) :
    Reads (readScopeEntry bound detail).erase ((putBytes scope.text).image ++ (putCount n).image)
      (some (scope, n)) := by
  have hread : Reads (do
      let text ← Read.bytes
      let count ← Read.u32
      Reader.require (decide (count ≤ bound))
      return (text, count)) ((putBytes scope.text).image ++ (putCount n).image) (some (scope.text, n)) := by
    refine Reads.bind (reads_text scope) (Reads.bind_end (reads_count hn) ?_)
    exact Reads.require (by simpa using hb) (Reads.pure _)
  refine reads_checkedBind_end (reads_expect hread) ?_
  refine reads_checkedBind_end (a := scope) ?_ (reads_checkedPure _)
  rw [Checked.erase_expect, StringId.tryParse_text hs]
  exact Reads.pure scope

theorem decodeIntentExact_encoded {d : IntentDocument} (hok : IntentOk limits d) (hkeys : d.withKeyIds = d)
    (hp : encodeIntent d ≠ []) : decodeIntentExact (encodeIntent d) limits = some d := by
  obtain ⟨-, hfit, himg⟩ := encoded_ne_nil hp
  have h : decodeIntentExact (intentScript d).image limits = some d.withKeyIds := (reads_intent hok hfit).exactly
  rw [encodeIntent, himg, h, hkeys]

theorem decodeObservationExact_encoded {d : ObservationDocument} (hok : ObservationOk limits d)
    (hkeys : d.withKeyIds = d) (hp : encodeObservation d ≠ []) :
    decodeObservationExact (encodeObservation d) limits = some d := by
  obtain ⟨-, hfit, himg⟩ := encoded_ne_nil hp
  have h : decodeObservationExact (observationScript d).image limits = some d.withKeyIds :=
    (reads_observation hok hfit).exactly
  rw [encodeObservation, himg, h, hkeys]

theorem decodePolicyExact_encoded {policy : ReconciliationPolicy} (hok : PolicyOk limits policy)
    (hp : encodePolicy policy ≠ []) : decodePolicyExact (encodePolicy policy) limits = some policy := by
  obtain ⟨-, hfit, himg⟩ := encoded_ne_nil hp
  rw [encodePolicy, himg]
  exact (reads_policy hok hfit).exactly

theorem decodeAttempt_encoded {a : AttemptRecord} (hok : AttemptOk limits a) (hp : encodeAttempt a ≠ []) :
    (decodeAttempt limits).exactly (encodeAttempt a) = some a := by
  obtain ⟨-, hfit, himg⟩ := encoded_ne_nil hp
  rw [encodeAttempt, himg, (@reads_attempt limits a hfit).exactly, if_pos hok]

theorem decodeOutcome_encoded {o : ReconciliationOutcome} (hok : OutcomeOk o) (hp : encodeOutcome o ≠ []) :
    decodeOutcome.exactly (encodeOutcome o) = some o := by
  obtain ⟨-, -, himg⟩ := encoded_ne_nil hp
  rw [encodeOutcome, himg, (reads_outcome o).exactly, if_pos hok]

theorem decodeFence_encoded {f : FenceEntry} (hok : FenceOk f) (hp : encodeFence f ≠ []) :
    decodeFence.exactly (encodeFence f) = some f := by
  obtain ⟨ht, hfit, himg⟩ := encoded_ne_nil hp
  rw [encodeFence, himg, (reads_fence ht hfit).exactly, if_pos hok]

theorem reads_generations {s : DurableState} (h : TablesOk limits s) (hc : CountsFit s) :
    Reads (Checked.table s.intentGenerations.size (readGenerationEntry limits)).erase
      (putEach (fun e => putBytes e.1.text ++ (putCount e.2.length ++ putEach putU64 e.2))
        s.intentGenerations.entries).image (some s.intentGenerations) := by
  rw [image_putEach]
  refine reads_checkedTable fun e he => ?_
  obtain ⟨hscope, hbound⟩ := h.generations e he
  simp only [Script.image_append, ← List.append_assoc]
  refine reads_checkedBind (reads_scopeEntry hscope (hc.generationLists e he) hbound) ?_
  rw [image_putEach]
  exact reads_checkedBind_end (reads_checkedList fun v _ => reads_expect (reads_u64 v)) (reads_checkedPure _)

theorem reads_intents {s : DurableState} (h : TablesOk limits s) (hf : EntriesFit s) :
    Reads (Checked.table s.intents.size (readIntentEntry limits)).erase
      (putEach (fun e => putBytes (encodeIntent e.2)) s.intents.entries).image (some s.intents) := by
  rw [image_putEach]
  refine reads_checkedTable fun e he => ?_
  obtain ⟨hok, hkeys, hscope⟩ := h.intents e he
  refine reads_checkedBind_end (reads_nested (decodeIntentExact_encoded hok hkeys (hf.intents e he))) ?_
  rw [hscope]
  exact reads_checkedPure e

theorem reads_observations {s : DurableState} (h : TablesOk limits s) (hc : CountsFit s) (hf : EntriesFit s) :
    Reads (Checked.table s.observations.size (readObservationEntry limits)).erase
      (putEach (fun e => putBytes e.1.text ++ (putCount e.2.length ++
        putEach (fun d => putBytes (encodeObservation d)) e.2)) s.observations.entries).image
      (some s.observations) := by
  rw [image_putEach]
  refine reads_checkedTable fun e he => ?_
  obtain ⟨hscope, hbound⟩ := h.streams e he
  simp only [Script.image_append, ← List.append_assoc]
  refine reads_checkedBind (reads_scopeEntry hscope (hc.streams e he) hbound) ?_
  rw [image_putEach]
  refine reads_checkedBind_end (reads_checkedList fun d hd => ?_) (reads_checkedPure _)
  obtain ⟨hok, hkeys, -⟩ := h.observations e he d hd
  refine reads_checkedBind_end (reads_expect (reads_bytes (length_encoded_le _))) ?_
  have hdec := decodeObservationExact_encoded hok hkeys (hf.observations e he d hd)
  rw [Checked.erase_expect, hdec]
  exact Reads.pure d

theorem reads_attempts {s : DurableState} (h : TablesOk limits s) (hf : EntriesFit s) :
    Reads (Checked.table s.attempts.size (readAttemptEntry limits)).erase
      (putEach (fun e => putBytes (encodeAttempt e.2)) s.attempts.entries).image (some s.attempts) := by
  rw [image_putEach]
  refine reads_checkedTable fun e he => ?_
  obtain ⟨hok, hid⟩ := h.attempts e he
  refine reads_checkedBind_end (reads_nested (decodeAttempt_encoded hok (hf.attempts e he))) ?_
  rw [hid]
  exact reads_checkedPure e

theorem reads_outcomes {s : DurableState} (h : TablesOk limits s) (hf : EntriesFit s) :
    Reads (Checked.list s.outcomes.length (readNested "snapshot outcome" decodeOutcome.exactly)).erase
      (putEach (fun o => putBytes (encodeOutcome o)) s.outcomes).image (some s.outcomes) := by
  rw [image_putEach]
  exact reads_checkedList fun o ho => reads_nested (decodeOutcome_encoded (h.outcomes o ho) (hf.outcomes o ho))

theorem reads_fences {s : DurableState} (h : TablesOk limits s) (hf : EntriesFit s) :
    Reads (Checked.table s.fences.size readFenceEntry).erase
      (putEach (fun e => putBytes (encodeFence e.2)) s.fences.entries).image (some s.fences) := by
  rw [image_putEach]
  refine reads_checkedTable fun e he => ?_
  obtain ⟨hok, hid⟩ := h.fences e he
  refine reads_checkedBind_end (reads_nested (decodeFence_encoded hok (hf.fences e he))) ?_
  rw [hid]
  exact reads_checkedPure e

theorem reads_snapshotPolicy {s : DurableState} (h : TablesOk limits s) (hf : EntriesFit s) :
    Reads (readPolicy limits s.hasPolicy).erase
      (if s.hasPolicy then putBytes (encodePolicy s.policy) else []).image (some s.policy) := by
  cases hp : s.hasPolicy with
  | false =>
    rw [h.noPolicy hp]
    exact reads_checkedPure _
  | true => exact reads_nested (decodePolicyExact_encoded (h.policy hp) (hf.policy hp))

/-- The whole payload is read back when the tables are within the reader's bounds, and refused
otherwise. -/
theorem reads_snapshot {s : DurableState} (h : TablesOk limits s) (hf : EntriesFit s)
    (hfit : (snapshotScript s).image.length ≤ kMaxCanonicalBytes) (s₀ : DurableState) :
    (SnapshotBounds limits s → Reads (snapshotReader limits s₀).erase (snapshotScript s).image
      (some { s with store := s₀.store, sequence := s₀.sequence })) ∧
    (¬ SnapshotBounds limits s → Reads (snapshotReader limits s₀).erase (snapshotScript s).image none) := by
  have hc := countsFit_of_fits hfit
  have hhead : Reads (do
      let schema ← Read.u16
      Reader.require (schema == kCanonicalSchemaVersion)
      let lastEpoch ← Read.u64
      let nextAttempt ← Read.u64
      let hasPolicy ← Read.bool
      return (lastEpoch, nextAttempt, hasPolicy))
      (snapshotHead s).image (some (s.lastEpoch, s.nextAttempt, s.hasPolicy)) := by
    simp only [snapshotHead, Script.image_append]
    refine Reads.bind (reads_u16 (by decide)) (Reads.require (by decide) ?_)
    refine Reads.bind (reads_u64 _) (Reads.bind (reads_u64 _) ?_)
    exact Reads.bind_end (reads_bool _) (Reads.pure _)
  have hnext : (if s.nextAttempt = 0 then 1 else s.nextAttempt) = s.nextAttempt := if_neg h.nextAttempt
  -- one bound after the other, in the order of the reader
  have key : ∀ o : Option DurableState,
      (SnapshotBounds limits s → o = some { s with store := s₀.store, sequence := s₀.sequence }) →
      (¬ SnapshotBounds limits s → o = none) →
      Reads (snapshotReader limits s₀).erase (snapshotScript s).image o := by
    intro o hyes hno
    simp only [snapshotScript, Script.image_append]
    refine reads_checkedBind (reads_expect hhead) ?_
    refine reads_checkedBind (reads_snapshotPolicy h hf) ?_
    have hg := @reads_tableSize _ limits.maxScopes.toNat "snapshot generation table is invalid" hc.generations
    by_cases bg : s.intentGenerations.size ≤ limits.maxScopes.toNat
    swap
    · rw [hno fun b => bg b.generations]
      rw [if_neg bg] at hg
      exact reads_checkedBind_none hg
    rw [if_pos bg] at hg
    refine reads_checkedBind hg (reads_checkedBind (reads_generations h hc) ?_)
    have hi := @reads_tableSize _ limits.maxScopes.toNat "snapshot intent table is invalid" hc.intents
    by_cases bi : s.intents.size ≤ limits.maxScopes.toNat
    swap
    · rw [hno fun b => bi b.intents]
      rw [if_neg bi] at hi
      exact reads_checkedBind_none hi
    rw [if_pos bi] at hi
    refine reads_checkedBind hi (reads_checkedBind (reads_intents h hf) ?_)
    have ho := @reads_tableSize _ limits.maxScopes.toNat "snapshot observation table is invalid" hc.observations
    by_cases bo : s.observations.size ≤ limits.maxScopes.toNat
    swap
    · rw [hno fun b => bo b.observations]
      rw [if_neg bo] at ho
      exact reads_checkedBind_none ho
    rw [if_pos bo] at ho
    refine reads_checkedBind ho (reads_checkedBind (reads_observations h hc hf) ?_)
    have ha := @reads_tableSize _ limits.maxRetainedAttempts.toNat "snapshot attempt table is invalid" hc.attempts
    by_cases ba : s.attempts.size ≤ limits.maxRetainedAttempts.toNat
    swap
    · rw [hno fun b => ba b.attempts]
      rw [if_neg ba] at ha
      exact reads_checkedBind_none ha
    rw [if_pos ba] at ha
    refine reads_checkedBind ha (reads_checkedBind (reads_attempts h hf) ?_)
    have hu := @reads_tableSize _ limits.maxRetainedOutcomes.toNat "snapshot outcome table is invalid" hc.outcomes
    rw [if_pos h.outcomesBound] at hu
    refine reads_checkedBind hu (reads_checkedBind (reads_outcomes h hf) ?_)
    have hn := @reads_tableSize _ (limits.maxScopes * 16).toNat "snapshot fence table is invalid" hc.fences
    by_cases bf : s.fences.size ≤ (limits.maxScopes * 16).toNat
    swap
    · rw [hno fun b => bf b.fences]
      rw [if_neg bf] at hn
      exact reads_checkedBind_none hn
    rw [if_pos bf] at hn
    refine reads_checkedBind hn (reads_checkedBind (reads_fences h hf) ?_)
    refine reads_checkedBind_end (reads_expect (reads_u64 s.compactions)) ?_
    rw [hyes ⟨bg, bi, bo, ba, h.outcomesBound, bf⟩, hnext]
    exact reads_checkedPure _
  exact ⟨fun hb => key _ (fun _ => rfl) (fun hn => absurd hb hn),
    fun hn => key _ (fun hb => absurd hb hn) (fun _ => rfl)⟩

/-- **`applySnapshotPayload_encoded`**: within the bounds, the state is restored exactly. -/
theorem applySnapshotPayload_encoded {s : DurableState} (h : TablesOk limits s) (hf : EntriesFit s)
    (hp : encodeSnapshotPayload s ≠ []) (hb : SnapshotBounds limits s) (s₀ : DurableState) :
    applySnapshotPayload limits (encodeSnapshotPayload s) s₀ =
      .ok { s with store := s₀.store, sequence := s₀.sequence } := by
  obtain ⟨-, hfit, himg⟩ := encoded_ne_nil hp
  have hread := (reads_snapshot h hf hfit s₀).1 hb
  unfold encodeSnapshotPayload
  rw [himg]
  exact eq_ok_of_toOption (Checked.exactly_of_erase hread)

/-- Outside the bounds, the payload is refused. -/
theorem applySnapshotPayload_refused {s : DurableState} (h : TablesOk limits s) (hf : EntriesFit s)
    (hp : encodeSnapshotPayload s ≠ []) (hb : ¬ SnapshotBounds limits s) (s₀ : DurableState) :
    ∃ status, applySnapshotPayload limits (encodeSnapshotPayload s) s₀ = .error status := by
  obtain ⟨-, hfit, himg⟩ := encoded_ne_nil hp
  have hread := (reads_snapshot h hf hfit s₀).2 hb
  have hnone := Checked.exactly_of_erase
    (e := snapshotInvalid "snapshot payload has trailing bytes or is truncated") hread
  unfold encodeSnapshotPayload applySnapshotPayload
  rw [himg]
  cases hc : Checked.exactly (snapshotInvalid "snapshot payload has trailing bytes or is truncated")
      (snapshotReader limits s₀) (snapshotScript s).image with
  | error status => exact ⟨status, rfl⟩
  | ok a => simp [hc, Except.toOption] at hnone

end Tables

end FabricReconciliation
