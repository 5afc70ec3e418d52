import FabricReconciliation.Lib.Framing
import FabricReconciliation.Vocabulary

/-!
# The framed protocol (`wire.hpp`, `wire.cpp`)

Every frame is a header of 64 bytes and a payload; the header's last 32 bytes are the digest of the
rest. `FrameReader` keeps what it was fed and not yet handed out, and refuses everything after the first
bad frame.

* **`FrameReader.simulates`** — it is an incremental reader of `frameCut`;
* **`frame_stream_reassembly`** — encoded frames come out as they went in, and chunking never matters.
-/

namespace FabricReconciliation

open Lib

def kWireHeaderBytes : Nat := 64
def kWireDigestOffset : Nat := 32
def kWireMagic : Bytes := [0x46, 0x52, 0x50, 0x31]
def kWireProtocolVersion : UInt16 := 1

/-- `WireMessageType` (`wire.hpp:52`). -/
inductive WireMessageType
  | invalid | hello | welcome | request | response | error | ping | pong | goodbye
deriving DecidableEq

instance : Enumeration WireMessageType where
  table := [.invalid, .hello, .welcome, .request, .response, .error, .ping, .pong, .goodbye]
  complete a := by cases a <;> decide

/-- `TryParseWireMessageType` (`wire.cpp:67`). -/
def tryParseWireMessageType (raw : Nat) : Option WireMessageType :=
  if raw < Enumeration.raw WireMessageType.hello || Enumeration.raw WireMessageType.goodbye < raw then none
  else Enumeration.ofRaw raw

/-- `FrameHeader`. -/
structure FrameHeader where
  protocolVersion : UInt16 := kWireProtocolVersion
  type : WireMessageType := .invalid
  flags : UInt16 := 0
  payloadLen : UInt32 := 0
  sessionId : UInt64 := 0
  sequence : UInt64 := 0
deriving DecidableEq

/-! ## Images -/

/-- The first 32 bytes of a frame. -/
def framePrefix (header : FrameHeader) (payload : Bytes) : Bytes :=
  kWireMagic ++ (leBytes 2 header.protocolVersion.toNat ++ (leBytes 2 (Enumeration.raw header.type) ++
  (leBytes 2 header.flags.toNat ++ (leBytes 2 0 ++ (leBytes 4 (payload.length % 4294967296) ++
  (leBytes 8 header.sessionId.toNat ++ leBytes 8 header.sequence.toNat))))))

/-- The digest of a frame: its first half header and its payload, hashed in two updates. -/
def frameDigest (front payload : Bytes) : Digest := ((Sha256.init.update front).update payload).final

/-- `EncodeFrame` (`wire.cpp:109`). The length in the header is not used. -/
def encodeFrame (header : FrameHeader) (payload : Bytes) : Bytes :=
  let front := framePrefix header payload
  front ++ ((frameDigest front payload).bytes ++ payload)

/-- `DecodeFrameHeader` (`wire.cpp:129`). -/
def decodeFrameHeader (data : Bytes) (maxPayload : UInt32) : Except Status FrameHeader :=
  if data.length < kWireHeaderBytes then
    .error ⟨.indeterminate, .frameTruncated, "frame header is incomplete"⟩
  else if slice 0 4 data ≠ kWireMagic then .error ⟨.rejected, .frameMagicInvalid, "frame magic mismatch"⟩
  else if load 2 4 data ≠ kWireProtocolVersion.toNat then
    .error ⟨.unsupported, .frameVersionUnsupported, "unsupported protocol version"⟩
  else match tryParseWireMessageType (load 2 6 data) with
    | none => .error ⟨.rejected, .frameTypeUnknown, "unknown message type"⟩
    | some type =>
      if load 2 10 data ≠ 0 then .error ⟨.rejected, .frameTypeUnknown, "reserved header bits must be zero"⟩
      else if maxPayload.toNat < load 4 12 data then
        .error ⟨.limitExceeded, .framePayloadTooLarge, "declared payload exceeds the configured maximum"⟩
      else .ok {
        protocolVersion := UInt16.ofNat (load 2 4 data)
        type := type
        flags := UInt16.ofNat (load 2 8 data)
        payloadLen := UInt32.ofNat (load 4 12 data)
        sessionId := UInt64.ofNat (load 8 16 data)
        sequence := UInt64.ofNat (load 8 24 data) }

/-- `VerifyFrameImage` (`wire.cpp:165`). -/
def verifyFrameImage (image : Bytes) : Status :=
  if image.length < kWireHeaderBytes then ⟨.indeterminate, .frameTruncated, "frame is incomplete"⟩
  else if slice 0 4 image ≠ kWireMagic then ⟨.rejected, .frameMagicInvalid, "frame magic mismatch"⟩
  else if image.length ≠ kWireHeaderBytes + load 4 12 image then
    ⟨.rejected, .frameTrailingBytes, "frame length does not match its declared payload"⟩
  else if slice kWireDigestOffset 32 image ≠
      (frameDigest (slice 0 kWireDigestOffset image) (slice kWireHeaderBytes (load 4 12 image) image)).bytes then
    ⟨.integrityFailure, .frameDigestMismatch, "frame digest mismatch"⟩
  else Status.ok

/-! ## The reader -/

/-- `class FrameReader` (`wire.hpp:115`). -/
structure FrameReader where
  buffer : Bytes := []
  offset : Nat := 0
  maxPayload : UInt32
  failed : Bool := false
  failure : Status := Status.ok

namespace FrameReader

/-- `FrameReader::Feed` (`wire.cpp:190`). -/
def feed (r : FrameReader) (bytes : Bytes) : FrameReader :=
  if r.failed || bytes.isEmpty then r else { r with buffer := r.buffer ++ bytes }

/-- `FrameReader::Compact` (`wire.cpp:197`). -/
def compact (r : FrameReader) : FrameReader :=
  if r.offset = 0 then r else { r with buffer := r.buffer.drop r.offset, offset := 0 }

/-- `FrameReader::Next` (`wire.cpp:205`). -/
def next (r : FrameReader) : Option (FrameHeader × Bytes) × FrameReader :=
  if r.failed then (none, r)
  else if r.buffer.length - r.offset < kWireHeaderBytes then (none, r)
  else
    let base := r.buffer.drop r.offset
    match decodeFrameHeader base r.maxPayload with
    | .error status => (none, { r with failed := true, failure := status })
    | .ok parsed =>
      let total := kWireHeaderBytes + parsed.payloadLen.toNat
      if r.buffer.length - r.offset < total then (none, r)
      else
        let image := base.take total
        let verified := verifyFrameImage image
        if verified.code ≠ .ok then (none, { r with failed := true, failure := verified })
        else (some (parsed, slice kWireHeaderBytes parsed.payloadLen.toNat image),
          compact { r with offset := r.offset + total })

/-- One call, and the frame it yields. -/
def call (r : FrameReader) : FramingCall UInt8 → Option (FrameHeader × Bytes) × FrameReader
  | .feed chunk => (none, r.feed chunk)
  | .next => r.next

/-- All frames that a sequence of calls yields. -/
def run : FrameReader → List (FramingCall UInt8) → List (FrameHeader × Bytes) × FrameReader
  | r, [] => ([], r)
  | r, c :: calls => ((r.call c).1.toList ++ (run (r.call c).2 calls).1, (run (r.call c).2 calls).2)

end FrameReader

/-! ## Images read back -/

section Image

variable (header : FrameHeader) (payload : Bytes)

@[simp] theorem length_framePrefix : (framePrefix header payload).length = 32 := by
  simp [framePrefix, kWireMagic]

@[simp] theorem length_encodeFrame : (encodeFrame header payload).length = 64 + payload.length := by
  simp only [encodeFrame, List.length_append, length_framePrefix, FixedBytes.length_eq]
  omega

variable {payload} (rest : Bytes)

theorem frame_magic : slice 0 4 (framePrefix header payload ++ rest) = kWireMagic := by
  rw [framePrefix, List.append_assoc]
  exact slice_here rfl

theorem frame_version : load 2 4 (framePrefix header payload ++ rest) = header.protocolVersion.toNat := by
  rw [framePrefix]
  simp only [List.append_assoc]
  rw [load_skip (k := 4) rfl (by omega), load_here (by have := header.protocolVersion.toNat_lt; omega)]

theorem frame_type : load 2 6 (framePrefix header payload ++ rest) = Enumeration.raw header.type := by
  rw [framePrefix]
  simp only [List.append_assoc]
  rw [load_skip (k := 4) rfl (by omega), load_skip (k := 2) (by simp) (by omega),
    load_here (by cases header.type <;> decide)]

theorem frame_flags : load 2 8 (framePrefix header payload ++ rest) = header.flags.toNat := by
  rw [framePrefix]
  simp only [List.append_assoc]
  rw [load_skip (k := 4) rfl (by omega), load_skip (k := 2) (by simp) (by omega),
    load_skip (k := 2) (by simp) (by omega), load_here (by have := header.flags.toNat_lt; omega)]

theorem frame_reserved : load 2 10 (framePrefix header payload ++ rest) = 0 := by
  rw [framePrefix]
  simp only [List.append_assoc]
  rw [load_skip (k := 4) rfl (by omega), load_skip (k := 2) (by simp) (by omega),
    load_skip (k := 2) (by simp) (by omega), load_skip (k := 2) (by simp) (by omega), load_here (by omega)]

theorem frame_length (h : payload.length < 2 ^ 32) :
    load 4 12 (framePrefix header payload ++ rest) = payload.length := by
  rw [framePrefix]
  simp only [List.append_assoc]
  rw [load_skip (k := 4) rfl (by omega), load_skip (k := 2) (by simp) (by omega),
    load_skip (k := 2) (by simp) (by omega), load_skip (k := 2) (by simp) (by omega),
    load_skip (k := 2) (by simp) (by omega), load_here (by omega), Nat.mod_eq_of_lt (by omega)]

theorem frame_session : load 8 16 (framePrefix header payload ++ rest) = header.sessionId.toNat := by
  rw [framePrefix]
  simp only [List.append_assoc]
  rw [load_skip (k := 4) rfl (by omega), load_skip (k := 2) (by simp) (by omega),
    load_skip (k := 2) (by simp) (by omega), load_skip (k := 2) (by simp) (by omega),
    load_skip (k := 2) (by simp) (by omega), load_skip (k := 4) (by simp) (by omega),
    load_here (by have := header.sessionId.toNat_lt; omega)]

theorem frame_sequence : load 8 24 (framePrefix header payload ++ rest) = header.sequence.toNat := by
  rw [framePrefix]
  simp only [List.append_assoc]
  rw [load_skip (k := 4) rfl (by omega), load_skip (k := 2) (by simp) (by omega),
    load_skip (k := 2) (by simp) (by omega), load_skip (k := 2) (by simp) (by omega),
    load_skip (k := 2) (by simp) (by omega), load_skip (k := 4) (by simp) (by omega),
    load_skip (k := 8) (by simp) (by omega), load_here (by have := header.sequence.toNat_lt; omega)]

theorem tryParseWireMessageType_raw {type : WireMessageType} (h : type ≠ .invalid) :
    tryParseWireMessageType (Enumeration.raw type) = some type := by
  revert h
  cases type <;> decide

/-- The header as it is read back. -/
def FrameHeader.sent (header : FrameHeader) (payload : Bytes) : FrameHeader :=
  { header with payloadLen := UInt32.ofNat payload.length }

/-- The frames that a reader with this bound accepts. -/
structure Sendable (maxPayload : UInt32) (header : FrameHeader) (payload : Bytes) : Prop where
  version : header.protocolVersion = kWireProtocolVersion
  type : header.type ≠ .invalid
  bound : payload.length ≤ maxPayload.toNat

variable {header} {maxPayload : UInt32}

theorem Sendable.length_lt (h : Sendable maxPayload header payload) : payload.length < 2 ^ 32 :=
  lt_of_le_of_lt h.bound maxPayload.toNat_lt

theorem decodeFrameHeader_encoded (h : Sendable maxPayload header payload) (hrest : 32 ≤ rest.length) :
    decodeFrameHeader (framePrefix header payload ++ rest) maxPayload = .ok (header.sent payload) := by
  have hbound := h.bound
  unfold decodeFrameHeader
  simp only [frame_magic, frame_version, frame_type, frame_flags, frame_reserved, frame_session, frame_sequence,
    frame_length header rest h.length_lt, tryParseWireMessageType_raw h.type, h.version, UInt64.ofNat_toNat,
    UInt16.ofNat_toNat, ne_eq, not_true_eq_false, if_false, List.length_append, length_framePrefix, kWireHeaderBytes]
  rw [if_neg (show ¬ 32 + rest.length < 64 by omega), if_neg (by omega)]
  rw [FrameHeader.sent, h.version]

theorem verifyFrameImage_encoded (h : payload.length < 2 ^ 32) :
    verifyFrameImage (encodeFrame header payload) = Status.ok := by
  have hfront : slice 0 32 (encodeFrame header payload) = framePrefix header payload :=
    slice_here (length_framePrefix header payload)
  have hdigest : slice 32 32 (encodeFrame header payload) =
      (frameDigest (framePrefix header payload) payload).bytes := by
    rw [encodeFrame, slice_skip (length_framePrefix header payload) (le_refl 32)]
    exact slice_here (FixedBytes.length_eq _)
  have hpayload : slice 64 payload.length (encodeFrame header payload) = payload := by
    rw [encodeFrame, slice_skip (length_framePrefix header payload) (by omega),
      slice_skip (FixedBytes.length_eq _) (by omega), ← List.append_nil payload]
    simpa using slice_here (b := []) (rfl : payload.length = payload.length)
  have hload : load 4 12 (encodeFrame header payload) = payload.length := frame_length header _ h
  have hmagic : slice 0 4 (encodeFrame header payload) = kWireMagic := frame_magic header _
  have hwhole : ¬ (encodeFrame header payload).length < kWireHeaderBytes := by simp [kWireHeaderBytes]
  unfold verifyFrameImage
  rw [if_neg hwhole, if_neg (by rw [hmagic]; simp), if_neg (by rw [hload]; simp [kWireHeaderBytes]), hload]
  simp only [kWireHeaderBytes, kWireDigestOffset, hfront, hdigest, hpayload, ne_eq, not_true_eq_false, if_false]

end Image

/-! ## Cutting a stream -/

/-- What the front of a stream is to a reader with this bound. -/
def frameCut (maxPayload : UInt32) (stream : Bytes) : Cut UInt8 (FrameHeader × Bytes) Status :=
  if stream.length < kWireHeaderBytes then .more
  else match decodeFrameHeader stream maxPayload with
    | .error status => .bad status
    | .ok parsed =>
      let total := kWireHeaderBytes + parsed.payloadLen.toNat
      if stream.length < total then .more
      else if (verifyFrameImage (stream.take total)).code ≠ .ok then .bad (verifyFrameImage (stream.take total))
      else .frame (parsed, slice kWireHeaderBytes parsed.payloadLen.toNat (stream.take total)) (stream.drop total)

section Cut

variable {maxPayload : UInt32} {stream : Bytes}

/-- A header is decided by its own bytes. -/
theorem decodeFrameHeader_append (later : Bytes) (h : kWireHeaderBytes ≤ stream.length) :
    decodeFrameHeader (stream ++ later) maxPayload = decodeFrameHeader stream maxPayload := by
  have hlong : ¬ (stream ++ later).length < kWireHeaderBytes := by
    rw [List.length_append]
    omega
  have hsize : 64 ≤ stream.length := h
  have hload : ∀ n offset, offset + n ≤ 64 → load n offset (stream ++ later) = load n offset stream := by
    intro n offset hn
    rw [load, load, slice_append (by omega)]
  unfold decodeFrameHeader
  rw [if_neg hlong, if_neg (show ¬ stream.length < kWireHeaderBytes by omega), slice_append (show 0 + 4 ≤ stream.length by omega), hload 2 4 (by omega),
    hload 2 6 (by omega), hload 2 8 (by omega), hload 2 10 (by omega), hload 4 12 (by omega), hload 8 16 (by omega),
    hload 8 24 (by omega)]

theorem frameCut_append (later : Bytes) (hmore : frameCut maxPayload stream ≠ .more) :
    (∀ frame rest, frameCut maxPayload stream = .frame frame rest →
      frameCut maxPayload (stream ++ later) = .frame frame (rest ++ later)) ∧
    ∀ status, frameCut maxPayload stream = .bad status → frameCut maxPayload (stream ++ later) = .bad status := by
  unfold frameCut at hmore ⊢
  by_cases hshort : stream.length < kWireHeaderBytes
  · simp [hshort] at hmore
  rw [if_neg hshort] at hmore ⊢
  have hlong : ¬ (stream ++ later).length < kWireHeaderBytes := by
    rw [List.length_append]
    omega
  rw [if_neg hlong, decodeFrameHeader_append later (by omega)]
  cases hheader : decodeFrameHeader stream maxPayload with
  | error status =>
    refine ⟨by simp, ?_⟩
    intro status' h
    exact h
  | ok parsed =>
    simp only [hheader] at hmore
    simp only
    by_cases hpart : stream.length < kWireHeaderBytes + parsed.payloadLen.toNat
    · simp [hpart] at hmore
    have hwhole : ¬ (stream ++ later).length < kWireHeaderBytes + parsed.payloadLen.toNat := by
      rw [List.length_append]
      omega
    rw [if_neg hpart, if_neg hwhole, List.take_append_of_le_length (by omega), List.drop_append_of_le_length (by omega)]
    split
    · exact ⟨by simp, fun _ h => h⟩
    · refine ⟨?_, by simp⟩
      intro frame rest h
      rw [Cut.frame.injEq] at h ⊢
      exact ⟨h.1, by rw [h.2]⟩

/-- The framing of the protocol. -/
def wireFraming (maxPayload : UInt32) : Framing UInt8 (FrameHeader × Bytes) Status where
  cut := frameCut maxPayload
  empty := by simp [frameCut, kWireHeaderBytes]
  frame_append later h := (frameCut_append later (by simp [h])).1 _ _ h
  bad_append later h := (frameCut_append later (by simp [h])).2 _ h

theorem wireFraming_cut (maxPayload : UInt32) (stream : Bytes) :
    (wireFraming maxPayload).cut stream = frameCut maxPayload stream := rfl

/-- An encoded frame is cut off whole. -/
theorem frameCut_encoded {header : FrameHeader} {payload : Bytes} (h : Sendable maxPayload header payload)
    (rest : Bytes) :
    frameCut maxPayload (encodeFrame header payload ++ rest) = .frame (header.sent payload, payload) rest := by
  have hlen := h.length_lt
  have hsize : (header.sent payload).payloadLen.toNat = payload.length := by
    show (UInt32.ofNat payload.length).toNat = _
    rw [UInt32.toNat_ofNat']
    exact Nat.mod_eq_of_lt hlen
  have hheader : decodeFrameHeader (encodeFrame header payload ++ rest) maxPayload = .ok (header.sent payload) := by
    rw [encodeFrame, List.append_assoc]
    exact decodeFrameHeader_encoded _ h (by rw [List.length_append, List.length_append, FixedBytes.length_eq]; omega)
  have htake : (encodeFrame header payload ++ rest).take (64 + payload.length) = encodeFrame header payload :=
    List.take_left' (length_encodeFrame header payload)
  have hdrop : (encodeFrame header payload ++ rest).drop (64 + payload.length) = rest :=
    List.drop_left' (length_encodeFrame header payload)
  have hpayload : slice 64 payload.length (encodeFrame header payload) = payload := by
    rw [encodeFrame, slice_skip (length_framePrefix header payload) (by omega),
      slice_skip (FixedBytes.length_eq _) (by omega), ← List.append_nil payload]
    simpa using slice_here (b := []) (rfl : payload.length = payload.length)
  unfold frameCut
  rw [hheader]
  simp only [kWireHeaderBytes, hsize, htake, hdrop, hpayload, verifyFrameImage_encoded hlen, List.length_append,
    length_encodeFrame]
  rw [if_neg (by omega), if_neg (by omega), if_neg (by simp [Status.ok])]

theorem holds_encoded (frames : List (FrameHeader × Bytes)) (h : ∀ f ∈ frames, Sendable maxPayload f.1 f.2) :
    (wireFraming maxPayload).Holds (frames.flatMap fun f => encodeFrame f.1 f.2)
      (frames.map fun f => (f.1.sent f.2, f.2)) [] := by
  induction frames with
  | nil => exact .done _
  | cons f rest ih =>
    have hfirst : (wireFraming maxPayload).cut
        (encodeFrame f.1 f.2 ++ rest.flatMap fun f => encodeFrame f.1 f.2) =
        .frame (f.1.sent f.2, f.2) (rest.flatMap fun f => encodeFrame f.1 f.2) := by
      rw [wireFraming_cut]
      exact frameCut_encoded (h f (List.mem_cons_self ..)) _
    have hrest := ih fun g hg => h g (List.mem_cons_of_mem _ hg)
    rw [List.flatMap_cons, List.map_cons]
    exact Framing.Holds.frame hfirst hrest

end Cut

/-! ## The reader is incremental -/

namespace FrameReader

variable {maxPayload : UInt32} {r : FrameReader} {s : FramingReader UInt8 Status}

/-- The reader as the framing sees it. -/
structure Shows (maxPayload : UInt32) (r : FrameReader) (s : FramingReader UInt8 Status) : Prop where
  bound : r.maxPayload = maxPayload
  offset : r.offset = 0
  buffer : s.buffer = r.buffer
  failure : s.failure = if r.failed then some r.failure else none

theorem Shows.feed (h : Shows maxPayload r s) (chunk : Bytes) : Shows maxPayload (r.feed chunk) (Framing.feed s chunk) := by
  unfold FrameReader.feed Framing.feed
  rw [h.failure]
  cases hfailed : r.failed with
  | true => exact h
  | false =>
    cases chunk with
    | nil => exact ⟨h.bound, h.offset, by simp [h.buffer], by simp [hfailed]⟩
    | cons b rest => exact ⟨h.bound, h.offset, by simp [h.buffer], by simp⟩

theorem Shows.next (h : Shows maxPayload r s) :
    r.next.1 = ((wireFraming maxPayload).next s).1 ∧ Shows maxPayload r.next.2 ((wireFraming maxPayload).next s).2 := by
  unfold FrameReader.next Framing.next
  rw [h.failure]
  cases hfailed : r.failed with
  | true => exact ⟨rfl, h⟩
  | false =>
    simp only [Bool.false_eq_true, if_false, wireFraming, frameCut, h.buffer, h.offset, h.bound, Nat.sub_zero,
      List.drop_zero]
    have hnone : s.failure = none := by rw [h.failure, hfailed]; rfl
    by_cases hshort : r.buffer.length < kWireHeaderBytes
    · simp only [if_pos hshort]
      exact ⟨trivial, h⟩
    simp only [if_neg hshort]
    cases hheader : decodeFrameHeader r.buffer maxPayload with
    | error status => exact ⟨rfl, rfl, rfl, rfl, rfl⟩
    | ok parsed =>
      simp only
      by_cases hpart : r.buffer.length < kWireHeaderBytes + parsed.payloadLen.toNat
      · simp only [if_pos hpart]
        exact ⟨trivial, h⟩
      simp only [if_neg hpart]
      split
      next hbad => exact ⟨rfl, rfl, rfl, rfl, rfl⟩
      next hgood =>
        refine ⟨rfl, ?_⟩
        have htotal : ¬ 0 + (kWireHeaderBytes + parsed.payloadLen.toNat) = 0 := by
          simp only [kWireHeaderBytes]
          omega
        simp only [compact, if_neg htotal]
        exact ⟨rfl, rfl, by simp only [Nat.zero_add], rfl⟩

/-- **`FrameReader.simulates`**. -/
theorem simulates (h : Shows maxPayload r s) (calls : List (FramingCall UInt8)) :
    (r.run calls).1 = ((wireFraming maxPayload).run s calls).1 ∧
      Shows maxPayload (r.run calls).2 ((wireFraming maxPayload).run s calls).2 := by
  induction calls generalizing r s with
  | nil => exact ⟨rfl, h⟩
  | cons c calls ih =>
    cases c with
    | feed chunk => exact ih (h.feed chunk)
    | next =>
      obtain ⟨hframe, hnext⟩ := h.next
      obtain ⟨hframes, hlast⟩ := ih hnext
      refine ⟨?_, hlast⟩
      show r.next.1.toList ++ (r.next.2.run calls).1 = _
      rw [hframe, hframes]
      rfl

end FrameReader

section Reassembly

variable {maxPayload : UInt32}

/-- The frames that a new reader yields under these calls, and the reader behind them. -/
def readFrames (maxPayload : UInt32) (calls : List (FramingCall UInt8)) : List (FrameHeader × Bytes) × FrameReader :=
  FrameReader.run { maxPayload := maxPayload } calls

/-- The reader was asked, after the last bytes it was fed, until it had no frame. -/
def Drained (maxPayload : UInt32) (calls : List (FramingCall UInt8)) : Prop :=
  ∃ before, calls = before ++ [.next] ∧ (readFrames maxPayload before).2.next.1 = none

theorem readFrames_simulates (maxPayload : UInt32) (calls : List (FramingCall UInt8)) :
    (readFrames maxPayload calls).1 = ((wireFraming maxPayload).run {} calls).1 ∧
      FrameReader.Shows maxPayload (readFrames maxPayload calls).2 ((wireFraming maxPayload).run {} calls).2 :=
  FrameReader.simulates ⟨rfl, rfl, rfl, rfl⟩ calls

theorem Drained.framing {calls : List (FramingCall UInt8)} (h : Drained maxPayload calls) :
    (wireFraming maxPayload).Drained calls := by
  obtain ⟨before, rfl, hnone⟩ := h
  refine ⟨before, rfl, ?_⟩
  rw [← (readFrames_simulates maxPayload before).2.next.1]
  exact hnone

/-- **`frame_stream_reassembly`**. -/
theorem frame_stream_reassembly (maxPayload : UInt32) :
    (∀ frames : List (FrameHeader × Bytes), (∀ f ∈ frames, Sendable maxPayload f.1 f.2) → ∀ calls,
      Framing.fed calls = (frames.flatMap fun f => encodeFrame f.1 f.2) →
      (readFrames maxPayload calls).1 <+: (frames.map fun f => (f.1.sent f.2, f.2)) ∧
      (readFrames maxPayload calls).2.failed = false ∧
      (Drained maxPayload calls → (readFrames maxPayload calls).1 = frames.map fun f => (f.1.sent f.2, f.2))) ∧
    (∀ calls calls', Framing.fed calls = Framing.fed calls' → Drained maxPayload calls → Drained maxPayload calls' →
      (readFrames maxPayload calls).1 = (readFrames maxPayload calls').1 ∧
      (readFrames maxPayload calls).2.failed = (readFrames maxPayload calls').2.failed) ∧
    ∀ calls more, (readFrames maxPayload calls).2.failed = true →
      (readFrames maxPayload (calls ++ more)).1 = (readFrames maxPayload calls).1 ∧
      (readFrames maxPayload (calls ++ more)).2.failed = true := by
  have hfailed : ∀ calls, (readFrames maxPayload calls).2.failed =
      ((wireFraming maxPayload).run {} calls).2.failure.isSome := by
    intro calls
    rw [(readFrames_simulates maxPayload calls).2.failure]
    cases (readFrames maxPayload calls).2.failed <;> rfl
  have hframes := fun calls => (readFrames_simulates maxPayload calls).1
  refine ⟨?_, ?_, ?_⟩
  · intro frames hsendable calls hfed
    have hholds := holds_encoded frames hsendable
    have hend : (wireFraming maxPayload).Ends [] none := .more (wireFraming maxPayload).empty
    obtain ⟨rest, hread, hstands⟩ := Framing.run_reads (F := wireFraming maxPayload) (r := {}) (.reading rfl rfl) calls
    rw [List.nil_append, hfed] at hread
    refine ⟨by rw [hframes]; exact hread.leads hholds hend, ?_, ?_⟩
    · rw [hfailed]
      cases hstands with
      | reading hnone hbuffer => rw [hnone]; rfl
      | failed hsome hbad =>
        have := (hread.unique (.bad hbad) hholds hend).2
        simp at this
    · intro hdrained
      obtain ⟨last, hlast, hends⟩ := hdrained.framing.ends
      rw [hfed] at hlast
      rw [hframes]
      exact (hlast.unique hends hholds hend).1
  · intro calls calls' hsame h h'
    obtain ⟨hout, hfailure⟩ := Framing.drained_unique h.framing h'.framing hsame
    rw [hframes, hframes, hfailed, hfailed, hout, hfailure]
    exact ⟨rfl, rfl⟩
  · intro calls more hfail
    rw [hfailed] at hfail
    obtain ⟨status, hstatus⟩ := Option.isSome_iff_exists.mp hfail
    obtain ⟨hnone, hstill⟩ := Framing.run_failed (F := wireFraming maxPayload) hstatus more
    rw [hframes, hframes, hfailed, Framing.run_append]
    simp [hnone, hstill]

/-- A greeting in two pieces. -/
theorem frame_stream_reassembly_pieces :
    let greeting : FrameHeader := { type := .hello, sequence := 1 }
    let image := encodeFrame greeting [1, 2, 3]
    let calls := [.feed (image.take 10), .next, .feed (image.drop 10), .next, .next]
    Drained 8 calls ∧ (readFrames 8 calls).1 = [(greeting.sent [1, 2, 3], [1, 2, 3])] := by
  intro greeting image calls
  have hsendable : ∀ f ∈ [(greeting, ([1, 2, 3] : Bytes))], Sendable 8 f.1 f.2 := by
    intro f hf
    rw [List.mem_singleton.mp hf]
    exact ⟨rfl, by decide, by decide⟩
  have hfed : Framing.fed calls = [(greeting, ([1, 2, 3] : Bytes))].flatMap fun f => encodeFrame f.1 f.2 := by
    simp [calls, image, Framing.fed]
  have hdrained : Drained 8 calls := by
    refine ⟨[.feed (image.take 10), .next, .feed (image.drop 10), .next], rfl, ?_⟩
    rw [(readFrames_simulates 8 _).2.next.1]
    have hpart : frameCut 8 (image.take 10) = .more := by
      unfold frameCut
      rw [if_pos (by rw [List.length_take]; simp only [kWireHeaderBytes]; omega)]
    have hwhole : frameCut 8 image = .frame (greeting.sent [1, 2, 3], [1, 2, 3]) [] := by
      have hcut := frameCut_encoded (hsendable (greeting, [1, 2, 3]) (by simp)) []
      rw [List.append_nil] at hcut
      exact hcut
    have hempty : frameCut 8 [] = .more := (wireFraming 8).empty
    simp only [Framing.run, Framing.call, Framing.feed, Framing.next, wireFraming, List.nil_append, hpart,
      List.take_append_drop, hwhole, hempty]
  obtain ⟨-, -, hall⟩ := (frame_stream_reassembly 8).1 _ hsendable calls hfed
  refine ⟨hdrained, ?_⟩
  rw [hall hdrained]
  rfl

end Reassembly

end FabricReconciliation
