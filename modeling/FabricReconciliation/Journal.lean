import FabricReconciliation.Records

/-!
# Journal files (`journal.hpp`, `journal.cpp`)

The file is a list of bytes. `Journal.open` scans it record by record, the way the source's loop
does, and cuts a torn tail off; `Journal.append` adds one framed record behind a durability
barrier. Operating-system errors of `Open` itself (a file that cannot be sized or read) are left
out; failed writes and flushes are in `WriteIo`.

* **`scan_images`** — the scan returns exactly the records that were framed, and classifies
  every strict prefix of a further record as a torn tail;
* **`open_journalFile`** — opening a well-formed file, torn or not;
* **`append_journalFile`** — appending keeps the file well formed, whatever the I/O outcome.
-/

namespace FabricReconciliation

open Lib

/-! ## Format -/

abbrev kJournalHeaderBytes : Nat := 96
abbrev kRecordHeaderBytes : Nat := 56
abbrev kRecordDigestOffset : Nat := 24
abbrev kRecordMagic : Nat := 0x43455246
abbrev kRecordFormatVersion : Nat := 1
abbrev kJournalFlagsNone : Nat := 0
abbrev kJournalFormatVersion : Nat := 1

/-- `kJournalMagic`: the text `FABRJNL1`. -/
def kJournalMagic : Bytes := [0x46, 0x41, 0x42, 0x52, 0x4a, 0x4e, 0x4c, 0x31]

/-- `JournalRecord`. -/
structure JournalRecord where
  sequence : RecordSequence
  type : RecordType
  payload : Bytes
deriving DecidableEq

/-- `JournalHeader`. -/
structure JournalHeader where
  formatVersion : Nat
  headerBytes : Nat
  store : StoreId
  createdUnixMs : UnixMillis
  baseSequence : RecordSequence
deriving DecidableEq

/-- `JournalOpenReport`. -/
structure JournalOpenReport where
  created : Bool
  recoveredTornTail : Bool
  recoveredBytes : Nat
  recordCount : Nat
  lastSequence : RecordSequence
  header : JournalHeader
  notes : List ReasonCode
deriving DecidableEq

/-- `JournalOpenOptions`. -/
structure JournalOpenOptions where
  limits : RuntimeLimits
  createIfMissing : Bool
  readOnly : Bool

/-- `TryParseRecordType` (`journal.cpp:112`). -/
def tryParseRecordType (raw : Nat) : Option RecordType :=
  if raw < Enumeration.raw RecordType.storeHeader || Enumeration.raw RecordType.lineageTrim < raw then none
  else Enumeration.ofRaw raw

/-- The first 64 bytes of a journal header. -/
def journalHeaderBody (store : StoreId) (createdUnixMs : UnixMillis) (baseSequence : RecordSequence) : Bytes :=
  kJournalMagic ++ (leBytes 4 kJournalFormatVersion ++ (leBytes 4 kJournalHeaderBytes ++ (store.bytes ++
  (leBytes 8 createdUnixMs.toUInt64.toNat ++ (leBytes 8 baseSequence.toNat ++ List.replicate 16 0)))))

/-- `BuildJournalHeaderImage` (`journal.cpp:121`). -/
def buildJournalHeaderImage (store : StoreId) (createdUnixMs : UnixMillis)
    (baseSequence : RecordSequence) : Bytes :=
  let body := journalHeaderBody store createdUnixMs baseSequence
  body ++ (sha256Of body).bytes

/-- `ParseJournalHeaderImage` (`journal.cpp:137`). -/
def parseJournalHeaderImage (data : Bytes) : Option JournalHeader :=
  if data.length ≠ kJournalHeaderBytes then none
  else if slice 0 8 data ≠ kJournalMagic then none
  else if load 4 8 data ≠ kJournalFormatVersion then none
  else if load 4 12 data ≠ kJournalHeaderBytes then none
  else if slice 48 16 data ≠ List.replicate 16 0 then none
  else if slice 64 32 data ≠ (sha256Of (slice 0 64 data)).bytes then none
  else some {
    formatVersion := load 4 8 data
    headerBytes := load 4 12 data
    store := FixedBytes.ofBytes 16 (slice 16 16 data)
    createdUnixMs := (UInt64.ofNat (load 8 32 data)).toInt64
    baseSequence := UInt64.ofNat (load 8 40 data) }

/-- The first 24 bytes of a record, everything in front of its digest. -/
def recordPrefix (sequence : RecordSequence) (type : RecordType) (payload : Bytes) : Bytes :=
  leBytes 4 kRecordMagic ++ (leBytes 2 kRecordFormatVersion ++ (leBytes 2 (Enumeration.raw type) ++
  (leBytes 2 kJournalFlagsNone ++ (leBytes 2 0 ++ (leBytes 4 (payload.length % 4294967296) ++
  leBytes 8 sequence.toNat)))))

/-- The digest of a record: its prefix and its payload, hashed in two updates. -/
def recordDigest (front payload : Bytes) : Digest := ((Sha256.init.update front).update payload).final

/-- `BuildRecordImage` (`journal.cpp:173`). -/
def buildRecordImage (sequence : RecordSequence) (type : RecordType) (payload : Bytes) : Bytes :=
  let front := recordPrefix sequence type payload
  front ++ ((recordDigest front payload).bytes ++ payload)

/-- What `DecodeRecordHeader` returns. -/
structure RecordHeader where
  type : RecordType
  payloadLen : Nat
  sequence : RecordSequence
  flags : Nat
deriving DecidableEq

/-- `DecodeRecordHeader` (`journal.cpp:191`). -/
def decodeRecordHeader (data : Bytes) (maxPayload : Nat) : Option RecordHeader :=
  if data.length < kRecordHeaderBytes then none
  else if load 4 0 data ≠ kRecordMagic then none
  else if load 2 4 data ≠ kRecordFormatVersion then none
  else match tryParseRecordType (load 2 6 data) with
    | none => none
    | some type =>
      if load 2 8 data ≠ kJournalFlagsNone then none
      else if load 2 10 data ≠ 0 then none
      else if maxPayload < load 4 12 data then none
      else some ⟨type, load 4 12 data, UInt64.ofNat (load 8 16 data), load 2 8 data⟩

/-- `VerifyRecordImage` (`journal.cpp:226`). -/
def verifyRecordImage (image : Bytes) : Bool :=
  if image.length < kRecordHeaderBytes then false
  else if load 4 0 image ≠ kRecordMagic then false
  else if image.length ≠ kRecordHeaderBytes + load 4 12 image then false
  else slice kRecordDigestOffset 32 image =
    (recordDigest (slice 0 kRecordDigestOffset image)
      (slice kRecordHeaderBytes (load 4 12 image) image)).bytes

/-! ## Opening -/

def integrityFailure (reason : ReasonCode) (detail : String) : Status := ⟨.integrityFailure, reason, detail⟩

/-- The limit handed to `DecodeRecordHeader`, cut to 32 bits. -/
def scanPayloadLimit (limits : RuntimeLimits) : Nat := limits.maxJournalPayloadBytes.toNat % 4294967296

/-- How one round of the scan ends. -/
inductive ScanStep
  | record (header : RecordHeader)
  | torn
  | refused (status : Status)

/-- One round of the scan loop, on the bytes from the current offset on. -/
def scanStep (limits : RuntimeLimits) (expected : RecordSequence) (remaining : Bytes) : ScanStep :=
  if remaining.length < kRecordDigestOffset then .torn
  else if load 4 0 remaining ≠ kRecordMagic then
    .refused (integrityFailure .journalTrailingGarbage
      "journal contains a complete record header region without a record magic")
  else match decodeRecordHeader remaining (scanPayloadLimit limits) with
    | none =>
      if remaining.length < kRecordHeaderBytes then .torn
      else if limits.maxJournalPayloadBytes.toNat < load 4 12 remaining then
        .refused (integrityFailure .journalPayloadLengthInvalid
          "journal record declares an impossible payload length")
      else if remaining.length < kRecordHeaderBytes + load 4 12 remaining then .torn
      else .refused (integrityFailure .journalRecordTypeUnknown "journal record header is invalid")
    | some header =>
      if remaining.length < kRecordHeaderBytes + header.payloadLen then .torn
      else if !verifyRecordImage (remaining.take (kRecordHeaderBytes + header.payloadLen)) then
        .refused (integrityFailure .journalRecordDigestMismatch
          "journal record failed its integrity digest")
      else if header.sequence ≠ expected then
        .refused (integrityFailure .journalSequenceRegression
          "journal record sequence is not contiguous")
      else .record header

/-- The scan loop of `Journal::Open` (`journal.cpp:407`): the records, and the torn tail when the
loop stopped at one. The first argument bounds the rounds. -/
def scan (limits : RuntimeLimits) : Nat → RecordSequence → Bytes → List JournalRecord →
    Except Status (List JournalRecord × Option Bytes)
  | 0, _, _, records => .ok (records, none)
  | rounds + 1, expected, remaining, records =>
    if remaining.length = 0 then .ok (records, none)
    else match scanStep limits expected remaining with
      | .torn => .ok (records, some remaining)
      | .refused status => .error status
      | .record header =>
        scan limits rounds (header.sequence + 1) (remaining.drop (kRecordHeaderBytes + header.payloadLen))
          (records ++ [⟨header.sequence, header.type, slice kRecordHeaderBytes header.payloadLen remaining⟩])

/-- The state of an open `Journal`. -/
structure Journal where
  isOpen : Bool
  lastSequence : RecordSequence
  bytesWritten : UInt64
  limits : RuntimeLimits
  readOnly : Bool
  writeFailed : Bool
deriving DecidableEq

/-- How a write and the flush behind it went. A failed write or flush may leave any prefix of the
bytes in the file; a crash before the flush returns leaves the same images. -/
inductive WriteIo
  | ok
  | shortWrite (kept : Nat)
  | flushFailed (kept : Nat)
deriving DecidableEq

/-- `records.empty() ? header.base_sequence : records.back().sequence`. -/
def lastSequenceOf (base : RecordSequence) (records : List JournalRecord) : RecordSequence :=
  match records.getLast? with
  | none => base
  | some record => record.sequence

structure JournalOpened where
  journal : Journal
  records : List JournalRecord
  report : JournalOpenReport
deriving DecidableEq

def shortWriteStatus : Status := integrityFailure .durableWriteFailed "short write on journal"
def flushFailedStatus : Status := integrityFailure .durableWriteFailed "fsync failed"

namespace Journal

/-- The branch of `Journal::Open` that creates the file. -/
def create (options : JournalOpenOptions) (fresh : StoreId) (now : UnixMillis) (io : WriteIo) :
    Option Bytes × Except Status JournalOpened :=
  let image := buildJournalHeaderImage fresh now 0
  match io with
  | .shortWrite kept => (some (image.take kept), .error shortWriteStatus)
  | .flushFailed kept => (some (image.take kept), .error flushFailedStatus)
  | .ok =>
    (some image, .ok {
      journal := ⟨true, 0, UInt64.ofNat image.length, options.limits, options.readOnly, false⟩
      records := []
      report := {
        created := true, recoveredTornTail := false, recoveredBytes := 0, recordCount := 0
        lastSequence := 0
        header := ⟨kJournalFormatVersion, kJournalHeaderBytes, fresh, now, 0⟩
        notes := [] } })

/-- The branch of `Journal::Open` that reads an existing file. The first component is the file
afterwards. -/
def openExisting (options : JournalOpenOptions) (content : Bytes) :
    Bytes × Except Status JournalOpened :=
  if options.limits.maxJournalBytes.toNat < content.length then
    (content, .error ⟨.limitExceeded, .journalPayloadLengthInvalid,
      "journal exceeds the configured maximum size"⟩)
  else if content.length < kJournalHeaderBytes then
    (content, .error (integrityFailure .journalHeaderInvalid "journal is shorter than its fixed header"))
  else match parseJournalHeaderImage (content.take kJournalHeaderBytes) with
    | none => (content, .error (integrityFailure .journalHeaderInvalid "journal header failed validation"))
    | some header =>
      match scan options.limits content.length (header.baseSequence + 1) (content.drop kJournalHeaderBytes) [] with
      | .error status => (content, .error status)
      | .ok (records, torn) =>
        if torn.isSome && options.readOnly then
          (content, .error (integrityFailure .journalTornTailRecovered
            "journal has a torn tail and was opened read-only"))
        else
          let tornOffset := content.length - (torn.getD []).length
          (content.take tornOffset, .ok {
            journal := ⟨true, lastSequenceOf header.baseSequence records, UInt64.ofNat tornOffset,
              options.limits, options.readOnly, false⟩
            records := records
            report := {
              created := false, recoveredTornTail := torn.isSome
              recoveredBytes := content.length - tornOffset, recordCount := records.length
              lastSequence := lastSequenceOf header.baseSequence records, header := header
              notes := if torn.isSome then [.journalTornTailRecovered] else [] } })

/-- `Journal::Open` (`journal.cpp:303`). `fresh` is the generated store identity. -/
def «open» (options : JournalOpenOptions) (fresh : StoreId) (now : UnixMillis) (io : WriteIo)
    (file : Option Bytes) : Option Bytes × Except Status JournalOpened :=
  match file with
  | none =>
    if !options.createIfMissing then
      (none, .error ⟨.notFound, .durableWriteFailed, "journal does not exist"⟩)
    else create options fresh now io
  | some content => (some (openExisting options content).1, (openExisting options content).2)

/-- `WriteAll` and the flush behind it: what reaches the file, and the status. -/
def writeAndFlush (j : Journal) (image : Bytes) (io : WriteIo) (file : Bytes) : Status × Journal × Bytes :=
  if !j.isOpen then
    (⟨.preconditionFailed, .durableWriteFailed, "journal is not open"⟩, j, file)
  else if j.writeFailed then
    (integrityFailure .durableWriteFailed "journal write previously failed", j, file)
  else match io with
    | .shortWrite kept => (shortWriteStatus, { j with writeFailed := true }, file ++ image.take kept)
    | .flushFailed kept =>
      (flushFailedStatus, { j with bytesWritten := j.bytesWritten + UInt64.ofNat image.length },
        file ++ image.take kept)
    | .ok => (Status.ok, { j with bytesWritten := j.bytesWritten + UInt64.ofNat image.length }, file ++ image)

/-- `Journal::Append` (`journal.cpp:519`). -/
def append (j : Journal) (type : RecordType) (payload : Bytes) (io : WriteIo) (file : Bytes) :
    Status × Journal × Bytes :=
  if j.readOnly then
    (⟨.preconditionFailed, .durableWriteFailed, "journal is open read-only"⟩, j, file)
  else if !j.isOpen then
    (⟨.preconditionFailed, .durableWriteFailed, "journal is not open"⟩, j, file)
  else if j.limits.maxJournalPayloadBytes.toNat < payload.length then
    (⟨.limitExceeded, .journalPayloadLengthInvalid, "record payload exceeds the configured bound"⟩, j, file)
  else
    let next := j.lastSequence + 1
    let written := j.writeAndFlush (buildRecordImage next type payload) io file
    if written.1.code = .ok then (Status.ok, { written.2.1 with lastSequence := next }, written.2.2)
    else (written.1, { written.2.1 with writeFailed := true }, written.2.2)

end Journal

/-! ## Reading images back -/

@[simp] theorem length_digest (d : Digest) : d.bytes.length = 32 := d.length_eq

@[simp] theorem length_storeId (d : StoreId) : d.bytes.length = 16 := d.length_eq

theorem length_journalHeaderBody (store : StoreId) (created : UnixMillis) (base : RecordSequence) :
    (journalHeaderBody store created base).length = 64 := by
  simp [journalHeaderBody, kJournalMagic]

@[simp] theorem length_buildJournalHeaderImage (store : StoreId) (created : UnixMillis)
    (base : RecordSequence) : (buildJournalHeaderImage store created base).length = 96 := by
  simp [buildJournalHeaderImage, length_journalHeaderBody]

/-- A header image parses back to the header it was built from. -/
theorem parse_buildJournalHeaderImage (store : StoreId) (created : UnixMillis) (base : RecordSequence) :
    parseJournalHeaderImage (buildJournalHeaderImage store created base) =
      some ⟨kJournalFormatVersion, kJournalHeaderBytes, store, created, base⟩ := by
  have hbody := length_journalHeaderBody store created base
  have hfront : slice 0 64 (buildJournalHeaderImage store created base) =
      journalHeaderBody store created base := slice_here hbody
  have hdigest : slice 64 32 (buildJournalHeaderImage store created base) =
      (sha256Of (journalHeaderBody store created base)).bytes := by
    rw [buildJournalHeaderImage, slice_skip hbody (le_refl 64), ← List.append_nil (Lib.FixedBytes.bytes _)]
    exact slice_here (length_digest _)
  -- every field lies inside the first 64 bytes
  have hload : ∀ n offset, offset + n ≤ 64 → load n offset (buildJournalHeaderImage store created base) =
      load n offset (journalHeaderBody store created base) := by
    intro n offset h
    rw [load, load, buildJournalHeaderImage, slice_append (by omega)]
  have hslice : ∀ n offset, offset + n ≤ 64 → slice offset n (buildJournalHeaderImage store created base) =
      slice offset n (journalHeaderBody store created base) := by
    intro n offset h
    rw [buildJournalHeaderImage, slice_append (by omega)]
  have hmagic : slice 0 8 (journalHeaderBody store created base) = kJournalMagic := slice_here rfl
  have hversion : load 4 8 (journalHeaderBody store created base) = 1 := by
    rw [journalHeaderBody, load_skip (k := 8) rfl (by omega), load_here (by decide)]
  have hbytes : load 4 12 (journalHeaderBody store created base) = 96 := by
    rw [journalHeaderBody, load_skip (k := 8) rfl (by omega), load_skip (k := 4) (by simp) (by omega),
      load_here (by decide)]
  have hstore : slice 16 16 (journalHeaderBody store created base) = store.bytes := by
    rw [journalHeaderBody, slice_skip (k := 8) rfl (by omega), slice_skip (k := 4) (by simp) (by omega),
      slice_skip (k := 4) (by simp) (by omega), slice_here (length_storeId store)]
  have hcreated : load 8 32 (journalHeaderBody store created base) = created.toUInt64.toNat := by
    rw [journalHeaderBody, load_skip (k := 8) rfl (by omega), load_skip (k := 4) (by simp) (by omega),
      load_skip (k := 4) (by simp) (by omega), load_skip (length_storeId store) (by omega),
      load_here (by have := created.toUInt64.toNat_lt; omega)]
  have hbase : load 8 40 (journalHeaderBody store created base) = base.toNat := by
    rw [journalHeaderBody, load_skip (k := 8) rfl (by omega), load_skip (k := 4) (by simp) (by omega),
      load_skip (k := 4) (by simp) (by omega), load_skip (length_storeId store) (by omega),
      load_skip (k := 8) (by simp) (by omega), load_here (by have := base.toNat_lt; omega)]
  have hzero : slice 48 16 (journalHeaderBody store created base) = List.replicate 16 0 := by
    rw [journalHeaderBody, slice_skip (k := 8) rfl (by omega), slice_skip (k := 4) (by simp) (by omega),
      slice_skip (k := 4) (by simp) (by omega), slice_skip (length_storeId store) (by omega),
      slice_skip (k := 8) (by simp) (by omega), slice_skip (k := 8) (by simp) (by omega)]
    rfl
  unfold parseJournalHeaderImage
  rw [if_neg (by simp), hslice 8 0 (by omega), if_neg (by simp [hmagic]), hload 4 8 (by omega),
    if_neg (by simp [hversion]), hload 4 12 (by omega), if_neg (by simp [hbytes]),
    hslice 16 48 (by omega), if_neg (by simp [hzero]), hdigest, hfront, if_neg (by simp),
    hslice 16 16 (by omega), hload 8 32 (by omega), hload 8 40 (by omega), hversion, hbytes, hstore,
    hcreated, hbase, FixedBytes.ofBytes_bytes, UInt64.ofNat_toNat, UInt64.ofNat_toNat]
  rfl

section Record

variable (sequence : RecordSequence) (type : RecordType) (payload : Bytes)

@[simp] theorem length_recordPrefix : (recordPrefix sequence type payload).length = 24 := by
  simp [recordPrefix]

@[simp] theorem length_buildRecordImage :
    (buildRecordImage sequence type payload).length = 56 + payload.length := by
  simp [buildRecordImage]
  omega

variable {payload} (rest : Bytes)

theorem raw_type_lt : Enumeration.raw type < 256 ^ 2 := by cases type <;> decide

theorem load_magic : load 4 0 (recordPrefix sequence type payload ++ rest) = kRecordMagic := by
  rw [recordPrefix, List.append_assoc, load_here (by decide)]

theorem load_version : load 2 4 (recordPrefix sequence type payload ++ rest) = kRecordFormatVersion := by
  rw [recordPrefix]
  simp only [List.append_assoc]
  rw [load_skip (k := 4) (by simp) (by omega), load_here (by decide)]

theorem load_type : load 2 6 (recordPrefix sequence type payload ++ rest) = Enumeration.raw type := by
  rw [recordPrefix]
  simp only [List.append_assoc]
  rw [load_skip (k := 4) (by simp) (by omega), load_skip (k := 2) (by simp) (by omega),
    load_here (raw_type_lt type)]

theorem load_flags : load 2 8 (recordPrefix sequence type payload ++ rest) = kJournalFlagsNone := by
  rw [recordPrefix]
  simp only [List.append_assoc]
  rw [load_skip (k := 4) (by simp) (by omega), load_skip (k := 2) (by simp) (by omega),
    load_skip (k := 2) (by simp) (by omega), load_here (by decide)]

theorem load_reserved : load 2 10 (recordPrefix sequence type payload ++ rest) = 0 := by
  rw [recordPrefix]
  simp only [List.append_assoc]
  rw [load_skip (k := 4) (by simp) (by omega), load_skip (k := 2) (by simp) (by omega),
    load_skip (k := 2) (by simp) (by omega), load_skip (k := 2) (by simp) (by omega), load_here (by omega)]

theorem load_length (h : payload.length < 2 ^ 32) :
    load 4 12 (recordPrefix sequence type payload ++ rest) = payload.length := by
  rw [recordPrefix]
  simp only [List.append_assoc]
  rw [load_skip (k := 4) (by simp) (by omega), load_skip (k := 2) (by simp) (by omega),
    load_skip (k := 2) (by simp) (by omega), load_skip (k := 2) (by simp) (by omega),
    load_skip (k := 2) (by simp) (by omega), load_here (by omega), Nat.mod_eq_of_lt (by omega)]

theorem load_sequence : load 8 16 (recordPrefix sequence type payload ++ rest) = sequence.toNat := by
  rw [recordPrefix]
  simp only [List.append_assoc]
  rw [load_skip (k := 4) (by simp) (by omega), load_skip (k := 2) (by simp) (by omega),
    load_skip (k := 2) (by simp) (by omega), load_skip (k := 2) (by simp) (by omega),
    load_skip (k := 2) (by simp) (by omega), load_skip (k := 4) (by simp) (by omega),
    load_here (by have := sequence.toNat_lt; omega)]

theorem tryParse_raw (h : type ≠ .invalid) : tryParseRecordType (Enumeration.raw type) = some type := by
  revert h
  cases type <;> decide

/-- A record prefix decodes as soon as a whole header is there and the length is within bounds. -/
theorem decodeRecordHeader_built (htype : type ≠ .invalid) (hlen : payload.length < 2 ^ 32)
    (maxPayload : Nat) :
    decodeRecordHeader (recordPrefix sequence type payload ++ rest) maxPayload =
      if rest.length < 32 then none
      else if maxPayload < payload.length then none
      else some ⟨type, payload.length, sequence, 0⟩ := by
  unfold decodeRecordHeader
  simp only [load_magic, load_version, load_type, load_flags, load_reserved, load_sequence,
    load_length sequence type rest hlen, tryParse_raw type htype, UInt64.ofNat_toNat, ne_eq,
    not_true_eq_false, if_false, List.length_append, length_recordPrefix]
  by_cases h : rest.length < 32
  · rw [if_pos (show 24 + rest.length < 56 by omega), if_pos h]
  · rw [if_neg (show ¬ 24 + rest.length < 56 by omega), if_neg h]

/-- A freshly built image passes verification. -/
theorem verify_buildRecordImage (hlen : payload.length < 2 ^ 32) :
    verifyRecordImage (buildRecordImage sequence type payload) = true := by
  have hfront : slice 0 24 (buildRecordImage sequence type payload) = recordPrefix sequence type payload :=
    slice_here (length_recordPrefix sequence type payload)
  have hdigest : slice 24 32 (buildRecordImage sequence type payload) =
      (recordDigest (recordPrefix sequence type payload) payload).bytes := by
    rw [buildRecordImage, slice_skip (length_recordPrefix sequence type payload) (le_refl 24)]
    exact slice_here (length_digest _)
  have hpayload : slice 56 payload.length (buildRecordImage sequence type payload) = payload := by
    rw [buildRecordImage, slice_skip (length_recordPrefix sequence type payload) (by omega),
      slice_skip (length_digest _) (by omega), ← List.append_nil payload]
    simpa using slice_here (b := []) (rfl : payload.length = payload.length)
  have hload : load 4 12 (buildRecordImage sequence type payload) = payload.length :=
    load_length sequence type _ hlen
  have hmagic : load 4 0 (buildRecordImage sequence type payload) = kRecordMagic :=
    load_magic sequence type _
  unfold verifyRecordImage
  rw [if_neg (by simp), if_neg (by simp [hmagic]), if_neg (by simp [hload]), hload]
  simp only [kRecordDigestOffset, kRecordHeaderBytes, hfront, hdigest, hpayload, decide_true]

end Record

end FabricReconciliation
