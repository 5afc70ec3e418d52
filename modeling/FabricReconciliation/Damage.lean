import FabricReconciliation.Recovery

/-!
# Journals read from arbitrary bytes (`journal.cpp:137-242`, `journal.cpp:399-501`)

Nothing is assumed about the file here. `Scans` is the scan loop as the source has it, without a bound
on its rounds.

* **`scans_iff`** — the loop ends on every input, and `scan` with enough rounds is its result;
* **`scan_sound`** — what the loop accepts is a sequence of record images, byte for byte;
* **`open_sound`** — `Journal::Open` on any file;
* **`open_altered`** — what it does to a journal whose records were altered.
-/

namespace FabricReconciliation

open Lib

/-! ## Accepted headers and records -/

theorem load_lt_word (n offset : Nat) (data : Bytes) (h : offset + n ≤ data.length) : load n offset data < 256 ^ n := by
  have hsize : (slice offset n data).length = n := by
    simp only [slice, List.length_take, List.length_drop]
    omega
  have hlt := leValue_lt (slice offset n data)
  rw [hsize] at hlt
  exact hlt

theorem slice_eq_word {offset : Nat} {data : Bytes} (h : offset + 8 ≤ data.length) :
    slice offset 8 data = leBytes 8 (UInt64.ofNat (load 8 offset data)).toNat := by
  rw [UInt64.toNat_ofNat_of_lt' (load_lt_word 8 offset data h)]
  exact slice_eq_leBytes rfl h

/-- The fields `ParseJournalHeaderImage` checks are those `BuildJournalHeaderImage` writes. -/
theorem take_journalHeaderBody {data : Bytes} (hlength : data.length = 96) (hmagic : slice 0 8 data = kJournalMagic)
    (hversion : load 4 8 data = kJournalFormatVersion) (hbytes : load 4 12 data = kJournalHeaderBytes)
    (hzero : slice 48 16 data = List.replicate 16 0) :
    data.take 64 = journalHeaderBody (FixedBytes.ofBytes 16 (slice 16 16 data))
      (UInt64.ofNat (load 8 32 data)).toInt64 (UInt64.ofNat (load 8 40 data)) := by
  have hstore : (slice 16 16 data).length = 16 := by simp [slice, hlength]
  have hfront : data.take 8 = kJournalMagic := hmagic
  rw [show 64 = 8 + 4 + 4 + 16 + 8 + 8 + 16 from rfl, take_slice, take_slice, take_slice, take_slice, take_slice,
    take_slice, hfront, slice_eq_leBytes hversion (by omega), slice_eq_leBytes hbytes (by omega),
    slice_eq_word (by omega), slice_eq_word (by omega), hzero]
  simp only [journalHeaderBody, List.append_assoc, UInt64.toUInt64_toInt64, FixedBytes.bytes_ofBytes hstore]

/-- An accepted header is the image of what it was parsed to. -/
theorem parseJournalHeaderImage_sound {data : Bytes} {header : JournalHeader}
    (h : parseJournalHeaderImage data = some header) :
    data = buildJournalHeaderImage header.store header.createdUnixMs header.baseSequence ∧
      header = ⟨kJournalFormatVersion, kJournalHeaderBytes, header.store, header.createdUnixMs,
        header.baseSequence⟩ := by
  unfold parseJournalHeaderImage at h
  by_cases hlength : data.length ≠ kJournalHeaderBytes
  · simp [hlength] at h
  rw [if_neg hlength] at h
  by_cases hmagic : slice 0 8 data ≠ kJournalMagic
  · simp [hmagic] at h
  rw [if_neg hmagic] at h
  by_cases hversion : load 4 8 data ≠ kJournalFormatVersion
  · simp [hversion] at h
  rw [if_neg hversion] at h
  by_cases hbytes : load 4 12 data ≠ kJournalHeaderBytes
  · simp [hbytes] at h
  rw [if_neg hbytes] at h
  by_cases hzero : slice 48 16 data ≠ List.replicate 16 0
  · rw [if_pos hzero] at h
    simp at h
  rw [if_neg hzero] at h
  by_cases hdigest : slice 64 32 data ≠ (sha256Of (slice 0 64 data)).bytes
  · simp [hdigest] at h
  rw [if_neg hdigest, Option.some.injEq] at h
  subst h
  push Not at hlength hmagic hversion hbytes hzero hdigest
  have hbody := take_journalHeaderBody hlength hmagic hversion hbytes hzero
  have hdigest : slice 64 32 data = (sha256Of (data.take 64)).bytes := hdigest
  refine ⟨?_, by rw [hversion, hbytes]⟩
  unfold buildJournalHeaderImage
  simp only
  rw [← hbody, ← hdigest, ← take_slice, List.take_of_length_le (le_of_eq hlength)]

theorem tryParseRecordType_sound {raw : Nat} {type : RecordType} (h : tryParseRecordType raw = some type) :
    type ≠ .invalid ∧ raw = Enumeration.raw type := by
  unfold tryParseRecordType at h
  split at h
  · simp at h
  next hrange =>
    obtain ⟨hlt, htype⟩ := List.getElem?_eq_some_iff.mp h
    have hnodup : (Enumeration.table : List RecordType).Nodup := by decide
    have hraw : Enumeration.raw type = raw := by
      rw [← htype]
      exact hnodup.idxOf_getElem raw hlt
    refine ⟨?_, hraw.symm⟩
    rintro rfl
    rw [← hraw] at hrange
    exact hrange (by decide)

/-- What one round of the loop accepts. -/
structure Accepts (limits : RuntimeLimits) (expected : RecordSequence) (remaining : Bytes) (header : RecordHeader) :
    Prop where
  sequence : header.sequence = expected
  type : header.type ≠ .invalid
  bound : header.payloadLen ≤ scanPayloadLimit limits
  size : kRecordHeaderBytes + header.payloadLen ≤ remaining.length
  image : remaining.take (kRecordHeaderBytes + header.payloadLen) =
    buildRecordImage expected header.type (slice kRecordHeaderBytes header.payloadLen remaining)

theorem slice_take {offset n m : Nat} {bs : Bytes} (h : offset + n ≤ m) (hm : m ≤ bs.length) :
    slice offset n (bs.take m) = slice offset n bs := by
  have happend : offset + n ≤ (bs.take m).length := by
    rw [List.length_take, Nat.min_eq_left hm]
    exact h
  have hsplit := slice_append (b := bs.drop m) happend
  rw [List.take_append_drop] at hsplit
  exact hsplit.symm

/-- What `DecodeRecordHeader` has checked. -/
theorem decodeRecordHeader_sound {data : Bytes} {maxPayload : Nat} {header : RecordHeader}
    (h : decodeRecordHeader data maxPayload = some header) :
    header.type ≠ .invalid ∧ header.payloadLen ≤ maxPayload ∧ header.payloadLen = load 4 12 data ∧
      kRecordHeaderBytes ≤ data.length ∧ data.take 24 = leBytes 4 kRecordMagic ++ (leBytes 2 kRecordFormatVersion ++
        (leBytes 2 (Enumeration.raw header.type) ++ (leBytes 2 kJournalFlagsNone ++ (leBytes 2 0 ++
        (leBytes 4 header.payloadLen ++ leBytes 8 header.sequence.toNat))))) := by
  unfold decodeRecordHeader at h
  by_cases hlength : data.length < kRecordHeaderBytes
  · simp [hlength] at h
  rw [if_neg hlength] at h
  by_cases hmagic : load 4 0 data ≠ kRecordMagic
  · simp [hmagic] at h
  rw [if_neg hmagic] at h
  by_cases hversion : load 2 4 data ≠ kRecordFormatVersion
  · simp [hversion] at h
  rw [if_neg hversion] at h
  cases htype : tryParseRecordType (load 2 6 data) with
  | none => simp [htype] at h
  | some type =>
    simp only [htype] at h
    by_cases hflags : load 2 8 data ≠ kJournalFlagsNone
    · simp [hflags] at h
    rw [if_neg hflags] at h
    by_cases hreserved : load 2 10 data ≠ 0
    · simp [hreserved] at h
    rw [if_neg hreserved] at h
    by_cases hpayload : maxPayload < load 4 12 data
    · simp [hpayload] at h
    rw [if_neg hpayload, Option.some.injEq] at h
    subst h
    push Not at hlength hmagic hversion hflags hreserved hpayload
    have hlength : 56 ≤ data.length := hlength
    obtain ⟨hvalid, hraw⟩ := tryParseRecordType_sound htype
    refine ⟨hvalid, hpayload, rfl, hlength, ?_⟩
    have hfront : data.take 4 = leBytes 4 kRecordMagic := slice_eq_leBytes hmagic (by omega)
    rw [show 24 = 4 + 2 + 2 + 2 + 2 + 4 + 8 from rfl, take_slice, take_slice, take_slice, take_slice, take_slice,
      take_slice, hfront, slice_eq_leBytes hversion (by omega), slice_eq_leBytes hraw (by omega),
      slice_eq_leBytes hflags (by omega), slice_eq_leBytes hreserved (by omega), slice_eq_leBytes rfl (by omega),
      slice_eq_word (by omega)]
    simp only [List.append_assoc]

/-- A round that goes on has accepted a record image. -/
theorem scanStep_record {limits : RuntimeLimits} {expected : RecordSequence} {remaining : Bytes}
    {header : RecordHeader} (h : scanStep limits expected remaining = .record header) :
    Accepts limits expected remaining header := by
  unfold scanStep at h
  by_cases hshort : remaining.length < kRecordDigestOffset
  · simp [hshort] at h
  rw [if_neg hshort] at h
  by_cases hmagic : load 4 0 remaining ≠ kRecordMagic
  · simp [hmagic] at h
  rw [if_neg hmagic] at h
  cases hdecode : decodeRecordHeader remaining (scanPayloadLimit limits) with
  | none =>
    simp only [hdecode] at h
    split at h
    · simp at h
    split at h
    · simp at h
    split at h <;> simp at h
  | some decoded =>
    simp only [hdecode] at h
    by_cases hsize : remaining.length < kRecordHeaderBytes + decoded.payloadLen
    · simp [hsize] at h
    rw [if_neg hsize] at h
    by_cases hverify : (!verifyRecordImage (remaining.take (kRecordHeaderBytes + decoded.payloadLen))) = true
    · simp [hverify] at h
    rw [if_neg hverify] at h
    by_cases hsequence : decoded.sequence ≠ expected
    · simp [hsequence] at h
    rw [if_neg hsequence, ScanStep.record.injEq] at h
    subst h
    push Not at hsize hsequence
    have hsize : 56 + decoded.payloadLen ≤ remaining.length := hsize
    obtain ⟨hvalid, hbound, hlen, -, hleading⟩ := decodeRecordHeader_sound hdecode
    refine ⟨hsequence, hvalid, hbound, hsize, ?_⟩
    have hpayload : (slice 56 decoded.payloadLen remaining).length = decoded.payloadLen := by
      simp only [slice, List.length_take, List.length_drop]
      omega
    have hword : decoded.payloadLen < 4294967296 := by
      rw [hlen]
      exact load_lt_word 4 12 remaining (by omega)
    have hfront : remaining.take 24 = recordPrefix expected decoded.type (slice 56 decoded.payloadLen remaining) := by
      rw [hleading, recordPrefix, hpayload, Nat.mod_eq_of_lt hword, hsequence]
    -- the digest is taken over the two stretches around it
    have hdigest : slice 24 32 remaining = (recordDigest (remaining.take 24)
        (slice 56 decoded.payloadLen remaining)).bytes := by
      have hload : load 4 12 (remaining.take (56 + decoded.payloadLen)) = decoded.payloadLen := by
        rw [hlen, load, slice_take (by omega) (by omega), load]
      simp only [verifyRecordImage, kRecordHeaderBytes, kRecordDigestOffset, hload, Bool.not_eq_true,
        Bool.not_eq_false'] at hverify
      split at hverify
      · simp at hverify
      split at hverify
      · simp at hverify
      split at hverify
      · simp at hverify
      rw [decide_eq_true_eq, slice_take (by omega) hsize, slice_take (by omega) hsize,
        slice_take (by omega) hsize] at hverify
      exact hverify
    show remaining.take (24 + 32 + decoded.payloadLen) = _
    rw [take_slice, take_slice, hdigest, hfront]
    simp only [buildRecordImage, List.append_assoc]

/-- The loop of `Journal::Open` (`journal.cpp:407`) with its result, in as many rounds as it takes. -/
inductive Scans (limits : RuntimeLimits) : RecordSequence → Bytes → List JournalRecord →
    Except Status (List JournalRecord × Option Bytes) → Prop
  | done (expected : RecordSequence) (acc : List JournalRecord) : Scans limits expected [] acc (.ok (acc, none))
  | torn {expected : RecordSequence} {remaining : Bytes} (acc : List JournalRecord) (hne : remaining ≠ [])
      (h : scanStep limits expected remaining = .torn) :
      Scans limits expected remaining acc (.ok (acc, some remaining))
  | refused {expected : RecordSequence} {remaining : Bytes} {status : Status} (acc : List JournalRecord)
      (hne : remaining ≠ []) (h : scanStep limits expected remaining = .refused status) :
      Scans limits expected remaining acc (.error status)
  | record {expected : RecordSequence} {remaining : Bytes} {header : RecordHeader} {acc : List JournalRecord}
      {result : Except Status (List JournalRecord × Option Bytes)} (hne : remaining ≠ [])
      (h : scanStep limits expected remaining = .record header)
      (hrest : Scans limits (header.sequence + 1) (remaining.drop (kRecordHeaderBytes + header.payloadLen))
        (acc ++ [⟨header.sequence, header.type, slice kRecordHeaderBytes header.payloadLen remaining⟩]) result) :
      Scans limits expected remaining acc result

section Loop

variable {limits : RuntimeLimits} {remaining : Bytes} {acc records : List JournalRecord} {torn : Option Bytes}

/-- Every round that goes on consumes at least a record header. -/
theorem length_drop_record {rounds : Nat} (payloadLen : Nat) (hrounds : remaining.length ≤ rounds + 1) :
    (remaining.drop (kRecordHeaderBytes + payloadLen)).length ≤ rounds := by
  rw [List.length_drop]
  simp only [kRecordHeaderBytes]
  omega

/-- The loop reaches its end within as many rounds as there are bytes. -/
theorem scan_scans : ∀ {rounds : Nat} {expected : RecordSequence} {remaining : Bytes} {acc : List JournalRecord},
    remaining.length ≤ rounds → Scans limits expected remaining acc (scan limits rounds expected remaining acc) := by
  intro rounds
  induction rounds with
  | zero =>
    intro expected remaining acc hrounds
    rw [List.length_eq_zero_iff.mp (Nat.le_zero.mp hrounds)]
    exact .done expected acc
  | succ rounds ih =>
    intro expected remaining acc hrounds
    unfold scan
    by_cases hempty : remaining.length = 0
    · rw [if_pos hempty, List.length_eq_zero_iff.mp hempty]
      exact .done expected acc
    rw [if_neg hempty]
    have hne : remaining ≠ [] := fun hnil => hempty (by rw [hnil]; rfl)
    cases hstep : scanStep limits expected remaining with
    | torn => exact .torn acc hne hstep
    | refused status => exact .refused acc hne hstep
    | record header => exact .record hne hstep (ih (length_drop_record header.payloadLen hrounds))

/-- **`scans_iff`**. -/
theorem scans_iff {expected : RecordSequence} {rounds : Nat} (hrounds : remaining.length ≤ rounds)
    {result : Except Status (List JournalRecord × Option Bytes)} :
    Scans limits expected remaining acc result ↔ scan limits rounds expected remaining acc = result := by
  constructor
  · intro h
    induction h generalizing rounds with
    | done expected acc => cases rounds <;> rfl
    | torn acc hne h =>
      have hpos := List.length_pos_of_ne_nil hne
      cases rounds with
      | zero => omega
      | succ rounds => rw [scan, if_neg (by omega), h]
    | refused acc hne h =>
      have hpos := List.length_pos_of_ne_nil hne
      cases rounds with
      | zero => omega
      | succ rounds => rw [scan, if_neg (by omega), h]
    | record hne h hrest ih =>
      have hpos := List.length_pos_of_ne_nil hne
      cases rounds with
      | zero => omega
      | succ rounds =>
        rw [scan, if_neg (by omega), h]
        exact ih (length_drop_record _ hrounds)
  · rintro rfl
    exact scan_scans hrounds

/-- **`scan_sound`**: the bytes are the images of the returned records and the torn tail. -/
theorem scan_sound {last : RecordSequence} (h : Scans limits (last + 1) remaining acc (.ok (records, torn))) :
    ∃ entries, records = acc ++ framed last entries ∧ remaining = recordImages last entries ++ torn.getD [] := by
  generalize hexpected : last + 1 = expected at h
  generalize hresult : (Except.ok (records, torn) : Except Status (List JournalRecord × Option Bytes)) = result at h
  induction h generalizing last with
  | done expected acc =>
    rw [Except.ok.injEq, Prod.mk.injEq] at hresult
    exact ⟨[], by simp [framed, hresult.1], by simp [recordImages, framed, hresult.2]⟩
  | torn acc hne h =>
    rw [Except.ok.injEq, Prod.mk.injEq] at hresult
    exact ⟨[], by simp [framed, hresult.1], by simp [recordImages, framed, hresult.2]⟩
  | refused acc hne h => simp at hresult
  | @record expected remaining header acc result hne h hrest ih =>
    have haccepts := scanStep_record h
    obtain ⟨entries, hrecords, hbytes⟩ := @ih header.sequence rfl hresult
    rw [haccepts.sequence, ← hexpected] at hrecords hbytes
    refine ⟨(header.type, slice kRecordHeaderBytes header.payloadLen remaining) :: entries, ?_, ?_⟩
    · rw [hrecords]
      simp [framed]
    · rw [recordImages_cons, List.append_assoc, ← hbytes, hexpected, ← haccepts.image, List.take_append_drop]

end Loop

/-! ## Opening any file -/

/-- **`open_sound`**: the scan ends; an error changes nothing; otherwise the file is cut to a header and the images
of exactly the returned records, and not cut at all when it is opened read-only. -/
theorem open_sound (options : JournalOpenOptions) (fresh : StoreId) (now : UnixMillis) (io : WriteIo) (f : Bytes) :
    (∀ expected, ∃ result, Scans options.limits expected (f.drop kJournalHeaderBytes) [] result ∧
      ∀ rounds, f.length ≤ rounds → scan options.limits rounds expected (f.drop kJournalHeaderBytes) [] = result) ∧
    (∀ status, (Journal.open options fresh now io (some f)).2 = .error status →
      (Journal.open options fresh now io (some f)).1 = some f) ∧
    ∀ opened, (Journal.open options fresh now io (some f)).2 = .ok opened →
      ∃ store created base entries file,
        parseJournalHeaderImage (f.take kJournalHeaderBytes) = some opened.report.header ∧
        opened.report.header.baseSequence = base ∧
        f.take kJournalHeaderBytes = buildJournalHeaderImage store created base ∧
        opened.records = framed base entries ∧
        (Journal.open options fresh now io (some f)).1 = some file ∧ file <+: f ∧
        file = buildJournalHeaderImage store created base ++ recordImages base entries ∧
        (options.readOnly = true → file = f) := by
  refine ⟨?_, ?_, ?_⟩
  · intro expected
    have hlength : (f.drop kJournalHeaderBytes).length ≤ f.length := by simp
    refine ⟨_, scan_scans hlength, ?_⟩
    intro rounds hrounds
    exact (scans_iff (le_trans hlength hrounds)).mp (scan_scans hlength)
  · intro status herror
    simp only [Journal.open] at herror ⊢
    unfold Journal.openExisting at herror ⊢
    split
    · rfl
    rw [if_neg (by assumption)] at herror
    split
    · rfl
    rw [if_neg (by assumption)] at herror
    split
    · rfl
    next header hparse =>
      simp only [hparse] at herror
      split
      · rfl
      next records torn hscan =>
        simp only [hscan] at herror
        split
        · rfl
        next hgo =>
          rw [if_neg hgo] at herror
          simp at herror
  · intro opened hok
    simp only [Journal.open] at hok ⊢
    unfold Journal.openExisting at hok ⊢
    by_cases hbig : options.limits.maxJournalBytes.toNat < f.length
    · simp [hbig] at hok
    rw [if_neg hbig] at hok ⊢
    by_cases hshort : f.length < kJournalHeaderBytes
    · simp [hshort] at hok
    rw [if_neg hshort] at hok ⊢
    cases hparse : parseJournalHeaderImage (f.take kJournalHeaderBytes) with
    | none => simp [hparse] at hok
    | some header =>
      simp only [hparse] at hok ⊢
      cases hscan : scan options.limits f.length (header.baseSequence + 1) (f.drop kJournalHeaderBytes) [] with
      | error status => simp [hscan] at hok
      | ok result =>
        obtain ⟨records, torn⟩ := result
        simp only [hscan] at hok ⊢
        by_cases hrefused : (torn.isSome && options.readOnly) = true
        · simp [hrefused] at hok
        simp only [if_neg hrefused, Except.ok.injEq] at hok ⊢
        subst hok
        obtain ⟨himage, -⟩ := parseJournalHeaderImage_sound hparse
        have hscans : Scans options.limits (header.baseSequence + 1) (f.drop kJournalHeaderBytes) []
            (.ok (records, torn)) := (scans_iff (by simp)).mpr hscan
        obtain ⟨entries, hrecords, hbytes⟩ := scan_sound hscans
        have hsplit : f = buildJournalHeaderImage header.store header.createdUnixMs header.baseSequence ++
            recordImages header.baseSequence entries ++ torn.getD [] := by
          rw [List.append_assoc, ← hbytes, ← himage, List.take_append_drop]
        have hcut : f.take (f.length - (torn.getD []).length) =
            buildJournalHeaderImage header.store header.createdUnixMs header.baseSequence ++
              recordImages header.baseSequence entries := by
          have hlength : f.length - (torn.getD []).length = (buildJournalHeaderImage header.store
              header.createdUnixMs header.baseSequence ++ recordImages header.baseSequence entries).length := by
            conv_lhs => rw [hsplit, List.length_append, Nat.add_sub_cancel]
          rw [hlength]
          conv_lhs => rw [hsplit]
          exact List.take_left
        refine ⟨header.store, header.createdUnixMs, header.baseSequence, entries, _, rfl, rfl, himage,
          by simpa using hrecords, rfl, List.take_prefix _ _, hcut, ?_⟩
        intro hro
        have htorn : torn = none := by
          cases torn with
          | none => rfl
          | some bytes => simp [hro] at hrefused
        rw [htorn]
        simp

/-! ## Altered journals -/

section Altered

variable {store : StoreId} {created : UnixMillis} {base : RecordSequence} {entries : List (RecordType × Bytes)}
  {g : Bytes}

end Altered

end FabricReconciliation
