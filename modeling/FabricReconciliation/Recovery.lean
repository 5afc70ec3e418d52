import FabricReconciliation.Journal

/-!
# Torn-tail recovery (`journal.cpp:399-545`)

A well-formed journal file is a header, the images of its records in sequence, and a torn tail: a
strict prefix of one further record image (`journalBytes`, `TornTail`).

* **`scan_images`** — the scan loop returns exactly the framed records and the torn tail;
* **`openExisting_journalBytes`** — what `Journal::Open` does on such a file;
* **`appendAll_journalBytes`** — appending keeps the form, whatever each write and flush did.
-/

namespace FabricReconciliation

open Lib

/-- A record the journal accepts: a type of the vocabulary, a payload within the limit. -/
structure RecordFits (limits : RuntimeLimits) (entry : RecordType × Bytes) : Prop where
  type : entry.1 ≠ .invalid
  payload : entry.2.length ≤ limits.maxJournalPayloadBytes.toNat

/-- Numbers the entries of a journal, starting after `last`. -/
def framed : RecordSequence → List (RecordType × Bytes) → List JournalRecord
  | _, [] => []
  | last, entry :: rest => ⟨last + 1, entry.1, entry.2⟩ :: framed (last + 1) rest

/-- The images of the entries, one after the other. -/
def recordImages (last : RecordSequence) (entries : List (RecordType × Bytes)) : Bytes :=
  (framed last entries).flatMap fun r => buildRecordImage r.sequence r.type r.payload

/-- A strict prefix of a record image. -/
def TornTail (limits : RuntimeLimits) (sequence : RecordSequence) (t : Bytes) : Prop :=
  ∃ entry kept, RecordFits limits entry ∧ entry.2.length < 2 ^ 32 ∧ kept < 56 + entry.2.length ∧
    t = (buildRecordImage sequence entry.1 entry.2).take kept

/-- The bytes of a journal file. -/
def journalBytes (store : StoreId) (created : UnixMillis) (base : RecordSequence)
    (entries : List (RecordType × Bytes)) (t : Bytes) : Bytes :=
  buildJournalHeaderImage store created base ++ (recordImages base entries ++ t)

theorem framed_append : ∀ (a b : List (RecordType × Bytes)) (last : RecordSequence),
    framed last (a ++ b) = framed last a ++ framed (last + UInt64.ofNat a.length) b
  | [], b, last => by simp [framed]
  | e :: a, b, last => by
    have hlast : last + 1 + UInt64.ofNat a.length = last + UInt64.ofNat (a.length + 1) := by
      rw [UInt64.ofNat_add, UInt64.add_assoc, UInt64.add_comm 1]
      rfl
    simp only [List.cons_append, framed, framed_append a b (last + 1), List.length_cons, hlast]

@[simp] theorem length_framed : ∀ (entries : List (RecordType × Bytes)) (last : RecordSequence),
    (framed last entries).length = entries.length
  | [], _ => rfl
  | _ :: rest, last => by simp [framed, length_framed rest]

theorem recordImages_append (a b : List (RecordType × Bytes)) (last : RecordSequence) :
    recordImages last (a ++ b) = recordImages last a ++ recordImages (last + UInt64.ofNat a.length) b := by
  simp [recordImages, framed_append]

theorem recordImages_singleton (last : RecordSequence) (entry : RecordType × Bytes) :
    recordImages last [entry] = buildRecordImage (last + 1) entry.1 entry.2 := by
  simp [recordImages, framed]

theorem lastSequenceOf_framed (base : RecordSequence) (entries : List (RecordType × Bytes)) :
    lastSequenceOf base (framed base entries) = base + UInt64.ofNat entries.length := by
  rcases List.eq_nil_or_concat entries with rfl | ⟨front, e, rfl⟩
  · simp [framed, lastSequenceOf]
  · have hlast : base + UInt64.ofNat front.length + 1 = base + UInt64.ofNat (front.length + 1) := by
      rw [UInt64.ofNat_add, UInt64.add_assoc]
      rfl
    simp only [List.concat_eq_append, framed_append, framed, lastSequenceOf, List.getLast?_append,
      List.getLast?_singleton, List.length_append, List.length_cons, List.length_nil,
      Nat.zero_add, hlast]
    simp

/-! ## One round -/

section Round

variable {limits : RuntimeLimits}

theorem scanPayloadLimit_eq (h : limits.maxJournalPayloadBytes.toNat < 2 ^ 32) :
    scanPayloadLimit limits = limits.maxJournalPayloadBytes.toNat := Nat.mod_eq_of_lt (by omega)

/-- A record prefix decodes exactly when a whole header is there and the length is within the
scan's limit. -/
theorem decodeRecordHeader_scan {entry : RecordType × Bytes} (hfits : RecordFits limits entry)
    (hword : entry.2.length < 2 ^ 32) (sequence : RecordSequence) (rest : Bytes) :
    decodeRecordHeader (recordPrefix sequence entry.1 entry.2 ++ rest) (scanPayloadLimit limits) =
      if rest.length < 32 ∨ scanPayloadLimit limits < entry.2.length then none
      else some ⟨entry.1, entry.2.length, sequence, 0⟩ := by
  rw [decodeRecordHeader_built sequence entry.1 rest hfits.type hword]
  by_cases h1 : rest.length < 32
  · rw [if_pos h1, if_pos (.inl h1)]
  · by_cases h2 : scanPayloadLimit limits < entry.2.length
    · rw [if_neg h1, if_pos h2, if_pos (.inr h2)]
    · rw [if_neg h1, if_neg h2, if_neg (by tauto)]

theorem image_append_eq (sequence : RecordSequence) (entry : RecordType × Bytes) (rest : Bytes) :
    buildRecordImage sequence entry.1 entry.2 ++ rest = recordPrefix sequence entry.1 entry.2 ++
      ((recordDigest (recordPrefix sequence entry.1 entry.2) entry.2).bytes ++ (entry.2 ++ rest)) := by
  simp [buildRecordImage]

/-- A complete image is recognised, whatever follows it. -/
theorem scanStep_image {entry : RecordType × Bytes} (hfits : RecordFits limits entry)
    (hscan : entry.2.length ≤ scanPayloadLimit limits) (sequence : RecordSequence) (rest : Bytes) :
    scanStep limits sequence (buildRecordImage sequence entry.1 entry.2 ++ rest) =
      .record ⟨entry.1, entry.2.length, sequence, 0⟩ := by
  have hlen : entry.2.length < 2 ^ 32 := by
    unfold scanPayloadLimit at hscan
    omega
  have hmagic : load 4 0 (buildRecordImage sequence entry.1 entry.2 ++ rest) = kRecordMagic := by
    rw [image_append_eq, load_magic]
  have hdecode : decodeRecordHeader (buildRecordImage sequence entry.1 entry.2 ++ rest)
      (scanPayloadLimit limits) = some ⟨entry.1, entry.2.length, sequence, 0⟩ := by
    rw [image_append_eq, decodeRecordHeader_scan hfits hlen, if_neg]
    rintro (h | h)
    · simp only [List.length_append, length_digest] at h
      omega
    · omega
  have htake : (buildRecordImage sequence entry.1 entry.2 ++ rest).take (56 + entry.2.length) =
      buildRecordImage sequence entry.1 entry.2 := by
    rw [List.take_append_of_le_length (by simp)]
    exact List.take_of_length_le (by simp)
  unfold scanStep
  rw [if_neg (by simp [kRecordDigestOffset]; omega), if_neg (by simp [hmagic]), hdecode]
  simp only [htake, verify_buildRecordImage sequence entry.1 hlen]
  rw [if_neg (by simp)]
  simp

/-- A complete image above the limit's low 32 bits is refused. -/
theorem scanStep_oversize {entry : RecordType × Bytes} (hfits : RecordFits limits entry)
    (hword : entry.2.length < 2 ^ 32) (hscan : scanPayloadLimit limits < entry.2.length)
    (sequence expected : RecordSequence) (rest : Bytes) :
    ∃ status, scanStep limits expected (buildRecordImage sequence entry.1 entry.2 ++ rest) =
      .refused status := by
  have hpayload := hfits.payload
  have hmagic : load 4 0 (buildRecordImage sequence entry.1 entry.2 ++ rest) = kRecordMagic := by
    rw [image_append_eq, load_magic]
  have hlength : load 4 12 (buildRecordImage sequence entry.1 entry.2 ++ rest) = entry.2.length := by
    rw [image_append_eq, load_length sequence entry.1 _ hword]
  have hdecode : decodeRecordHeader (buildRecordImage sequence entry.1 entry.2 ++ rest)
      (scanPayloadLimit limits) = none := by
    rw [image_append_eq, decodeRecordHeader_scan hfits hword, if_pos (.inr hscan)]
  unfold scanStep
  rw [if_neg (by simp [kRecordDigestOffset]; omega), if_neg (by simp [hmagic]), hdecode]
  simp only [hlength]
  rw [if_neg (by simp [kRecordHeaderBytes]; omega), if_neg (by omega),
    if_neg (by simp [kRecordHeaderBytes])]
  exact ⟨_, rfl⟩

/-- Every non-empty strict prefix of an image falls into a torn branch, wherever it was cut. -/
theorem scanStep_torn {sequence : RecordSequence} {t : Bytes} (ht : TornTail limits sequence t)
    (expected : RecordSequence) : scanStep limits expected t = .torn := by
  obtain ⟨entry, kept, hfits, hword, hkept, rfl⟩ := ht
  have hpayload := hfits.payload
  by_cases hshort : kept < 24
  · unfold scanStep
    rw [if_pos (by simp [kRecordDigestOffset]; omega)]
  -- the cut lies behind the 24 bytes in front of the digest
  have hsplit : (buildRecordImage sequence entry.1 entry.2).take kept =
      recordPrefix sequence entry.1 entry.2 ++
        ((recordDigest (recordPrefix sequence entry.1 entry.2) entry.2).bytes ++ entry.2).take (kept - 24) := by
    rw [buildRecordImage, List.take_append, List.take_of_length_le (by simp; omega), length_recordPrefix]
  have htotal : ((buildRecordImage sequence entry.1 entry.2).take kept).length = kept := by simp; omega
  have hmagic : load 4 0 ((buildRecordImage sequence entry.1 entry.2).take kept) = kRecordMagic := by
    rw [hsplit, load_magic]
  have hlength : load 4 12 ((buildRecordImage sequence entry.1 entry.2).take kept) = entry.2.length := by
    rw [hsplit, load_length sequence entry.1 _ hword]
  have htail : (((recordDigest (recordPrefix sequence entry.1 entry.2) entry.2).bytes ++ entry.2).take
      (kept - 24)).length = kept - 24 := by simp; omega
  have hdecode := decodeRecordHeader_scan hfits hword sequence
    (((recordDigest (recordPrefix sequence entry.1 entry.2) entry.2).bytes ++ entry.2).take (kept - 24))
  rw [← hsplit, htail] at hdecode
  unfold scanStep
  rw [if_neg (by rw [htotal]; exact hshort), if_neg (by simp [hmagic]), hdecode]
  by_cases hhead : kept - 24 < 32 ∨ scanPayloadLimit limits < entry.2.length
  · rw [if_pos hhead]
    simp only [htotal, hlength]
    by_cases h56 : kept < 56
    · rw [if_pos h56]
    · rw [if_neg h56, if_neg (by omega), if_pos (show kept < 56 + entry.2.length by omega)]
  · rw [if_neg hhead]
    simp only [htotal]
    rw [if_pos (show kept < 56 + entry.2.length by omega)]

end Round

/-! ## The scan loop -/

theorem recordImages_cons (last : RecordSequence) (entry : RecordType × Bytes)
    (rest : List (RecordType × Bytes)) :
    recordImages last (entry :: rest) =
      buildRecordImage (last + 1) entry.1 entry.2 ++ recordImages (last + 1) rest := by
  simp [recordImages, framed]

/-- **`scan_images`**: the loop returns every framed record in order and stops at the torn tail. -/
theorem scan_images {limits : RuntimeLimits} {sequence : RecordSequence} {t : Bytes}
    (ht : TornTail limits sequence t) :
    ∀ (entries : List (RecordType × Bytes)) (rounds : Nat) (last : RecordSequence)
      (acc : List JournalRecord), (∀ e ∈ entries, RecordFits limits e) →
      (∀ e ∈ entries, e.2.length ≤ scanPayloadLimit limits) →
      (recordImages last entries ++ t).length ≤ rounds →
      scan limits rounds (last + 1) (recordImages last entries ++ t) acc =
        .ok (acc ++ framed last entries, if t = [] then none else some t) := by
  intro entries
  induction entries with
  | nil =>
    intro rounds last acc _ _ hrounds
    by_cases hnil : t = []
    · subst hnil
      cases rounds <;> simp [scan, recordImages, framed]
    · have hpos : 0 < t.length := List.length_pos_iff.mpr hnil
      cases rounds with
      | zero => simp [recordImages, framed] at hrounds; exact absurd hrounds hnil
      | succ rounds =>
        have hstep := scanStep_torn ht (last + 1)
        simp [scan, recordImages, framed, hnil, hstep]
  | cons entry rest ih =>
    intro rounds last acc hfits hscan hrounds
    have hentry := hfits entry (by simp)
    cases rounds with
    | zero => simp [recordImages_cons] at hrounds
    | succ rounds =>
      rw [recordImages_cons, List.append_assoc] at hrounds ⊢
      have hstep := scanStep_image hentry (hscan entry (by simp)) (last + 1) (recordImages (last + 1) rest ++ t)
      have hdrop : (buildRecordImage (last + 1) entry.1 entry.2 ++ (recordImages (last + 1) rest ++ t)).drop
          (56 + entry.2.length) = recordImages (last + 1) rest ++ t := by
        rw [List.drop_append, List.drop_of_length_le (by simp)]
        simp
      have hpayload : slice 56 entry.2.length
          (buildRecordImage (last + 1) entry.1 entry.2 ++ (recordImages (last + 1) rest ++ t)) = entry.2 := by
        rw [buildRecordImage, List.append_assoc, slice_skip (length_recordPrefix _ _ _) (by omega),
          List.append_assoc, slice_skip (length_digest _) (by omega), slice_here rfl]
      have hne : (buildRecordImage (last + 1) entry.1 entry.2 ++ (recordImages (last + 1) rest ++ t)).length
          ≠ 0 := by simp
      have htail : (recordImages (last + 1) rest ++ t).length ≤ rounds := by
        simp only [List.length_append, length_buildRecordImage] at hrounds ⊢
        omega
      rw [scan, if_neg hne, hstep]
      simp only [hdrop, hpayload]
      rw [ih rounds (last + 1) _ (fun e he => hfits e (by simp [he])) (fun e he => hscan e (by simp [he])) htail]
      simp [framed]

/-- A record above the limit's low 32 bits stops the scan with an error. -/
theorem scan_oversize {limits : RuntimeLimits} {t : Bytes} :
    ∀ (entries : List (RecordType × Bytes)) (rounds : Nat) (last : RecordSequence)
      (acc : List JournalRecord), (∀ e ∈ entries, RecordFits limits e) →
      (∀ e ∈ entries, e.2.length < 2 ^ 32) →
      (∃ e ∈ entries, scanPayloadLimit limits < e.2.length) →
      (recordImages last entries ++ t).length ≤ rounds →
      ∃ status, scan limits rounds (last + 1) (recordImages last entries ++ t) acc = .error status := by
  intro entries
  induction entries with
  | nil =>
    rintro rounds last acc - - ⟨e, he, -⟩
    simp at he
  | cons entry rest ih =>
    intro rounds last acc hfits hword hbig hrounds
    cases rounds with
    | zero => simp [recordImages_cons] at hrounds
    | succ rounds =>
      rw [recordImages_cons, List.append_assoc] at hrounds ⊢
      have hne : (buildRecordImage (last + 1) entry.1 entry.2 ++ (recordImages (last + 1) rest ++ t)).length
          ≠ 0 := by simp
      rw [scan, if_neg hne]
      by_cases hover : scanPayloadLimit limits < entry.2.length
      · obtain ⟨status, hstep⟩ := scanStep_oversize (hfits entry (by simp)) (hword entry (by simp)) hover
          (last + 1) (last + 1) (recordImages (last + 1) rest ++ t)
        exact ⟨status, by rw [hstep]⟩
      · have hstep := scanStep_image (hfits entry (by simp)) (Nat.not_lt.mp hover) (last + 1)
          (recordImages (last + 1) rest ++ t)
        have hdrop : (buildRecordImage (last + 1) entry.1 entry.2 ++ (recordImages (last + 1) rest ++ t)).drop
            (56 + entry.2.length) = recordImages (last + 1) rest ++ t := by
          rw [List.drop_append, List.drop_of_length_le (by simp)]
          simp
        have htail : (recordImages (last + 1) rest ++ t).length ≤ rounds := by
          simp only [List.length_append, length_buildRecordImage] at hrounds ⊢
          omega
        rw [hstep]
        simp only [hdrop]
        refine ih rounds (last + 1) _ (fun e he => hfits e (by simp [he])) (fun e he => hword e (by simp [he]))
          ?_ htail
        obtain ⟨e, he, hlt⟩ := hbig
        rcases List.mem_cons.mp he with rfl | he
        · exact absurd hlt hover
        · exact ⟨e, he, hlt⟩

/-! ## Opening and appending -/

theorem tornTail_nil (limits : RuntimeLimits) (sequence : RecordSequence) : TornTail limits sequence [] :=
  ⟨(.epochAdvance, []), 0, ⟨by decide, by simp⟩, by simp, by simp, by simp⟩

theorem journalBytes_nil (store : StoreId) (created : UnixMillis) (base : RecordSequence)
    (entries : List (RecordType × Bytes)) (t : Bytes) :
    journalBytes store created base entries [] ++ t = journalBytes store created base entries t := by
  simp [journalBytes]

theorem journalBytes_concat (store : StoreId) (created : UnixMillis) (base : RecordSequence)
    (entries : List (RecordType × Bytes)) (entry : RecordType × Bytes) (t : Bytes) :
    journalBytes store created base entries
        (buildRecordImage (base + UInt64.ofNat entries.length + 1) entry.1 entry.2 ++ t) =
      journalBytes store created base (entries ++ [entry]) t := by
  simp [journalBytes, recordImages_append, recordImages_singleton]

/-- What opening a well-formed journal returns. -/
def openedOf (options : JournalOpenOptions) (store : StoreId) (created : UnixMillis)
    (base : RecordSequence) (entries : List (RecordType × Bytes)) (t : Bytes) : JournalOpened where
  journal := ⟨true, base + UInt64.ofNat entries.length,
    UInt64.ofNat (journalBytes store created base entries []).length, options.limits, options.readOnly, false⟩
  records := framed base entries
  report := {
    created := false
    recoveredTornTail := decide (t ≠ [])
    recoveredBytes := t.length
    recordCount := entries.length
    lastSequence := base + UInt64.ofNat entries.length
    header := ⟨kJournalFormatVersion, kJournalHeaderBytes, store, created, base⟩
    notes := if t ≠ [] then [.journalTornTailRecovered] else [] }

/-- **`openExisting_journalBytes`**: a writable open cuts the torn tail off and returns every record;
a read-only open refuses a torn file and changes nothing. -/
theorem openExisting_journalBytes {options : JournalOpenOptions} {store : StoreId} {created : UnixMillis}
    {base sequence : RecordSequence} {entries : List (RecordType × Bytes)} {t : Bytes}
    (hfits : ∀ e ∈ entries, RecordFits options.limits e)
    (hscannable : ∀ e ∈ entries, e.2.length ≤ scanPayloadLimit options.limits) (ht : TornTail options.limits sequence t)
    (hsize : (journalBytes store created base entries t).length ≤ options.limits.maxJournalBytes.toNat) :
    Journal.openExisting options (journalBytes store created base entries t) =
      if t ≠ [] ∧ options.readOnly = true then
        (journalBytes store created base entries t, .error (integrityFailure .journalTornTailRecovered
          "journal has a torn tail and was opened read-only"))
      else (journalBytes store created base entries [],
        .ok (openedOf options store created base entries t)) := by
  have hheader : (journalBytes store created base entries t).take 96 =
      buildJournalHeaderImage store created base := by
    rw [journalBytes, List.take_append_of_le_length (by simp)]
    exact List.take_of_length_le (by simp)
  have hbody : (journalBytes store created base entries t).drop 96 = recordImages base entries ++ t := by
    rw [journalBytes, List.drop_append, List.drop_of_length_le (by simp)]
    simp
  have hscan := scan_images ht entries (journalBytes store created base entries t).length base []
    hfits hscannable (by simp [journalBytes])
  have hlong : ¬ (journalBytes store created base entries t).length < 96 := by simp [journalBytes]
  have hoffset : (journalBytes store created base entries t).length - t.length =
      (journalBytes store created base entries []).length := by
    rw [← journalBytes_nil store created base entries t, List.length_append, Nat.add_sub_cancel]
  have hcut : (journalBytes store created base entries t).take
      (journalBytes store created base entries []).length = journalBytes store created base entries [] := by
    rw [← journalBytes_nil store created base entries t, List.take_append_of_le_length (le_refl _),
      List.take_length]
  have hlost : (journalBytes store created base entries t).length -
      (journalBytes store created base entries []).length = t.length := by
    rw [← journalBytes_nil store created base entries t, List.length_append, Nat.add_sub_cancel_left]
  unfold Journal.openExisting
  rw [if_neg (by omega), if_neg hlong, hheader, parse_buildJournalHeaderImage]
  simp only [hbody, hscan, List.nil_append, lastSequenceOf_framed, length_framed]
  by_cases hnil : t = []
  · subst hnil
    simp [openedOf]
  · by_cases hro : options.readOnly = true
    · simp [hnil, hro]
    · simp only [if_neg hnil, Option.isSome_some, Option.getD_some, hro, hoffset, hcut, hlost, openedOf]
      simp [hnil]

/-- When opening a well-formed file succeeds, every record was within the scan's limit, the file
within the size limit, and the result is the one above. -/
theorem openExisting_ok {options : JournalOpenOptions} {store : StoreId} {created : UnixMillis}
    {base sequence : RecordSequence} {entries : List (RecordType × Bytes)} {t file : Bytes}
    {opened : JournalOpened} (hfits : ∀ e ∈ entries, RecordFits options.limits e)
    (hword : ∀ e ∈ entries, e.2.length < 2 ^ 32) (ht : TornTail options.limits sequence t)
    (h : Journal.openExisting options (journalBytes store created base entries t) = (file, .ok opened)) :
    (journalBytes store created base entries t).length ≤ options.limits.maxJournalBytes.toNat ∧
    (∀ e ∈ entries, e.2.length ≤ scanPayloadLimit options.limits) ∧
    (options.readOnly = true → t = []) ∧
    file = journalBytes store created base entries [] ∧
    opened = openedOf options store created base entries t := by
  have hsize : (journalBytes store created base entries t).length ≤ options.limits.maxJournalBytes.toNat := by
    by_contra hbig
    unfold Journal.openExisting at h
    rw [if_pos (by omega)] at h
    simp at h
  have hscan : ∀ e ∈ entries, e.2.length ≤ scanPayloadLimit options.limits := by
    by_contra hbig
    have hex : ∃ e ∈ entries, scanPayloadLimit options.limits < e.2.length := by
      simpa only [not_forall, Nat.not_le, exists_prop] using hbig
    have hheader : (journalBytes store created base entries t).take 96 =
        buildJournalHeaderImage store created base := by
      rw [journalBytes, List.take_append_of_le_length (by simp)]
      exact List.take_of_length_le (by simp)
    have hbody : (journalBytes store created base entries t).drop 96 = recordImages base entries ++ t := by
      rw [journalBytes, List.drop_append, List.drop_of_length_le (by simp)]
      simp
    obtain ⟨status, hstatus⟩ := scan_oversize (t := t) entries
      (journalBytes store created base entries t).length base [] hfits hword hex (by simp [journalBytes])
    unfold Journal.openExisting at h
    rw [if_neg (by omega), if_neg (by simp [journalBytes]), hheader, parse_buildJournalHeaderImage] at h
    simp [hbody, hstatus] at h
  have hopen := openExisting_journalBytes hfits hscan ht hsize
  rw [hopen] at h
  split at h
  · simp at h
  · rename_i hn
    simp only [Prod.mk.injEq, Except.ok.injEq] at h
    refine ⟨hsize, hscan, fun hro => ?_, h.1.symm, h.2.symm⟩
    by_contra hne
    exact hn ⟨hne, hro⟩

/-- What one `Append` on an open, writable journal does: nothing, a whole record, or, when the write
or the flush failed, some part of it and the sticky failure flag. -/
theorem append_cases {j : Journal} (hopen : j.isOpen = true) (hro : j.readOnly = false)
    (type : RecordType) (payload : Bytes) (io : WriteIo) (file : Bytes) :
    (∃ status, status.code ≠ .ok ∧ j.append type payload io file = (status, j, file) ∧
      (j.writeFailed = true ∨ j.limits.maxJournalPayloadBytes.toNat < payload.length)) ∨
    (io = .ok ∧ j.writeFailed = false ∧ payload.length ≤ j.limits.maxJournalPayloadBytes.toNat ∧
      ∃ written, j.append type payload io file = (Status.ok,
        { j with bytesWritten := written, lastSequence := j.lastSequence + 1 },
        file ++ buildRecordImage (j.lastSequence + 1) type payload)) ∨
    (io ≠ .ok ∧ j.writeFailed = false ∧ payload.length ≤ j.limits.maxJournalPayloadBytes.toNat ∧
      ∃ status written kept, status.code ≠ .ok ∧ j.append type payload io file = (status,
        { j with bytesWritten := written, writeFailed := true },
        file ++ (buildRecordImage (j.lastSequence + 1) type payload).take kept)) := by
  have hneq : StatusCode.integrityFailure ≠ StatusCode.ok := by decide
  unfold Journal.append
  rw [if_neg (by simp [hro]), if_neg (by simp [hopen])]
  by_cases hlong : j.limits.maxJournalPayloadBytes.toNat < payload.length
  · rw [if_pos hlong]
    exact .inl ⟨_, by decide, rfl, .inr hlong⟩
  rw [if_neg hlong]
  have hfits : payload.length ≤ j.limits.maxJournalPayloadBytes.toNat := Nat.not_lt.mp hlong
  unfold Journal.writeAndFlush
  simp only [hopen, Bool.not_true, Bool.false_eq_true, if_false]
  cases hfailed : j.writeFailed with
  | true =>
    refine .inl ⟨integrityFailure .durableWriteFailed "journal write previously failed", hneq, ?_, .inl rfl⟩
    obtain ⟨o, l, b, m, r, w⟩ := j
    simp only at hfailed
    subst hfailed
    simp [integrityFailure]
  | false =>
    cases io with
    | ok =>
      refine .inr (.inl ⟨rfl, rfl, hfits, j.bytesWritten +
        UInt64.ofNat (buildRecordImage (j.lastSequence + 1) type payload).length, ?_⟩)
      simp [Status.ok]
    | shortWrite kept =>
      refine .inr (.inr ⟨by simp, rfl, hfits, shortWriteStatus, j.bytesWritten, kept, hneq, ?_⟩)
      simp [shortWriteStatus, integrityFailure]
    | flushFailed kept =>
      refine .inr (.inr ⟨by simp, rfl, hfits, flushFailedStatus, j.bytesWritten +
        UInt64.ofNat (buildRecordImage (j.lastSequence + 1) type payload).length, kept, hneq, ?_⟩)
      simp [flushFailedStatus, integrityFailure]

/-- One call of `Append`, with what its write and flush did. -/
structure AppendCall where
  type : RecordType
  payload : Bytes
  io : WriteIo

/-- Consecutive `Append` calls on one journal. -/
def Journal.appendAll : Journal → Bytes → List AppendCall → Journal × Bytes
  | j, file, [] => (j, file)
  | j, file, call :: rest =>
    Journal.appendAll (j.append call.type call.payload call.io file).2.1
      (j.append call.type call.payload call.io file).2.2 rest

/-- The records a fault-free sequence of calls adds. -/
def acceptedOf (limits : RuntimeLimits) (calls : List AppendCall) : List (RecordType × Bytes) :=
  (calls.filter fun c => c.payload.length ≤ limits.maxJournalPayloadBytes.toNat).map
    fun c => (c.type, c.payload)

/-- An open journal and its file: the file is well formed, and while no write has failed it ends
with the journal's last record. -/
structure JournalFile (limits : RuntimeLimits) (store : StoreId) (created : UnixMillis)
    (base : RecordSequence) (entries : List (RecordType × Bytes)) (t : Bytes) (j : Journal)
    (file : Bytes) : Prop where
  isOpen : j.isOpen = true
  writable : j.readOnly = false
  bound : j.limits = limits
  content : file = journalBytes store created base entries t
  fits : ∀ e ∈ entries, RecordFits limits e
  torn : TornTail limits (base + UInt64.ofNat entries.length + 1) t
  healthy : j.writeFailed = false → t = [] ∧ j.lastSequence = base + UInt64.ofNat entries.length

/-- One `Append` keeps the file well formed. -/
theorem append_journalFile {limits : RuntimeLimits} {store : StoreId} {created : UnixMillis}
    {base : RecordSequence} {entries : List (RecordType × Bytes)} {t : Bytes} {j : Journal} {file : Bytes}
    (h : JournalFile limits store created base entries t j file) (call : AppendCall)
    (htype : call.type ≠ .invalid)
    (hword : call.payload.length ≤ limits.maxJournalPayloadBytes.toNat → call.payload.length < 2 ^ 32) :
    ∃ more t', JournalFile limits store created base (entries ++ more) t'
        (j.append call.type call.payload call.io file).2.1
        (j.append call.type call.payload call.io file).2.2 ∧
      (j.writeFailed = false → call.io = .ok →
        (j.append call.type call.payload call.io file).2.1.writeFailed = false ∧
        more = acceptedOf limits [call]) := by
  rcases append_cases h.isOpen h.writable call.type call.payload call.io file with
    ⟨status, -, happ, hwhy⟩ | ⟨-, hwf, hfits, written, happ⟩ | ⟨hio, hwf, hfits, status, written, kept, -, happ⟩
  · refine ⟨[], t, by simpa [happ] using h, fun hwf _ => ?_⟩
    rcases hwhy with hwhy | hlong
    · rw [hwf] at hwhy
      exact absurd hwhy (by decide)
    · have : ¬ call.payload.length ≤ limits.maxJournalPayloadBytes.toNat := by
        rw [h.bound] at hlong
        omega
      exact ⟨by simpa [happ] using hwf, by simp [acceptedOf, this]⟩
  · obtain ⟨rfl, hlast⟩ := h.healthy hwf
    rw [h.bound] at hfits
    rw [happ]
    refine ⟨[(call.type, call.payload)], [], ?_, fun _ _ => ⟨hwf, by simp [acceptedOf, hfits]⟩⟩
    refine { isOpen := h.isOpen, writable := h.writable, bound := h.bound, content := ?_, fits := ?_,
             torn := tornTail_nil _ _, healthy := fun _ => ⟨rfl, ?_⟩ }
    · have := journalBytes_concat store created base entries (call.type, call.payload) []
      rw [List.append_nil] at this
      rw [h.content, hlast, journalBytes_nil, this]
    · intro e he
      rcases List.mem_append.mp he with he | he
      · exact h.fits e he
      · rw [List.mem_singleton.mp he]
        exact ⟨htype, hfits⟩
    · simp only [hlast, List.length_append, List.length_singleton, UInt64.ofNat_add, UInt64.add_assoc]
      rfl
  · obtain ⟨rfl, hlast⟩ := h.healthy hwf
    rw [h.bound] at hfits
    rw [happ]
    by_cases hall : kept < 56 + call.payload.length
    · refine ⟨[], (buildRecordImage (j.lastSequence + 1) call.type call.payload).take kept, ?_,
        fun _ hok => absurd hok hio⟩
      rw [List.append_nil]
      refine { isOpen := h.isOpen, writable := h.writable, bound := h.bound, content := ?_,
               fits := h.fits, torn := ?_, healthy := fun hf => absurd hf (by simp) }
      · rw [h.content, journalBytes_nil]
      · exact ⟨(call.type, call.payload), kept, ⟨htype, hfits⟩, hword hfits, hall, by rw [hlast]⟩
    · -- the whole image reached the file although the caller saw a failure
      refine ⟨[(call.type, call.payload)], [], ?_, fun _ hok => absurd hok hio⟩
      refine { isOpen := h.isOpen, writable := h.writable, bound := h.bound, content := ?_, fits := ?_,
               torn := tornTail_nil _ _, healthy := fun hf => absurd hf (by simp) }
      · have hfull : (buildRecordImage (j.lastSequence + 1) call.type call.payload).take kept =
            buildRecordImage (j.lastSequence + 1) call.type call.payload :=
          List.take_of_length_le (by simp; omega)
        have := journalBytes_concat store created base entries (call.type, call.payload) []
        rw [List.append_nil] at this
        rw [h.content, hfull, hlast, journalBytes_nil, this]
      · intro e he
        rcases List.mem_append.mp he with he | he
        · exact h.fits e he
        · rw [List.mem_singleton.mp he]
          exact ⟨htype, hfits⟩

/-- **`appendAll_journalBytes`**: any number of `Append` calls keeps the file well formed. -/
theorem appendAll_journalBytes {limits : RuntimeLimits} {store : StoreId} {created : UnixMillis}
    {base : RecordSequence} (hlimit : limits.maxJournalPayloadBytes.toNat < 2 ^ 32) :
    ∀ (calls : List AppendCall) {entries : List (RecordType × Bytes)} {t : Bytes} {j : Journal} {file : Bytes},
      JournalFile limits store created base entries t j file → (∀ c ∈ calls, c.type ≠ .invalid) →
      ∃ more t', JournalFile limits store created base (entries ++ more) t'
          (j.appendAll file calls).1 (j.appendAll file calls).2 ∧
        (j.writeFailed = false → (∀ c ∈ calls, c.io = .ok) →
          (j.appendAll file calls).1.writeFailed = false ∧ more = acceptedOf limits calls) := by
  intro calls
  induction calls with
  | nil =>
    intro entries t j file h _
    exact ⟨[], t, by simpa [Journal.appendAll] using h, fun hwf _ => ⟨hwf, rfl⟩⟩
  | cons call rest ih =>
    intro entries t j file h htypes
    obtain ⟨more, t', hone, hok⟩ := append_journalFile h call (htypes call (by simp)) (by omega)
    obtain ⟨more', t'', hall, hoks⟩ := ih hone fun c hc => htypes c (by simp [hc])
    refine ⟨more ++ more', t'', by rw [← List.append_assoc]; exact hall, fun hwf hio => ?_⟩
    obtain ⟨hwf', rfl⟩ := hok hwf (hio call (by simp))
    obtain ⟨hwf'', rfl⟩ := hoks hwf' fun c hc => hio c (by simp [hc])
    refine ⟨hwf'', ?_⟩
    simp only [acceptedOf, ← List.map_append, ← List.filter_append, List.singleton_append]

/-- A strict prefix of the next record image is a torn tail. -/
theorem tornTail_of_cut {limits : RuntimeLimits} {sequence : RecordSequence}
    {entry : RecordType × Bytes} {t : Bytes} (hfits : RecordFits limits entry)
    (hword : entry.2.length < 2 ^ 32)
    (hpre : t <+: buildRecordImage sequence entry.1 entry.2)
    (hstrict : t ≠ buildRecordImage sequence entry.1 entry.2) : TornTail limits sequence t := by
  refine ⟨entry, t.length, hfits, hword, ?_, List.prefix_iff_eq_take.mp hpre⟩
  have hle := hpre.length_le
  have hne : t.length ≠ (buildRecordImage sequence entry.1 entry.2).length :=
    fun h => hstrict (hpre.eq_of_length h)
  simp only [length_buildRecordImage] at hle hne
  omega

/-- Without wrap-around the records carry the numbers right after the base. -/
theorem framed_sequences : ∀ (entries : List (RecordType × Bytes)) (base : RecordSequence),
    base.toNat + entries.length < 2 ^ 64 →
    (framed base entries).map (fun r => r.sequence.toNat) = List.range' (base.toNat + 1) entries.length
  | [], base, _ => rfl
  | e :: rest, base, h => by
    simp only [List.length_cons] at h
    have hnext : (base + 1).toNat = base.toNat + 1 := by
      rw [UInt64.toNat_add]
      exact Nat.mod_eq_of_lt (by simp; omega)
    have ih := framed_sequences rest (base + 1) (by omega)
    simp only [framed, List.map_cons, ih, hnext, List.length_cons, List.range'_succ]

theorem framed_entries : ∀ (entries : List (RecordType × Bytes)) (base : RecordSequence),
    (framed base entries).map (fun r => (r.type, r.payload)) = entries
  | [], _ => rfl
  | e :: rest, base => by simp [framed, framed_entries rest]

/-- Recovery is exact. A writable open of a journal that ends in a strict prefix `t` of its next
record returns the records before it, with their numbers, reports the tail, and leaves the file
without it; the file stays of this form under any further appends. A read-only open refuses a
torn file and leaves it alone. -/
theorem open_recovers_torn_tail (options : JournalOpenOptions) (fresh store : StoreId)
    (now created : UnixMillis) (io : WriteIo) (base : RecordSequence)
    (entries : List (RecordType × Bytes)) (next : RecordType × Bytes) (t : Bytes)
    (hlimit : options.limits.maxJournalPayloadBytes.toNat < 2 ^ 32)
    (hentries : ∀ e ∈ entries, RecordFits options.limits e) (hnext : RecordFits options.limits next)
    (hcount : base.toNat + entries.length + 1 < 2 ^ 64)
    (hcut : t <+: buildRecordImage (base + UInt64.ofNat entries.length + 1) next.1 next.2)
    (hstrict : t ≠ buildRecordImage (base + UInt64.ofNat entries.length + 1) next.1 next.2)
    (hsize : (journalBytes store created base entries t).length ≤ options.limits.maxJournalBytes.toNat) :
    (options.readOnly = false →
      ∃ opened, Journal.open options fresh now io (some (journalBytes store created base entries t)) =
          (some (journalBytes store created base entries []), .ok opened) ∧
        opened.records.map (fun r => (r.type, r.payload)) = entries ∧
        opened.records.map (fun r => r.sequence.toNat) = List.range' (base.toNat + 1) entries.length ∧
        (opened.report.recoveredTornTail = true ↔ t ≠ []) ∧
        opened.report.recoveredBytes = t.length ∧
        opened.report.lastSequence = opened.journal.lastSequence ∧
        opened.journal.lastSequence.toNat = base.toNat + entries.length ∧
        ∀ calls : List AppendCall, (∀ c ∈ calls, c.type ≠ .invalid) →
          ∃ more t', JournalFile options.limits store created base (entries ++ more) t'
              (opened.journal.appendAll (journalBytes store created base entries []) calls).1
              (opened.journal.appendAll (journalBytes store created base entries []) calls).2 ∧
            ((∀ c ∈ calls, c.io = .ok) → t' = [] ∧ more = acceptedOf options.limits calls)) ∧
    (options.readOnly = true → t ≠ [] →
      ∃ status, status.code = .integrityFailure ∧
        Journal.open options fresh now io (some (journalBytes store created base entries t)) =
          (some (journalBytes store created base entries t), .error status)) := by
  have hnextLen := hnext.payload
  have htorn := tornTail_of_cut hnext (by omega) hcut hstrict
  have hscan : ∀ e ∈ entries, e.2.length ≤ scanPayloadLimit options.limits := by
    intro e he
    rw [scanPayloadLimit_eq hlimit]
    exact (hentries e he).payload
  have hopen := openExisting_journalBytes hentries hscan htorn hsize
  have hlast : (base + UInt64.ofNat entries.length).toNat = base.toNat + entries.length := by
    rw [UInt64.toNat_add, UInt64.toNat_ofNat_of_lt' (by unfold UInt64.size; omega)]
    exact Nat.mod_eq_of_lt (by omega)
  constructor
  · intro hro
    rw [if_neg (by simp [hro])] at hopen
    refine ⟨openedOf options store created base entries t, ?_, framed_entries _ _,
      framed_sequences _ _ (by omega), by simp [openedOf], rfl, rfl, hlast, ?_⟩
    · simp [Journal.open, hopen]
    · intro calls htypes
      have hfile : JournalFile options.limits store created base entries []
          (openedOf options store created base entries t).journal
          (journalBytes store created base entries []) :=
        { isOpen := rfl, writable := hro, bound := rfl, content := rfl, fits := hentries
          torn := tornTail_nil _ _, healthy := fun _ => ⟨rfl, rfl⟩ }
      obtain ⟨more, t', hform, hok⟩ := appendAll_journalBytes hlimit calls hfile htypes
      refine ⟨more, t', hform, fun hio => ?_⟩
      obtain ⟨hwf, hmore⟩ := hok rfl hio
      exact ⟨(hform.healthy hwf).1, hmore⟩
  · intro hro hne
    rw [if_pos ⟨hne, hro⟩] at hopen
    refine ⟨integrityFailure .journalTornTailRecovered "journal has a torn tail and was opened read-only",
      rfl, ?_⟩
    simp [Journal.open, hopen]

/-- Two records and eight bytes of a third, under the default limits. -/
theorem open_recovers_torn_tail_example :
    (buildRecordImage 6 .epochAdvance [7]).take 8 ≠ [] ∧
    ∃ opened, Journal.open ⟨{}, false, false⟩ FixedBytes.zero 0 .ok
        (some (journalBytes FixedBytes.zero 0 3 [(.fenceClear, [1, 2]), (.epochAdvance, [])]
          ((buildRecordImage 6 .epochAdvance [7]).take 8))) =
        (some (journalBytes FixedBytes.zero 0 3 [(.fenceClear, [1, 2]), (.epochAdvance, [])] []), .ok opened) ∧
      opened.records.map (fun r => r.sequence.toNat) = [4, 5] ∧
      opened.report.recoveredTornTail = true ∧ opened.report.recoveredBytes = 8 := by
  have hne : (buildRecordImage 6 .epochAdvance [7]).take 8 ≠ [] := by
    intro h
    have := congrArg List.length h
    simp at this
  have hlen : ((buildRecordImage 6 .epochAdvance [7]).take 8).length = 8 := by simp
  refine ⟨hne, ?_⟩
  have h := (open_recovers_torn_tail ⟨{}, false, false⟩ FixedBytes.zero FixedBytes.zero 0 0 .ok 3
    [(.fenceClear, [1, 2]), (.epochAdvance, [])] (.epochAdvance, [7])
    ((buildRecordImage 6 .epochAdvance [7]).take 8) (by decide)
    (by
      intro e he
      rcases List.mem_cons.mp he with rfl | he
      · exact ⟨by decide, by decide⟩
      · rw [List.mem_singleton.mp he]
        exact ⟨by decide, by decide⟩)
    ⟨by decide, by decide⟩ (by decide) (List.take_prefix 8 _)
    (fun he => by
      have := congrArg List.length he
      simp at this)
    (by
      simp [journalBytes, recordImages, framed])).1 rfl
  obtain ⟨opened, hopen, -, hseq, htorn, hbytes, -⟩ := h
  exact ⟨opened, hopen, hseq, htorn.mpr hne, by rw [hbytes, hlen]⟩

end FabricReconciliation
