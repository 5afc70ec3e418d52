import FabricReconciliation.Layout

/-!
# Snapshot plus suffix (`store.cpp:298-336`, `store.cpp:875-910`)

A compaction replaces a prefix of the record history by the state it leads to.

* **`compact_publishes`** — what `Compact` writes into the snapshot file;
* **`snapshot_suffix_replay`** — opening the snapshot taken after `k` records with any journal that
  starts at or before record `k` gives the state of the full replay.
-/

namespace FabricReconciliation

open Lib

/-- The record number and the compaction counter pass through replay untouched. -/
theorem applyPayload_frame {limits : RuntimeLimits} {type : RecordType} {payload : Bytes}
    {s s' : DurableState} (h : applyPayload limits type payload s = .ok s') :
    s'.sequence = s.sequence ∧ s'.compactions = s.compactions ∧ s'.store = s.store := by
  have hdecoded : ∀ {α : Type} {decoded : Option α} {detail : String} {f : α → DurableState},
      applyDecoded decoded detail f = .ok s' →
      (∀ a, (f a).sequence = s.sequence ∧ (f a).compactions = s.compactions ∧ (f a).store = s.store) →
      s'.sequence = s.sequence ∧ s'.compactions = s.compactions ∧ s'.store = s.store := by
    intro α decoded detail f hd hf
    obtain ⟨a, -, rfl⟩ := applyDecoded_eq_ok hd
    exact hf a
  have hself : Except.ok s = (Except.ok s' : Except Status DurableState) →
      s'.sequence = s.sequence ∧ s'.compactions = s.compactions ∧ s'.store = s.store := by
    intro he
    rw [Except.ok.inj he]
    exact ⟨rfl, rfl, rfl⟩
  cases type with
  | invalid => simp [applyPayload] at h
  | storeHeader => exact hself h
  | lineageTrim => exact hself h
  | policyPut => exact hdecoded h fun _ => ⟨rfl, rfl, rfl⟩
  | intentCommit => exact hdecoded h fun _ => ⟨rfl, rfl, rfl⟩
  | observationCommit => exact hdecoded h fun _ => ⟨rfl, rfl, rfl⟩
  | attemptIssued => exact hdecoded h fun _ => ⟨rfl, rfl, rfl⟩
  | attemptTransition => exact hdecoded h fun _ => ⟨rfl, rfl, rfl⟩
  | outcomeCommit => exact hdecoded h fun _ => ⟨rfl, rfl, rfl⟩
  | fencePut => exact hdecoded h fun _ => ⟨rfl, rfl, rfl⟩
  | fenceClear =>
    simp only [applyPayload] at h
    cases hb : Read.bytes.exactly payload with
    | none => simp [hb] at h
    | some idText =>
      rw [hb] at h
      exact hdecoded h fun _ => ⟨rfl, rfl, rfl⟩
  | epochAdvance => exact hdecoded h fun _ => ⟨rfl, rfl, rfl⟩

theorem replayEntries_frame {limits : RuntimeLimits} : ∀ {entries : List (RecordType × Bytes)}
    {s s' : DurableState}, replayEntries limits entries s = .ok s' →
    s'.sequence = s.sequence ∧ s'.compactions = s.compactions ∧ s'.store = s.store
  | [], s, s', h => by
    simp only [replayEntries, Except.ok.injEq] at h
    subst h
    exact ⟨rfl, rfl, rfl⟩
  | entry :: rest, s, s', h => by
    simp only [replayEntries] at h
    cases hap : applyPayload limits entry.1 entry.2 s with
    | error status => simp [hap] at h
    | ok mid =>
      rw [hap] at h
      obtain ⟨h1, h2, h3⟩ := applyPayload_frame hap
      obtain ⟨r1, r2, r3⟩ := replayEntries_frame h
      exact ⟨r1.trans h1, r2.trans h2, r3.trans h3⟩

/-! ## What a compaction publishes -/

/-- The state a compaction encodes: the current one with its counter advanced. -/
def DurableStore.counted (s : DurableStore) : DurableState :=
  { s.state with compactions := s.state.compactions + 1 }

/-- `Compact` publishes the counted state whenever the snapshot write goes through, whatever becomes
of the journal afterwards. -/
theorem compact_publishes {s : DurableStore} {io : CompactIo} (hro : s.readOnly = false)
    (hp : encodeSnapshotPayload s.counted ≠ []) (hio : io.snapshot = .ok) (now headerNow : UnixMillis) :
    (s.compact io now headerNow).2.directory.snapshot =
      some (buildSnapshotImage (snapshotHeaderOf s.counted now (encodeSnapshotPayload s.counted))
        (encodeSnapshotPayload s.counted)) := by
  unfold DurableStore.counted at hp ⊢
  unfold DurableStore.compact
  simp only [hro, Bool.false_eq_true, if_false, hp, hio, writeSnapshotAtomic]
  rw [if_neg (by simp [Status.ok])]
  split <;> rfl

theorem EntriesFit.relabel {s : DurableState} (h : EntriesFit s) (q : RecordSequence) (n : UInt64) :
    EntriesFit { s with sequence := q, compactions := n } := { h with }

theorem TablesOk.relabel {limits : RuntimeLimits} {s : DurableState} (h : TablesOk limits s)
    (q : RecordSequence) (n : UInt64) : TablesOk limits { s with sequence := q, compactions := n } := { h with }

theorem SnapshotBounds.relabel {limits : RuntimeLimits} {s : DurableState} (h : SnapshotBounds limits s)
    (q : RecordSequence) (n : UInt64) : SnapshotBounds limits { s with sequence := q, compactions := n } :=
  { h with }

theorem ofNat_split {b k : Nat} (h : b ≤ k) : UInt64.ofNat b + UInt64.ofNat (k - b) = UInt64.ofNat k := by
  rw [← UInt64.ofNat_add]
  congr 1
  omega

theorem ofNat_le_ofNat {a b : Nat} (h : a ≤ b) (hb : b < 2 ^ 64) : UInt64.ofNat a ≤ UInt64.ofNat b := by
  rw [UInt64.le_iff_toNat_le, UInt64.toNat_ofNat_of_lt' (by unfold UInt64.size; omega),
    UInt64.toNat_ofNat_of_lt' (by unfold UInt64.size; omega)]
  exact h

/-- Images are at least a header long, so a journal within the size limit has few records. -/
theorem length_le_recordImages : ∀ (entries : List (RecordType × Bytes)) (base : RecordSequence),
    56 * entries.length ≤ (recordImages base entries).length
  | [], _ => by simp
  | entry :: rest, base => by
    have := length_le_recordImages rest (base + 1)
    rw [recordImages_cons, List.length_append, length_buildRecordImage, List.length_cons]
    omega

theorem count_lt_of_size {limits : RuntimeLimits} {store : StoreId} {created : UnixMillis}
    {base : RecordSequence} {entries : List (RecordType × Bytes)} {t : Bytes}
    (h : (journalBytes store created base entries t).length ≤ limits.maxJournalBytes.toNat) :
    entries.length < 2 ^ 63 := by
  have h1 := length_le_recordImages entries base
  have h2 := limits.maxJournalBytes.toNat_lt
  simp only [journalBytes, List.length_append, length_buildJournalHeaderImage] at h
  omega

/-! ## Snapshot plus suffix replay -/

/-- An existing directory with these files. -/
def directoryOf (snapshot staging : Option Bytes) (journal : Bytes) : Directory :=
  ⟨true, snapshot, staging, some journal, []⟩

section Suffix

variable {limits : RuntimeLimits} {store : StoreId} {entries : List (RecordType × Bytes)}
  {final mid : DurableState}

/-- Opening the full journal without a snapshot is the plain replay. -/
theorem open_plain (hfits : ∀ e ∈ entries, RecordFits limits e)
    (hscan : ∀ e ∈ entries, e.2.length ≤ scanPayloadLimit limits)
    (hfinal : replayEntries limits entries { store := store } = .ok final) {created : UnixMillis}
    (hsize : (journalBytes store created 0 entries []).length ≤ limits.maxJournalBytes.toNat)
    (createIfMissing readOnly : Bool) (env : DurableStore.OpenEnv) (staging : Option Bytes) :
    ∃ opened report, (DurableStore.open limits createIfMissing readOnly env
        (directoryOf none staging (journalBytes store created 0 entries []))).2 = .ok (opened, report) ∧
      opened.state = { final with sequence := UInt64.ofNat entries.length } := by
  let c : Contents := ⟨store, created, 0, entries, [], none, 0⟩
  have hword : ∀ e ∈ entries, e.2.length < 2 ^ 32 := by
    intro e he
    have := hscan e he
    unfold scanPayloadLimit at this
    omega
  have hholds : Holds limits c (directoryOf none staging (journalBytes store created 0 entries [])) :=
    { present := rfl, journal := rfl, snapshot := rfl, fits := hfits, word := hword, torn := tornTail_nil _ _
      covered := Nat.zero_le _, fresh := fun _ => ⟨rfl, rfl⟩, published := by simp [c] }
  have hcount : c.entries.length < 2 ^ 63 := count_lt_of_size hsize
  have hlast : c.watermark ≤ c.last := by
    rw [show c.watermark = 0 by simp [c, Contents.watermark]]
    exact UInt64.zero_le
  obtain ⟨again, hrep, -, hagain⟩ := replayed_eq hholds.covered hlast hcount
  rw [hagain (by simp [c])] at hrep
  have hopenable : Openable limits readOnly c final :=
    { size := hsize, scannable := hscan, tail := fun _ => rfl, snapshotSize := by simp [c]
      bounds := by simp [c], watermark := hlast, replays := by rw [hrep]; exact hfinal }
  obtain ⟨report, hopen⟩ := open_succeeds hholds hopenable createIfMissing env
  refine ⟨_, report, by rw [hopen], ?_⟩
  simp [openedStore, Contents.last, c]

/-- Snapshot plus suffix replay equals full replay. Take any accepted records, the snapshot that
`Compact` publishes after the first `k` of them, and a journal that holds the records from `b` on,
where `b ≤ k`: the untouched journal (`b = 0`), the restarted one (`b = k`), or one restarted by an
earlier compaction. Opening the two gives the state of the full replay, up to the compaction
counter. -/
theorem snapshot_suffix_replay (limits : RuntimeLimits) (store : StoreId)
    (entries : List (RecordType × Bytes)) (final mid : DurableState) (b k : Nat) (s : DurableStore)
    (io : CompactIo) (now headerNow created created' : UnixMillis) (createIfMissing readOnly : Bool)
    (env : DurableStore.OpenEnv) (staging : Option Bytes)
    (hbk : b ≤ k) (hk : k ≤ entries.length) (hn : entries.length < 2 ^ 64)
    (hfits : ∀ e ∈ entries, RecordFits limits e)
    (hscan : ∀ e ∈ entries, e.2.length ≤ scanPayloadLimit limits)
    (hfinal : replayEntries limits entries { store := store } = .ok final)
    (hmid : replayEntries limits (entries.take k) { store := store } = .ok mid)
    (hstate : s.state.core = mid.core) (hsequence : s.state.sequence = UInt64.ofNat k)
    (hwritable : s.readOnly = false) (hio : io.snapshot = .ok)
    (hencodable : encodeSnapshotPayload s.counted ≠ [])
    (hentries : EntriesFit mid) (hbounds : SnapshotBounds limits mid)
    (hsnapshot : 112 + (encodeSnapshotPayload s.counted).length ≤ maxSnapshotBytes limits)
    (hsize : (journalBytes store created (UInt64.ofNat b) (entries.drop b) []).length ≤
      limits.maxJournalBytes.toNat)
    (hfull : (journalBytes store created' 0 entries []).length ≤ limits.maxJournalBytes.toNat) :
    ∃ opened plain report report',
      (DurableStore.open limits createIfMissing readOnly env
        (directoryOf (s.compact io now headerNow).2.directory.snapshot staging
          (journalBytes store created (UInt64.ofNat b) (entries.drop b) []))).2 = .ok (opened, report) ∧
      (DurableStore.open limits createIfMissing readOnly env
        (directoryOf none staging (journalBytes store created' 0 entries []))).2 = .ok (plain, report') ∧
      plain.state = { final with sequence := UInt64.ofNat entries.length } ∧
      opened.state = { plain.state with compactions := s.state.compactions + 1 } := by
  obtain ⟨plain, report', hplain, hplainState⟩ :=
    open_plain hfits hscan hfinal hfull createIfMissing readOnly env staging
  have hframe := replayEntries_frame hmid
  have hcounted : s.counted = { mid with sequence := UInt64.ofNat k, compactions := s.state.compactions + 1 } := by
    have hrebuild : s.state = { s.state.core with
        sequence := s.state.sequence, compactions := s.state.compactions } := rfl
    unfold DurableStore.counted
    rw [← hsequence, hrebuild, hstate]
    rfl
  let c : Contents := ⟨store, created, UInt64.ofNat b, entries.drop b, [], some (s.counted, now), k - b⟩
  have hwatermark : c.watermark = UInt64.ofNat k := ofNat_split hbk
  have hlast : c.last = UInt64.ofNat entries.length := by
    simp only [c, Contents.last, List.length_drop]
    exact ofNat_split (le_trans hbk hk)
  have hmem : ∀ e ∈ entries.drop b, e ∈ entries := fun e he => List.mem_of_mem_drop he
  have hpub : Published limits c s.counted :=
    { tables := by
        rw [hcounted]
        exact (replayEntries_tablesOk (tablesOk_initial limits store) hmid).relabel _ _
      fits := by rw [hcounted]; exact hentries.relabel _ _
      encodable := hencodable
      store := by rw [hcounted]; exact hframe.2.2
      sequence := by rw [hwatermark, hcounted] }
  have hholds : Holds limits c (directoryOf (s.compact io now headerNow).2.directory.snapshot staging
      (journalBytes store created (UInt64.ofNat b) (entries.drop b) [])) :=
    { present := rfl, journal := rfl
      snapshot := compact_publishes hwritable hencodable hio now headerNow
      fits := fun e he => hfits e (hmem e he)
      word := fun e he => by
        have := hscan e (hmem e he)
        unfold scanPayloadLimit at this
        omega
      torn := tornTail_nil _ _
      covered := by simp only [c, List.length_drop]; omega
      fresh := by simp [c]
      published := by
        intro p hp
        rw [← Option.some.inj hp]
        exact hpub }
  have hle : c.watermark ≤ c.last := by
    rw [hwatermark, hlast]
    exact ofNat_le_ofNat hk hn
  obtain ⟨again, hrep, -, hagain⟩ := replayed_eq hholds.covered hle (count_lt_of_size hsize)
  rw [hagain (by
    simp only [c]
    rw [UInt64.toNat_ofNat_of_lt' (by unfold UInt64.size; omega)]
    omega), List.nil_append] at hrep
  have hdrop : c.entries.drop c.covered = entries.drop k := by
    simp only [c, List.drop_drop]
    congr 1
    omega
  have hsuffix : replayEntries limits (entries.drop k) mid = .ok final := by
    have h := replayEntries_append limits (entries.take k) (entries.drop k) { store := store }
    rw [List.take_append_drop, hfinal, hmid] at h
    exact h.symm
  have hreplay : replayEntries limits c.replayed c.start =
      .ok { final with sequence := 0, compactions := s.state.compactions + 1 } := by
    rw [hrep, hdrop]
    have hstart : c.start = { mid with sequence := 0, compactions := s.state.compactions + 1 } := by
      simp only [c, Contents.start, hcounted]
    have hrelabel := replayEntries_relabel (fun _ => 0) (fun _ => s.state.compactions + 1) limits
      (entries.drop k) mid
    rw [hsuffix] at hrelabel
    rw [hstart]
    exact hrelabel
  have hopenable : Openable limits readOnly c
      { final with sequence := 0, compactions := s.state.compactions + 1 } :=
    { size := hsize, scannable := fun e he => hscan e (hmem e he), tail := fun _ => rfl
      snapshotSize := by
        intro p hp
        rw [← Option.some.inj hp]
        exact hsnapshot
      bounds := by
        intro p hp
        rw [← Option.some.inj hp, hcounted]
        exact hbounds.relabel _ _
      watermark := hle, replays := hreplay }
  obtain ⟨report, hopen⟩ := open_succeeds hholds hopenable createIfMissing env
  refine ⟨_, plain, report, report', by rw [hopen], hplain, hplainState, ?_⟩
  rw [hplainState]
  simp [openedStore, hlast]

end Suffix

/-- Two epoch advances, compacted after the first, under the default limits. -/
theorem snapshot_suffix_replay_epochs :
    ∃ opened report, (DurableStore.open {} true false {} (directoryOf
        ((⟨{}, { lastEpoch := 3, sequence := 1 }, ⟨true, 1, 0, {}, false, false⟩, false, {}, []⟩ :
          DurableStore).compact {} 0 0).2.directory.snapshot none
        (journalBytes FixedBytes.zero 0 1 [(.epochAdvance, leBytes 8 7)] []))).2 = .ok (opened, report) ∧
      opened.state.lastEpoch = 7 ∧ opened.state.sequence = 2 := by
  have hlen := length_encoded_le (snapshotScript (DurableStore.counted
    ⟨{}, { lastEpoch := 3, sequence := 1 }, ⟨true, 1, 0, {}, false, false⟩, false, {}, []⟩))
  obtain ⟨opened, plain, report, report', hopen, -, hplain, hstate⟩ := snapshot_suffix_replay {} FixedBytes.zero
    [(.epochAdvance, leBytes 8 3), (.epochAdvance, leBytes 8 7)] { lastEpoch := 7 } { lastEpoch := 3 } 1 1
    ⟨{}, { lastEpoch := 3, sequence := 1 }, ⟨true, 1, 0, {}, false, false⟩, false, {}, []⟩ {} 0 0 0 0 true false {} none
    (by decide) (by decide) (by decide)
    (by
      intro e he
      rcases List.mem_cons.mp he with rfl | he
      · exact ⟨by decide, by decide⟩
      · rw [List.mem_singleton.mp he]
        exact ⟨by decide, by decide⟩)
    (by decide) rfl rfl rfl rfl rfl rfl (by decide)
    (by constructor <;> simp [OrdMap.empty]) (by constructor <;> decide)
    (by
      have hmax : maxSnapshotBytes {} = 536870912 + 112 := by decide
      rw [hmax]
      unfold encodeSnapshotPayload
      simp only [kMaxCanonicalBytes] at hlen
      omega)
    (by simp [journalBytes, recordImages, framed]) (by simp [journalBytes, recordImages, framed])
  refine ⟨opened, report, hopen, ?_, ?_⟩
  · rw [hstate, hplain]
  · rw [hstate, hplain]
    rfl

end FabricReconciliation
