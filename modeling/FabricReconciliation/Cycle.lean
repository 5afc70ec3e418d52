import FabricReconciliation.Live

/-!
# Compacting and reopening a live store

* **`compact_cases`** — the four things a compaction can do;
* **`open_live`**, **`open_failed`** — a store that opens has replayed its contents, one that does not
  leaves them in place;
* **`open_lost`** — a truncated journal is never opened;
* **`open_blank`** — a directory without files.
-/

namespace FabricReconciliation

open Lib

/-! ## Compacting -/

section Compact

variable {limits : RuntimeLimits} {c : Contents} {extra again : List (RecordType × Bytes)} {s : DurableStore}
  {io : CompactIo}

/-- How much of the image a write leaves in the file. -/
def WriteIo.kept (io : WriteIo) (size : Nat) : Nat :=
  match io with
  | .ok => size
  | .shortWrite kept => kept
  | .flushFailed kept => kept

/-- The snapshot `Compact` writes. -/
def DurableStore.snapshotImage (s : DurableStore) (now : UnixMillis) : Bytes :=
  buildSnapshotImage (snapshotHeaderOf s.counted now (encodeSnapshotPayload s.counted))
    (encodeSnapshotPayload s.counted)

/-- The contents behind a restarted journal. -/
def DurableStore.restarted (s : DurableStore) (now headerNow : UnixMillis) : Contents :=
  ⟨s.state.store, headerNow, s.journal.lastSequence, [], [], some (s.counted, now), 0⟩

/-- The effect of one compaction. -/
inductive Compacted (limits : RuntimeLimits) (s : DurableStore) (io : CompactIo) (now headerNow : UnixMillis)
    (status : Status) (s' : DurableStore) : Prop
  /-- nothing became visible -/
  | unpublished (hs : status.code ≠ .ok) (staging : Option Bytes)
      (hsame : s' = { s with directory := { s.directory with staging := staging } })
  /-- the snapshot was replaced and the journal left as it was, but closed -/
  | closed (hs : status.code ≠ .ok) (hencodable : encodeSnapshotPayload s.counted ≠ [])
      (hio : io.reopened = false) (hsame : s' = { s with
        journal := { s.journal with isOpen := false }
        directory := { s.directory with
          snapshot := some (s.snapshotImage now), staging := none
          journal := some (s.directory.journal.getD []) } })
  /-- the journal starts again behind the snapshot -/
  | restarted (hcore : s'.state.core = s.state.core)
      (hflags : status.code = .ok → s'.journal.isOpen = true ∧ s'.journal.writeFailed = false)
      (hok : io.header = .ok → status = Status.ok) (hhealthy : s.journal.writeFailed = false)
      (hlive : Live limits (s.restarted now headerNow) [] [] s')
  /-- the journal was truncated and its header did not make it -/
  | destroyed (hs : status.code ≠ .ok) (hstate : s'.state = s.state)
      (hio : io.snapshot = .ok ∧ io.reopened = true)
      (hwhy : s.journal.writeFailed = true ∨ io.header.kept 96 < 96)
      (hlost : Lost limits s')

theorem writeSnapshotAtomic_failed {io : SnapshotIo} (h : io ≠ .ok) (image : Bytes) (dir : Directory) :
    ∃ status staging, status.code ≠ .ok ∧
      writeSnapshotAtomic io image dir = (status, { dir with staging := staging }) := by
  cases io with
  | ok => exact absurd rfl h
  | openFailed => exact ⟨_, _, by decide, rfl⟩
  | writeFailed kept removed => exact ⟨_, _, by decide, rfl⟩
  | flushFailed kept removed => exact ⟨_, _, by decide, rfl⟩
  | renameFailed removed => exact ⟨_, _, by decide, rfl⟩

/-- The handle after a header write. -/
structure HeaderWritten (j : Journal) (io : WriteIo) (status : Status) (j' : Journal) : Prop where
  last : j'.lastSequence = j.lastSequence
  bound : j'.limits = j.limits
  mode : j'.readOnly = j.readOnly
  opened : status.code = .ok → j'.isOpen = true ∧ j'.writeFailed = false
  shut : status.code ≠ .ok → j'.isOpen = false
  cause : status.code = .ok → j.writeFailed = false ∧ io = .ok
  succeeds : j.writeFailed = false → io = .ok → status = Status.ok

/-- What `Reset` leaves behind when it gets as far as writing the header. -/
theorem reset_writes {j : Journal} (hro : j.readOnly = false) (io : WriteIo) (store : StoreId)
    (now : UnixMillis) (file : Bytes) :
    ∃ status j', j.reset true io store now file = (status, j',
        if j.writeFailed then [] else (buildJournalHeaderImage store now j.lastSequence).take (io.kept 96)) ∧
      HeaderWritten j io status j' := by
  obtain ⟨isOpen, lastSequence, bytesWritten, limits, readOnly, writeFailed⟩ := j
  subst hro
  have hfull : (buildJournalHeaderImage store now lastSequence).take 96 =
      buildJournalHeaderImage store now lastSequence := List.take_of_length_le (by simp)
  -- every failure leaves the handle closed
  have hfail : ∀ {status : Status} (failed : Bool) (written : UInt64), status.code ≠ .ok →
      (writeFailed = false → io ≠ .ok) →
      HeaderWritten ⟨isOpen, lastSequence, bytesWritten, limits, false, writeFailed⟩ io status
        ⟨false, lastSequence, written, limits, false, failed⟩ := by
    intro status failed written hs hio
    exact ⟨rfl, rfl, rfl, fun h => absurd h hs, fun _ => rfl, fun h => absurd h hs,
      fun hwf hok => absurd hok (hio hwf)⟩
  cases writeFailed with
  | true =>
    exact ⟨integrityFailure .durableWriteFailed "journal write previously failed", _, rfl,
      hfail _ _ (by decide) (by simp)⟩
  | false =>
    cases io with
    | shortWrite kept => exact ⟨shortWriteStatus, _, rfl, hfail _ _ (by decide) (by simp)⟩
    | flushFailed kept => exact ⟨flushFailedStatus, _, rfl, hfail _ _ (by decide) (by simp)⟩
    | ok =>
      refine ⟨Status.ok, ⟨true, lastSequence, UInt64.ofNat kJournalHeaderBytes, limits, false, false⟩, ?_,
        ⟨rfl, rfl, rfl, fun _ => ⟨rfl, rfl⟩, fun h => absurd rfl h, fun _ => ⟨rfl, rfl⟩, fun _ _ => rfl⟩⟩
      simp only [WriteIo.kept, hfull]
      rfl

/-- The store behind a published snapshot. -/
def DurableStore.published (s : DurableStore) (now : UnixMillis) (status : Status) (j : Journal) (file : Bytes) :
    DurableStore :=
  { s with
    state := if status.code = .ok then { s.counted with sequence := j.lastSequence } else s.state
    journal := j
    directory := { s.directory with
      snapshot := some (s.snapshotImage now), staging := none, journal := some file } }

/-- `compact` in terms of `Journal.reset`, once the snapshot is in place. -/
theorem compact_published (hro : s.readOnly = false) (hp : encodeSnapshotPayload s.counted ≠ [])
    (hio : io.snapshot = .ok) (now headerNow : UnixMillis) {status : Status} {j : Journal} {file : Bytes}
    (hreset : s.journal.reset io.reopened io.header s.state.store headerNow (s.directory.journal.getD []) =
      (status, j, file)) :
    s.compact io now headerNow =
      (if status.code = .ok then Status.ok else status, s.published now status j file) := by
  have hpayload : encodeSnapshotPayload { s.state with compactions := s.state.compactions + 1 } ≠ [] := hp
  unfold DurableStore.compact
  simp only [hro, Bool.false_eq_true, if_false, hpayload, hio, writeSnapshotAtomic]
  rw [if_neg (by simp [Status.ok])]
  simp only [hreset]
  by_cases hs : status.code = .ok
  · simp only [hs, ne_eq, not_true_eq_false, if_false, if_true, DurableStore.published, hro]
    rfl
  · simp only [hs, ne_eq, not_false_eq_true, if_true, if_false, DurableStore.published, hro]
    rfl

/-- A compaction that stops before the rename. -/
theorem compact_unpublished (h : s.readOnly = true ∨ encodeSnapshotPayload s.counted = [] ∨ io.snapshot ≠ .ok)
    (now headerNow : UnixMillis) : ∃ status staging, status.code ≠ .ok ∧ s.compact io now headerNow =
      (status, { s with directory := { s.directory with staging := staging } }) := by
  unfold DurableStore.compact
  by_cases hro : s.readOnly = true
  · rw [if_pos hro]
    exact ⟨_, s.directory.staging, by decide, rfl⟩
  rw [if_neg hro]
  by_cases hempty : encodeSnapshotPayload { s.state with compactions := s.state.compactions + 1 } = []
  · simp only [hempty, if_true]
    exact ⟨_, s.directory.staging, by decide, rfl⟩
  · have hsnap : io.snapshot ≠ .ok := (h.resolve_left hro).resolve_left hempty
    obtain ⟨status, staging, hs, hfailed⟩ := writeSnapshotAtomic_failed hsnap (s.snapshotImage now) s.directory
    unfold DurableStore.snapshotImage DurableStore.counted at hfailed
    refine ⟨status, staging, hs, ?_⟩
    simp only [hempty, if_false, hfailed, hs, ne_eq, not_false_eq_true, if_true]

/-- The snapshot of the current state, behind a journal that ends with it. -/
theorem Handle.published (h : Handle limits s) (hfit : EntriesFit s.state)
    (hp : encodeSnapshotPayload s.counted ≠ []) {c : Contents} (hstore : c.store = s.state.store)
    (hwatermark : c.watermark = s.journal.lastSequence) : Published limits c s.counted :=
  { tables := h.tables.relabel _ _, fits := hfit.relabel _ _, encodable := hp, store := hstore.symm
    sequence := h.sequence.trans hwatermark.symm }

/-- The journal has restarted: the header is complete. -/
theorem Handle.restarted (h : Handle limits s) (hfit : EntriesFit s.state)
    (hp : encodeSnapshotPayload s.counted ≠ []) (now headerNow : UnixMillis) {status : Status} {j : Journal}
    (hw : HeaderWritten s.journal io.header status j) :
    Live limits (s.restarted now headerNow) [] [] (s.published now status j
      (buildJournalHeaderImage s.state.store headerNow s.journal.lastSequence)) := by
  have hstate : (s.published now status j
      (buildJournalHeaderImage s.state.store headerNow s.journal.lastSequence)).state.core = s.counted.core := by
    unfold DurableStore.published
    by_cases hs : status.code = .ok
    · rw [if_pos hs]
      rfl
    · rw [if_neg hs]
      rfl
  have hlast : (s.restarted now headerNow).last = s.journal.lastSequence := by
    simp [Contents.last, DurableStore.restarted]
  have hpub : Published limits (s.restarted now headerNow) s.counted :=
    h.published hfit hp rfl (by simp [Contents.watermark, DurableStore.restarted])
  refine { bound := h.bound, journalBound := hw.bound.trans h.journalBound, mode := hw.mode.trans h.mode
           sequence := ?_, tables := ?_, present := h.present, holds := ?_, covered := Nat.zero_le _
           store := ?_, last := hw.last.trans hlast.symm, healthy := fun _ => ⟨rfl, rfl⟩
           failed := by simp, repeated := by simp, memory := ?_ }
  · unfold DurableStore.published
    by_cases hs : status.code = .ok
    · rw [if_pos hs]
    · rw [if_neg hs]
      exact h.sequence.trans hw.last.symm
  · unfold DurableStore.published
    by_cases hs : status.code = .ok
    · rw [if_pos hs]
      exact h.tables.relabel _ _
    · rw [if_neg hs]
      exact h.tables
  · refine { present := h.present, journal := ?_, snapshot := rfl, fits := ?_, word := ?_
             torn := tornTail_nil _ _, covered := Nat.zero_le _, fresh := ?_, published := ?_ }
    · simp [Contents.journalFile, Contents.with, DurableStore.restarted, journalBytes, recordImages, framed,
        DurableStore.published]
    · intro e he
      simp [Contents.with, DurableStore.restarted] at he
    · intro e he
      simp [Contents.with, DurableStore.restarted] at he
    · simp [Contents.with, DurableStore.restarted]
    · intro p hpp
      rw [← Option.some.inj hpp]
      exact ⟨hpub.tables, hpub.fits, hpub.encodable, hpub.store, hpub.sequence⟩
  · unfold DurableStore.published
    split <;> rfl
  · rw [hstate]
    rfl

/-- **`compact_cases`**. -/
theorem compact_cases (h : Handle limits s) (hfit : EntriesFit s.state) (io : CompactIo)
    (now headerNow : UnixMillis) :
    Compacted limits s io now headerNow (s.compact io now headerNow).1 (s.compact io now headerNow).2 := by
  by_cases hnot : s.readOnly = true ∨ encodeSnapshotPayload s.counted = [] ∨ io.snapshot ≠ .ok
  · obtain ⟨status, staging, hs, heq⟩ := compact_unpublished hnot now headerNow
    rw [heq]
    exact .unpublished hs staging rfl
  push Not at hnot
  obtain ⟨hro, hp, hsnap⟩ := hnot
  have hro : s.readOnly = false := by simpa using hro
  have hjro : s.journal.readOnly = false := h.mode.trans hro
  cases hre : io.reopened with
  | false =>
    have hreset : s.journal.reset io.reopened io.header s.state.store headerNow (s.directory.journal.getD []) =
        (⟨.rejected, .snapshotReplacementFailed, "cannot recreate journal"⟩, { s.journal with isOpen := false },
          s.directory.journal.getD []) := by
      simp [Journal.reset, hjro, hre]
    rw [compact_published hro hp hsnap now headerNow hreset]
    exact .closed (by simp) hp hre rfl
  | true =>
    obtain ⟨status, j, hreset, hw⟩ := reset_writes hjro io.header s.state.store headerNow
      (s.directory.journal.getD [])
    have heq := hreset
    nth_rewrite 1 [← hre] at heq
    rw [compact_published hro hp hsnap now headerNow heq]
    have hcode : (if status.code = .ok then Status.ok else status).code = .ok ↔ status.code = .ok := by
      by_cases hs : status.code = .ok
      · simp [hs, Status.ok]
      · simp [hs]
    by_cases hfull : s.journal.writeFailed = false ∧ 96 ≤ io.header.kept 96
    · have hfile : (if s.journal.writeFailed = true then [] else
          (buildJournalHeaderImage s.state.store headerNow s.journal.lastSequence).take (io.header.kept 96)) =
          buildJournalHeaderImage s.state.store headerNow s.journal.lastSequence := by
        rw [if_neg (by simp [hfull.1]), List.take_of_length_le (by simp [hfull.2])]
      rw [hfile]
      refine .restarted ?_ ?_ ?_ hfull.1 (h.restarted hfit hp now headerNow hw)
      · unfold DurableStore.published
        split <;> rfl
      · exact fun hs => hw.opened (hcode.mp hs)
      · intro hok
        rw [hw.succeeds hfull.1 hok]
        rfl
    · have hwhy : s.journal.writeFailed = true ∨ io.header.kept 96 < 96 := by
        by_cases hwf : s.journal.writeFailed = true
        · exact .inl hwf
        · exact .inr (by
            by_contra hge
            exact hfull ⟨by simpa using hwf, by omega⟩)
      have hs : status.code ≠ .ok := by
        intro hc
        obtain ⟨hwf, hio⟩ := hw.cause hc
        exact hfull ⟨hwf, by rw [hio]; exact le_refl 96⟩
      refine .destroyed (fun hc => hs (hcode.mp hc)) ?_ ⟨hsnap, hre⟩ hwhy ?_
      · simp [DurableStore.published, hs]
      · refine { bound := h.bound, journalBound := hw.bound.trans h.journalBound, mode := hw.mode.trans h.mode
                 sequence := ?_, tables := ?_, present := h.present, closed := hw.shut hs
                 short := ⟨_, rfl, ?_⟩ }
        · simp only [DurableStore.published, hs, if_false]
          exact h.sequence.trans hw.last.symm
        · simp only [DurableStore.published, hs, if_false]
          exact h.tables
        · rcases hwhy with hwf | hkept
          · simp [hwf]
          · split
            · simp
            · simp only [List.length_take]
              omega

/-- The snapshot was replaced but the journal kept: every entry is covered now. -/
def Contents.sealed (c : Contents) (s : DurableStore) (now : UnixMillis) : Contents :=
  { c with published := some (s.counted, now), covered := c.entries.length }

/-- The store whose journal could not be reopened for its restart. -/
def DurableStore.shut (s : DurableStore) (now : UnixMillis) : DurableStore :=
  { s with
    journal := { s.journal with isOpen := false }
    directory := { s.directory with
      snapshot := some (s.snapshotImage now), staging := none, journal := some (s.directory.journal.getD []) } }

theorem Live.shut (h : Live limits c extra again s) (hfit : EntriesFit s.state)
    (hp : encodeSnapshotPayload s.counted ≠ []) (now : UnixMillis) :
    Live limits (c.sealed s now) extra [] (s.shut now) := by
  have hpub : Published limits ((c.sealed s now).with extra) s.counted :=
    h.toHandle.published hfit hp h.store.symm h.last.symm
  refine { bound := h.bound, journalBound := h.journalBound, mode := h.mode, sequence := h.sequence
           tables := h.tables, present := h.present, holds := ?_, covered := le_refl _, store := h.store
           last := h.last, healthy := h.healthy, failed := h.failed, repeated := by simp, memory := ?_ }
  · refine { present := h.present, journal := ?_, snapshot := rfl, fits := h.holds.fits, word := h.holds.word
             torn := h.holds.torn, covered := ?_, fresh := ?_, published := ?_ }
    · simp only [DurableStore.shut, h.holds.journal, Option.getD_some]
      rfl
    · simp [Contents.with, Contents.sealed]
    · simp [Contents.with, Contents.sealed]
    · intro p hpp
      rw [← Option.some.inj hpp]
      exact hpub
  · simp only [Contents.sealed, List.drop_length]
    rfl

theorem Lost.shut (h : Lost limits s) (now : UnixMillis) : Lost limits (s.shut now) := by
  obtain ⟨bytes, hbytes, hlen⟩ := h.short
  exact { bound := h.bound, journalBound := h.journalBound, mode := h.mode, sequence := h.sequence
          tables := h.tables, present := h.present, closed := rfl
          short := ⟨bytes, by simp [DurableStore.shut, hbytes], hlen⟩ }

end Compact

/-! ## Opening -/

section Open

variable {limits : RuntimeLimits} {c : Contents} {dir dir' : Directory} {createIfMissing readOnly : Bool}
  {env : DurableStore.OpenEnv} {s : DurableStore} {report : DurableStore.StoreOpenReport} {status : Status}

/-- **`open_live`**. -/
theorem open_live (h : Holds limits c dir)
    (hok : DurableStore.open limits createIfMissing readOnly env dir = (dir', .ok (s, report))) :
    ∃ again state, replayEntries limits (again ++ c.entries.drop c.covered) c.start = .ok state ∧
      s.state = { state with sequence := c.last } ∧
      (c.base.toNat + c.covered < 2 ^ 64 → again = []) ∧
      Live limits c.trimmed [] again s ∧ s.journal.isOpen = true ∧ s.journal.writeFailed = false ∧
      s.readOnly = readOnly ∧ s.faults = [] ∧ s.directory = dir' := by
  obtain ⟨state, ho⟩ := open_ok h (congrArg Prod.snd hok)
  obtain ⟨report', hopen⟩ := open_succeeds h ho createIfMissing env
  rw [hok, Prod.mk.injEq, Except.ok.injEq, Prod.mk.injEq] at hopen
  obtain ⟨hdir, rfl, -⟩ := hopen
  obtain ⟨again, hrep, hmem, hnone⟩ := replayed_eq h.covered ho.watermark (count_lt_of_size ho.size)
  have hreplay := ho.replays
  rw [hrep] at hreplay
  have htables : TablesOk limits state := replayEntries_tablesOk h.start_tablesOk hreplay
  refine ⟨again, state, hreplay, rfl, hnone, ?_, rfl, rfl, rfl, rfl, hdir.symm⟩
  refine { bound := rfl, journalBound := rfl, mode := rfl, sequence := rfl, tables := htables.relabel _ _
           present := h.present, holds := ?_, covered := h.covered, store := ?_, last := rfl
           healthy := fun _ => ⟨rfl, rfl⟩, failed := by simp, repeated := hmem, memory := ?_ }
  · rw [Contents.with_nil]
    exact h.trimmed _
  · have hstore : c.start.store = c.store := by
      unfold Contents.start
      cases hp : c.published with
      | none => rfl
      | some p => exact (h.published p hp).store
    exact (replayEntries_frame hreplay).2.2.trans hstore
  · have := absorbAll_of_replay hreplay
    rw [show c.trimmed.entries.drop c.trimmed.covered = c.entries.drop c.covered from rfl,
      show c.trimmed.start = c.start from rfl, this]
    rfl

/-- A refused journal is not touched. -/
theorem openExisting_refused {options : JournalOpenOptions} {content : Bytes}
    (h : (Journal.openExisting options content).2 = .error status) :
    (Journal.openExisting options content).1 = content := by
  unfold Journal.openExisting at h ⊢
  split
  · rfl
  split
  · rfl
  rw [if_neg (by assumption), if_neg (by assumption)] at h
  split
  · rfl
  next header hparse =>
    rw [hparse] at h
    simp only at h
    split
    · rfl
    next records torn hscan =>
      rw [hscan] at h
      simp only at h
      split
      · rfl
      · rw [if_neg (by assumption)] at h
        simp at h

/-- The files after opening an existing store: at most the journal's tail and the staging file go. -/
theorem open_leaves (limits : RuntimeLimits) (createIfMissing readOnly : Bool) (env : DurableStore.OpenEnv)
    {bytes : Bytes} (hpresent : dir.present = true) (hjournal : dir.journal = some bytes) :
    ∃ staging file, (DurableStore.open limits createIfMissing readOnly env dir).1 =
        { dir with staging := staging, journal := some file } ∧
      (file = bytes ∨
        file = (Journal.openExisting ⟨limits, createIfMissing && !readOnly, readOnly⟩ bytes).1) ∧
      (∀ r, (DurableStore.open limits createIfMissing readOnly env dir).2 = .ok r →
        ∃ opened, (Journal.openExisting ⟨limits, createIfMissing && !readOnly, readOnly⟩ bytes).2 = .ok opened) := by
  obtain ⟨staging, hclean⟩ : ∃ staging, (if readOnly = true then dir else { dir with staging := none }) =
      { dir with staging := staging } := by
    cases readOnly with
    | false => exact ⟨none, rfl⟩
    | true => exact ⟨dir.staging, rfl⟩
  have hfinish : ∀ parsed, ∃ file,
      (DurableStore.openFiles.finish limits createIfMissing readOnly false env
        { dir with staging := staging } parsed).1 = { dir with staging := staging, journal := some file } ∧
      file = (Journal.openExisting ⟨limits, createIfMissing && !readOnly, readOnly⟩ bytes).1 ∧
      (∀ r, (DurableStore.openFiles.finish limits createIfMissing readOnly false env
          { dir with staging := staging } parsed).2 = .ok r →
        ∃ opened, (Journal.openExisting ⟨limits, createIfMissing && !readOnly, readOnly⟩ bytes).2 = .ok opened) := by
    intro parsed
    unfold DurableStore.openFiles.finish
    simp only [hjournal, Journal.open]
    cases hexisting : (Journal.openExisting ⟨limits, createIfMissing && !readOnly, readOnly⟩ bytes).2 with
    | error status => exact ⟨_, rfl, rfl, by simp⟩
    | ok opened =>
      refine ⟨_, ?_, rfl, fun r _ => ⟨opened, rfl⟩⟩
      simp only
      split <;> rfl
  have hfiles : DurableStore.open limits createIfMissing readOnly env dir =
      DurableStore.openFiles limits createIfMissing readOnly false env dir := by
    unfold DurableStore.open
    rw [if_neg (by simp [hpresent])]
  rw [hfiles]
  unfold DurableStore.openFiles
  simp only [hclean]
  cases hread : readSnapshot limits dir.snapshot with
  | ok parsed =>
    obtain ⟨file, hdir, hfile, hopened⟩ := hfinish (some parsed)
    exact ⟨staging, file, hdir, .inr hfile, hopened⟩
  | error status =>
    by_cases hmissing : status.code ≠ .notFound
    · simp only [hmissing, ne_eq, not_false_eq_true, if_true]
      exact ⟨staging, bytes, by rw [← hjournal], .inl rfl, by simp⟩
    · simp only [hmissing, if_false]
      obtain ⟨file, hdir, hfile, hopened⟩ := hfinish none
      exact ⟨staging, file, hdir, .inr hfile, hopened⟩

/-- A failed open leaves the contents, possibly without their torn tail. -/
theorem open_failed (h : Holds limits c dir)
    (hbad : DurableStore.open limits createIfMissing readOnly env dir = (dir', .error status)) :
    Holds limits c dir' ∨ Holds limits c.trimmed dir' := by
  obtain ⟨staging, file, hdir, hfile, -⟩ := open_leaves limits createIfMissing readOnly env h.present h.journal
  rw [hbad] at hdir
  rw [show dir' = _ from hdir]
  have hsame : file = c.journalFile → Holds limits c { dir with staging := staging, journal := some file } := by
    rintro rfl
    exact { h with journal := rfl }
  rcases hfile with hfile | hfile
  · exact .inl (hsame hfile)
  · cases hexisting : (Journal.openExisting ⟨limits, createIfMissing && !readOnly, readOnly⟩ c.journalFile).2 with
    | error refused => exact .inl (hsame (hfile.trans (openExisting_refused hexisting)))
    | ok opened =>
      obtain ⟨-, -, -, htrim, -⟩ := @openExisting_ok ⟨limits, createIfMissing && !readOnly, readOnly⟩
        _ _ _ _ _ _ _ _ h.fits h.word h.torn (Prod.ext rfl hexisting)
      rw [show file = c.trimmed.journalFile from hfile.trans htrim]
      exact .inr (h.trimmed staging)

/-- **`open_lost`**: a journal below the size of its header is never opened. -/
theorem open_lost (limits : RuntimeLimits) (createIfMissing readOnly : Bool) (env : DurableStore.OpenEnv)
    {bytes : Bytes} (hpresent : dir.present = true) (hjournal : dir.journal = some bytes)
    (hshort : bytes.length < 96) :
    ∃ dir' status, DurableStore.open limits createIfMissing readOnly env dir = (dir', .error status) ∧
      dir'.present = true ∧ dir'.journal = some bytes := by
  obtain ⟨status, hrefused⟩ : ∃ status,
      (Journal.openExisting ⟨limits, createIfMissing && !readOnly, readOnly⟩ bytes).2 = .error status := by
    unfold Journal.openExisting
    by_cases hbig : limits.maxJournalBytes.toNat < bytes.length
    · rw [if_pos hbig]
      exact ⟨_, rfl⟩
    · rw [if_neg hbig, if_pos hshort]
      exact ⟨_, rfl⟩
  obtain ⟨staging, file, hdir, hfile, hopened⟩ :=
    open_leaves limits createIfMissing readOnly env hpresent hjournal
  have hsame : file = bytes := hfile.elim id fun h => h.trans (openExisting_refused hrefused)
  cases hr : (DurableStore.open limits createIfMissing readOnly env dir).2 with
  | ok r =>
    obtain ⟨opened, hex⟩ := hopened r hr
    simp [hrefused] at hex
  | error refused =>
    refine ⟨_, refused, Prod.ext hdir hr, hpresent, ?_⟩
    rw [hsame]

/-! A new store -/

/-- No file of the store exists yet. -/
def Blank (dir : Directory) : Prop := dir.snapshot = none ∧ dir.journal = none

/-- The contents of a store that was just created. -/
def DurableStore.OpenEnv.contents (env : DurableStore.OpenEnv) : Contents :=
  ⟨env.fresh, env.now, 0, [], [], none, 0⟩

theorem holds_created (limits : RuntimeLimits) (env : DurableStore.OpenEnv) {dir : Directory}
    (hpresent : dir.present = true) (hsnapshot : dir.snapshot = none)
    (hjournal : dir.journal = some (buildJournalHeaderImage env.fresh env.now 0)) :
    Holds limits env.contents dir := by
  refine { present := hpresent, journal := ?_, snapshot := hsnapshot, fits := ?_, word := ?_
           torn := tornTail_nil _ _, covered := le_refl _, fresh := fun _ => ⟨rfl, rfl⟩, published := ?_ }
  · rw [hjournal]
    simp [Contents.journalFile, DurableStore.OpenEnv.contents, journalBytes, recordImages, framed]
  · simp [DurableStore.OpenEnv.contents]
  · simp [DurableStore.OpenEnv.contents]
  · simp [DurableStore.OpenEnv.contents]

/-- What `Open` makes of a directory without files. -/
inductive Created (limits : RuntimeLimits) (readOnly : Bool) (env : DurableStore.OpenEnv) (dir' : Directory) :
    Except Status (DurableStore × DurableStore.StoreOpenReport) → Prop
  /-- nothing was created -/
  | refused (status : Status) (hblank : Blank dir') : Created limits readOnly env dir' (.error status)
  /-- the header write failed -/
  | torn (status : Status) (hio : env.io ≠ .ok) (hdir : Holds limits env.contents dir' ∨ dir'.present = true ∧
      ∃ bytes, dir'.journal = some bytes ∧ bytes.length < 96) : Created limits readOnly env dir' (.error status)
  | opened (s : DurableStore) (report : DurableStore.StoreOpenReport)
      (hstate : s.state = { store := env.fresh }) (hlive : Live limits env.contents [] [] s)
      (hflags : s.journal.isOpen = true ∧ s.journal.writeFailed = false ∧ s.readOnly = readOnly ∧ s.faults = [])
      (hdir : s.directory = dir') : Created limits readOnly env dir' (.ok (s, report))

theorem finish_blank (created : Bool) (hpresent : dir.present = true) (hblank : Blank dir) :
    Created limits readOnly env
      (DurableStore.openFiles.finish limits createIfMissing readOnly created env dir none).1
      (DurableStore.openFiles.finish limits createIfMissing readOnly created env dir none).2 := by
  obtain ⟨hsnapshot, hjournal⟩ := hblank
  have hlen := length_buildJournalHeaderImage env.fresh env.now 0
  unfold DurableStore.openFiles.finish
  simp only [hjournal, Journal.open]
  by_cases hmay : (createIfMissing && !readOnly) = true
  swap
  · simp only [hmay, Bool.not_false, if_true]
    exact .refused _ ⟨hsnapshot, rfl⟩
  simp only [hmay, Bool.not_true, Bool.false_eq_true, if_false]
  -- a failed header write leaves any prefix
  have htorn : ∀ (kept : Nat) (status : Status), env.io ≠ .ok → Created limits readOnly env
      { dir with journal := some ((buildJournalHeaderImage env.fresh env.now 0).take kept) } (.error status) := by
    intro kept status hio
    refine .torn status hio ?_
    by_cases hall : kept < 96
    · refine .inr ⟨hpresent, _, rfl, ?_⟩
      simp only [List.length_take]
      omega
    · refine .inl (holds_created limits env hpresent hsnapshot ?_)
      rw [List.take_of_length_le (by omega)]
  cases hio : env.io with
  | shortWrite kept => exact htorn kept _ (by simp [hio])
  | flushFailed kept => exact htorn kept _ (by simp [hio])
  | ok =>
    have hholds : Holds limits env.contents
        { dir with journal := some (buildJournalHeaderImage env.fresh env.now 0) } :=
      holds_created limits env hpresent hsnapshot rfl
    refine .opened _ _ rfl ?_ ⟨rfl, rfl, rfl, rfl⟩ rfl
    exact { bound := rfl, journalBound := rfl, mode := rfl, sequence := rfl
            tables := tablesOk_initial limits env.fresh, present := hpresent
            holds := by rw [Contents.with_nil]; exact hholds
            covered := le_refl _, store := rfl, last := rfl, healthy := fun _ => ⟨rfl, rfl⟩
            failed := by simp, repeated := by simp, memory := rfl }

/-- **`open_blank`**. -/
theorem open_blank (limits : RuntimeLimits) (createIfMissing readOnly : Bool) (env : DurableStore.OpenEnv)
    (hblank : Blank dir) :
    Created limits readOnly env (DurableStore.open limits createIfMissing readOnly env dir).1
      (DurableStore.open limits createIfMissing readOnly env dir).2 := by
  have hfiles : ∀ (created : Bool) (d : Directory), d.present = true → Blank d →
      Created limits readOnly env (DurableStore.openFiles limits createIfMissing readOnly created env d).1
        (DurableStore.openFiles limits createIfMissing readOnly created env d).2 := by
    intro created d hpresent hb
    obtain ⟨hsnapshot, hjournal⟩ := hb
    unfold DurableStore.openFiles
    cases readOnly with
    | false =>
      simp only [Bool.false_eq_true, if_false, hsnapshot, readSnapshot]
      rw [if_neg (by simp)]
      exact finish_blank created hpresent ⟨rfl, hjournal⟩
    | true =>
      simp only [if_true, hsnapshot, readSnapshot]
      rw [if_neg (by simp)]
      exact finish_blank created hpresent ⟨hsnapshot, hjournal⟩
  unfold DurableStore.open
  by_cases hpresent : dir.present = true
  · rw [if_neg (by simp [hpresent])]
    exact hfiles false dir hpresent hblank
  · rw [if_pos (by simp [hpresent])]
    cases createIfMissing with
    | false => exact .refused _ hblank
    | true => exact hfiles true { present := true } rfl ⟨rfl, rfl⟩

end Open

end FabricReconciliation
