import FabricReconciliation.Success

/-!
# What a failed open reports (`store.cpp:236-340`, `journal.cpp:303-480`, `snapshot.cpp:178-247`)

`Open` hands through the statuses of the files' readers, and the caller decides by their codes alone whether an
engine is up. None of the readers reports OK for a failure, whatever the files hold.

* **`open_error`** — the codes that `DurableStore::Open` fails with;
* **`boot_ok_iff`** — a boot returns OK exactly when an engine comes up.
-/

namespace FabricReconciliation

open Lib

section Readers

variable {limits : RuntimeLimits} {status : Status}

/-! ## The journal -/

theorem scanStep_refused {expected : RecordSequence} {remaining : Bytes}
    (h : scanStep limits expected remaining = .refused status) : status.code = .integrityFailure := by
  unfold scanStep at h
  repeat' split at h
  all_goals cases h <;> rfl

theorem scan_error {rounds : Nat} {expected : RecordSequence} {remaining : Bytes} {records : List JournalRecord}
    (h : scan limits rounds expected remaining records = .error status) : status.code = .integrityFailure := by
  induction rounds generalizing expected remaining records with
  | zero => simp [scan] at h
  | succ rounds ih =>
    unfold scan at h
    split at h
    · simp at h
    cases hstep : scanStep limits expected remaining with
    | torn => simp [hstep] at h
    | refused refused =>
      rw [hstep] at h
      rw [← Except.error.inj h]
      exact scanStep_refused hstep
    | record header =>
      rw [hstep] at h
      exact ih h

/-- The codes `Open` fails with. -/
def Status.shut (status : Status) : Prop :=
  status.code = .integrityFailure ∨ status.code = .limitExceeded ∨ status.code = .notFound

theorem Status.shut.ne_ok (h : status.shut) : status.code ≠ .ok := by
  rcases h with h | h | h <;> simp [h]

/-- Apart from its size, a journal is refused as damaged. -/
theorem openExisting_error {options : JournalOpenOptions} {content : Bytes}
    (h : (Journal.openExisting options content).2 = .error status) : status.code = .integrityFailure ∨
      status.code = .limitExceeded ∧ options.limits.maxJournalBytes.toNat < content.length := by
  unfold Journal.openExisting at h
  split at h
  next hbig =>
    cases h
    exact .inr ⟨rfl, hbig⟩
  split at h
  · cases h
    exact .inl rfl
  split at h
  · cases h
    exact .inl rfl
  split at h
  next scanned hscan =>
    cases h
    exact .inl (scan_error hscan)
  · split at h
    · cases h
      exact .inl rfl
    · simp at h

theorem journal_open_error {options : JournalOpenOptions} {fresh : StoreId} {now : UnixMillis} {io : WriteIo}
    {file : Option Bytes} (h : (Journal.open options fresh now io file).2 = .error status) : status.shut := by
  unfold Journal.open at h
  cases file with
  | some content =>
    rcases openExisting_error h with hdamaged | ⟨hbig, -⟩
    · exact .inl hdamaged
    · exact .inr (.inl hbig)
  | none =>
    simp only at h
    split at h
    · cases h
      exact .inr (.inr rfl)
    unfold Journal.create at h
    cases io with
    | ok => simp at h
    | shortWrite kept =>
      cases h
      exact .inl rfl
    | flushFailed kept =>
      cases h
      exact .inl rfl

/-! ## The records -/

theorem replay_error {watermark : RecordSequence} {records : List JournalRecord} {s : DurableState}
    (h : DurableStore.replay limits watermark records s = .error status) : status.code = .integrityFailure := by
  induction records generalizing s with
  | nil => simp [DurableStore.replay] at h
  | cons record rest ih =>
    unfold DurableStore.replay at h
    split at h
    · exact ih h
    cases happly : applyPayload limits record.type record.payload s with
    | error refused =>
      rw [happly] at h
      rw [← Except.error.inj h]
      exact applyPayload_error happly
    | ok s' =>
      rw [happly] at h
      exact ih h

/-! ## The snapshot -/

def Status.damaged (status : Status) : Prop := status.code = .integrityFailure

theorem expect_refuses {α : Type} (detail : String) (r : Reader α) :
    Checked.Refuses Status.damaged (Checked.expect (snapshotInvalid detail) r) := by
  have hdamaged : (snapshotInvalid detail).damaged := rfl
  exact Checked.refuses_expect hdamaged r

theorem readNested_refuses {α : Type} (what : String) (decode : Bytes → Option α) :
    Checked.Refuses Status.damaged (readNested what decode) := by
  apply Checked.Refuses.bind
  · exact expect_refuses _ _
  · intro bytes
    exact expect_refuses _ _

theorem readTableSize_refuses (bound : Nat) (detail : String) :
    Checked.Refuses Status.damaged (readTableSize bound detail) :=
  expect_refuses _ _

theorem readScopeEntry_refuses (bound : Nat) (detail : String) :
    Checked.Refuses Status.damaged (readScopeEntry bound detail) := by
  apply Checked.Refuses.bind
  · exact expect_refuses _ _
  · rintro ⟨text, count⟩
    apply Checked.Refuses.bind
    · exact expect_refuses _ _
    · intro scope
      exact Checked.refuses_pure _

theorem readGenerationEntry_refuses (limits : RuntimeLimits) :
    Checked.Refuses Status.damaged (readGenerationEntry limits) := by
  apply (readScopeEntry_refuses _ _).bind
  rintro ⟨scope, count⟩
  exact (Checked.Refuses.list (expect_refuses _ _) _).bind fun _ => Checked.refuses_pure _

theorem readIntentEntry_refuses (limits : RuntimeLimits) :
    Checked.Refuses Status.damaged (readIntentEntry limits) :=
  (readNested_refuses _ _).bind fun _ => Checked.refuses_pure _

theorem readObservationEntry_refuses (limits : RuntimeLimits) :
    Checked.Refuses Status.damaged (readObservationEntry limits) := by
  apply (readScopeEntry_refuses _ _).bind
  rintro ⟨scope, count⟩
  have hitem : Checked.Refuses Status.damaged (readObservation limits) :=
    (expect_refuses _ _).bind fun _ => expect_refuses _ _
  exact (hitem.list _).bind fun _ => Checked.refuses_pure _

theorem readAttemptEntry_refuses (limits : RuntimeLimits) :
    Checked.Refuses Status.damaged (readAttemptEntry limits) :=
  (readNested_refuses _ _).bind fun _ => Checked.refuses_pure _

theorem readFenceEntry_refuses :
    Checked.Refuses Status.damaged readFenceEntry :=
  (readNested_refuses _ _).bind fun _ => Checked.refuses_pure _

theorem readPolicy_refuses (limits : RuntimeLimits) (hasPolicy : Bool) :
    Checked.Refuses Status.damaged (readPolicy limits hasPolicy) := by
  unfold readPolicy
  split
  · exact readNested_refuses _ _
  · exact Checked.refuses_pure _

theorem snapshotReader_refuses (limits : RuntimeLimits) (s : DurableState) :
    Checked.Refuses Status.damaged (snapshotReader limits s) := by
  refine (expect_refuses _ _).bind fun head => ?_
  refine (readPolicy_refuses limits _).bind fun policy => ?_
  refine (readTableSize_refuses _ _).bind fun generationScopes => ?_
  refine ((readGenerationEntry_refuses limits).table _).bind fun generations => ?_
  refine (readTableSize_refuses _ _).bind fun intentCount => ?_
  refine ((readIntentEntry_refuses limits).table _).bind fun intents => ?_
  refine (readTableSize_refuses _ _).bind fun observationScopes => ?_
  refine ((readObservationEntry_refuses limits).table _).bind fun observations => ?_
  refine (readTableSize_refuses _ _).bind fun attemptCount => ?_
  refine ((readAttemptEntry_refuses limits).table _).bind fun attempts => ?_
  refine (readTableSize_refuses _ _).bind fun outcomeCount => ?_
  refine ((readNested_refuses _ _).list _).bind fun outcomes => ?_
  refine (readTableSize_refuses _ _).bind fun fenceCount => ?_
  refine (readFenceEntry_refuses.table _).bind fun fences => ?_
  exact (expect_refuses _ _).bind fun compactions => Checked.refuses_pure _

theorem applySnapshotPayload_error {payload : Bytes} {s : DurableState}
    (h : applySnapshotPayload limits payload s = .error status) : status.code = .integrityFailure :=
  (snapshotReader_refuses limits s).exactly (e := snapshotInvalid _) rfl h

theorem readSnapshot_error {file : Option Bytes} (h : readSnapshot limits file = .error status) : status.shut := by
  unfold readSnapshot at h
  cases file with
  | none =>
    cases h
    exact .inr (.inr rfl)
  | some content =>
    simp only at h
    split at h
    · cases h
      exact .inr (.inl rfl)
    split at h
    · cases h
      exact .inl rfl
    · simp at h

end Readers

/-! ## The store and the engine -/

section Boot

variable {limits : RuntimeLimits} {createIfMissing readOnly created : Bool} {env : DurableStore.OpenEnv}
  {dir : Directory} {status : Status}

theorem recoverState_error {snapshot : Option (SnapshotHeader × Bytes)} {opened : JournalOpened}
    (h : DurableStore.recoverState limits snapshot opened = .error status) : status.code = .integrityFailure := by
  unfold DurableStore.recoverState at h
  cases snapshot with
  | none =>
    simp only at h
    split at h
    next refused hreplay =>
      cases h
      exact replay_error hreplay
    · simp at h
  | some found =>
    obtain ⟨header, payload⟩ := found
    simp only at h
    -- the snapshot may be of another store, ahead of the journal, or not parse
    by_cases hother : header.store ≠ opened.report.header.store
    · simp only [if_pos hother] at h
      cases h
      rfl
    simp only [if_neg hother] at h
    by_cases hahead : opened.report.lastSequence < header.watermark
    · simp only [if_pos hahead] at h
      cases h
      rfl
    simp only [if_neg hahead] at h
    cases happly : applySnapshotPayload limits payload { store := header.store, lastEpoch := header.epoch } with
    | error refused =>
      rw [happly] at h
      cases h
      exact applySnapshotPayload_error happly
    | ok s =>
      rw [happly] at h
      simp only at h
      split at h
      next refused hreplay =>
        cases h
        exact replay_error hreplay
      · simp at h

theorem finish_error {cleaned : Directory} {snapshot : Option (SnapshotHeader × Bytes)}
    (h : (DurableStore.openFiles.finish limits createIfMissing readOnly created env cleaned snapshot).2 =
      .error status) : status.shut := by
  unfold DurableStore.openFiles.finish at h
  simp only at h
  split at h
  next refused hjournal =>
    cases h
    exact journal_open_error hjournal
  next opened hjournal =>
    split at h
    next refused hrecover =>
      cases h
      exact .inl (recoverState_error hrecover)
    · simp at h

theorem openFiles_error (h : (DurableStore.openFiles limits createIfMissing readOnly created env dir).2 =
    .error status) : status.shut := by
  unfold DurableStore.openFiles at h
  simp only at h
  split at h
  next refused hread =>
    split at h
    · cases h
      exact readSnapshot_error hread
    · exact finish_error h
  · exact finish_error h

/-- **`open_error`**. -/
theorem open_error (h : (DurableStore.open limits createIfMissing readOnly env dir).2 = .error status) :
    status.shut := by
  unfold DurableStore.open at h
  split at h
  · split at h
    · cases h
      exact .inr (.inr rfl)
    · exact openFiles_error h
  · exact openFiles_error h

/-- Contents within their size limits are refused as damaged. -/
theorem open_damaged {c : Contents} (h : Holds limits c dir)
    (hjournal : c.journalFile.length ≤ limits.maxJournalBytes.toNat)
    (hsnapshot : ∀ p, c.published = some p → 112 + (encodeSnapshotPayload p.1).length ≤ maxSnapshotBytes limits)
    (hbad : (DurableStore.open limits createIfMissing readOnly env dir).2 = .error status) :
    status.code = .integrityFailure := by
  have hclean : (if readOnly = true then dir else { dir with staging := none }).snapshot = dir.snapshot ∧
      (if readOnly = true then dir else { dir with staging := none }).journal = some c.journalFile := by
    cases readOnly <;> exact ⟨rfl, h.journal⟩
  have hread := readSnapshot_holds h
  rw [← hclean.1] at hread
  have hfinish : ∀ snapshot, (DurableStore.openFiles.finish limits createIfMissing readOnly false env
      (if readOnly = true then dir else { dir with staging := none }) snapshot).2 = .error status →
        status.code = .integrityFailure := by
    intro snapshot hstatus
    unfold DurableStore.openFiles.finish at hstatus
    simp only [hclean.2, Journal.open] at hstatus
    split at hstatus
    next refused hrefused =>
      cases hstatus
      rcases openExisting_error hrefused with hdamaged | ⟨-, hbig⟩
      · exact hdamaged
      · exact absurd hbig (not_lt.mpr hjournal)
    next opened hopened =>
      split at hstatus
      next refused hrecover =>
        cases hstatus
        exact recoverState_error hrecover
      · simp at hstatus
  unfold DurableStore.open at hbad
  rw [if_neg (by simp [h.present])] at hbad
  unfold DurableStore.openFiles at hbad
  simp only [hread] at hbad
  cases hp : c.published with
  | none =>
    simp only [hp] at hbad
    rw [if_neg (by simp)] at hbad
    exact hfinish _ hbad
  | some p =>
    simp only [hp, if_neg (not_lt.mpr (hsnapshot p hp))] at hbad
    exact hfinish _ hbad

/-- **`boot_ok_iff`**. -/
theorem boot_ok_iff (dir : Directory) (last : DurableState) (options : EngineOptions) (opening : DurableStore.OpenEnv)
    (id : BootId) (env : CallEnv) :
    (Process.step (.down dir last) (.boot options opening id env)).1.code = .ok ↔
      ∃ e, (Process.step (.down dir last) (.boot options opening id env)).2 = .up e := by
  have hstep : Process.step (.down dir last) (.boot options opening id env) =
      Process.boot dir last options opening id env := rfl
  unfold Process.boot at hstep
  rcases hopen : DurableStore.open options.limits options.createIfMissing options.readOnly opening dir with
    ⟨dir', answer⟩
  rw [hopen] at hstep
  cases answer with
  | error status =>
    rw [hstep]
    have hshut : status.shut := open_error (congrArg Prod.snd hopen)
    simp [hshut.ne_ok]
  | ok result =>
    obtain ⟨opened, report⟩ := result
    simp only at hstep
    cases hstart : Engine.start options id env opened with
    | error failed =>
      rw [hstart] at hstep
      rw [hstep]
      simp [start_error hstart]
    | ok e =>
      rw [hstart] at hstep
      rw [hstep]
      simp [Status.ok]

end Boot

end FabricReconciliation
