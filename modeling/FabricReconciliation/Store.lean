import FabricReconciliation.Recovery
import FabricReconciliation.Snapshot

/-!
# The durable store (`store.hpp`, `store.cpp`)

A store is the in-memory `DurableState`, the open journal and the directory with its three files.
Every mutation appends a record behind a durability barrier and then applies it; `compact`
publishes a snapshot and restarts the journal.

Input and output may fail: `faults` lists what the next appends will meet (nothing left means
success), `CompactIo` what a compaction meets. A crash leaves the files of some failure and no
further call, so it needs no outcome of its own. The advisory lock is left out: one process at a
time owns a directory. Errors of `std::filesystem` calls other than those in `CompactIo` are out of
scope as well.
-/

namespace FabricReconciliation

open Lib

/-! ## Files -/

/-- One call of `Journal::Append`: whether its image is in the file as a whole, and whether the caller
was told so. -/
structure Appending where
  type : RecordType
  payload : Bytes
  whole : Bool
  acknowledged : Bool
deriving DecidableEq

/-- The store directory; `present` is whether it exists at all. `log` remembers every append ever made
to the journal; nothing reads it. -/
structure Directory where
  present : Bool := false
  snapshot : Option Bytes := none
  staging : Option Bytes := none
  journal : Option Bytes := none
  log : List Appending := []
deriving DecidableEq

/-- How `WriteSnapshotAtomic` went. `removed` is whether the clean-up of the staging file, whose
error is ignored, took effect. -/
inductive SnapshotIo
  | ok
  | openFailed
  | writeFailed (kept : Nat) (removed : Bool)
  | flushFailed (kept : Nat) (removed : Bool)
  | renameFailed (removed : Bool)
deriving DecidableEq

/-- How a compaction went: the snapshot, the reopening of the journal, its new header. -/
structure CompactIo where
  snapshot : SnapshotIo := .ok
  reopened : Bool := true
  header : WriteIo := .ok
deriving DecidableEq

/-- What the failed publication leaves of the staging file. -/
def stagingLeft (removed : Bool) (content : Bytes) : Option Bytes := if removed then none else some content

/-- `WriteSnapshotAtomic` (`snapshot.cpp:145`). -/
def writeSnapshotAtomic (io : SnapshotIo) (image : Bytes) (dir : Directory) : Status × Directory :=
  match io with
  | .openFailed => (⟨.rejected, .snapshotReplacementFailed, "cannot create snapshot staging file"⟩,
      { dir with staging := none })
  | .writeFailed kept removed =>
    (integrityFailure .snapshotReplacementFailed "short write on snapshot staging file",
      { dir with staging := stagingLeft removed (image.take kept) })
  | .flushFailed kept removed =>
    (flushFailedStatus, { dir with staging := stagingLeft removed (image.take kept) })
  | .renameFailed removed =>
    (integrityFailure .snapshotReplacementFailed "atomic snapshot replacement failed",
      { dir with staging := stagingLeft removed image })
  | .ok => (Status.ok, { dir with snapshot := some image, staging := none })

/-- `Journal::Reset` (`journal.cpp:554`): the file is truncated at once, then gets its header. -/
def Journal.reset (j : Journal) (reopened : Bool) (io : WriteIo) (store : StoreId) (now : UnixMillis)
    (file : Bytes) : Status × Journal × Bytes :=
  if j.readOnly then
    (⟨.preconditionFailed, .durableWriteFailed, "journal is open read-only"⟩, j, file)
  else if !reopened then
    (⟨.rejected, .snapshotReplacementFailed, "cannot recreate journal"⟩, { j with isOpen := false }, file)
  else
    let written := { j with isOpen := true }.writeAndFlush
      (buildJournalHeaderImage store now j.lastSequence) io []
    if written.1.code = .ok then
      (Status.ok, { written.2.1 with bytesWritten := UInt64.ofNat kJournalHeaderBytes }, written.2.2)
    else (written.1, { written.2.1 with isOpen := false }, written.2.2)

/-! ## The store -/

/-- `DurableStore`. -/
structure DurableStore where
  limits : RuntimeLimits
  state : DurableState
  journal : Journal
  readOnly : Bool
  directory : Directory
  faults : List WriteIo := []
deriving DecidableEq

namespace DurableStore

/-- `AppendAndApply` (`store.cpp:492`): durable first, memory second. -/
def appendAndApply (s : DurableStore) (type : RecordType) (payload : Bytes) : Status × DurableStore :=
  let file := s.directory.journal.getD []
  let appended := s.journal.append type payload (s.faults.headD .ok) file
  let appending : Appending := {
    type := type, payload := payload
    whole := decide (appended.2.2.length = file.length + (kRecordHeaderBytes + payload.length))
    acknowledged := decide (appended.1.code = .ok) }
  let written := { s with
    journal := appended.2.1
    directory := { s.directory with journal := some appended.2.2, log := s.directory.log ++ [appending] }
    faults := s.faults.tail }
  if appended.1.code ≠ .ok then (appended.1, written)
  else
    let numbered := { s.state with sequence := written.journal.lastSequence }
    match applyPayload s.limits type payload numbered with
    | .error status => (status, { written with state := numbered })
    | .ok state => (Status.ok, { written with state := state })

def readOnlyStatus : Status := ⟨.preconditionFailed, .durableWriteFailed, "store is read-only"⟩

/-- The shape of the mutators: refuse on a read-only store, encode, append. -/
def commit (s : DurableStore) (what : String) (e : Event) : Status × DurableStore :=
  if s.readOnly then (readOnlyStatus, s)
  else if e.payload = [] then (⟨.rejected, .durableWriteFailed, what ++ " could not be encoded"⟩, s)
  else s.appendAndApply e.type e.payload

/-- `DurableStore::PutPolicy` (`store.cpp:505`). -/
def putPolicy (s : DurableStore) (policy : ReconciliationPolicy) : Status × DurableStore :=
  s.commit "policy" (.policyPut policy)

/-- `DurableStore::CommitIntent` (`store.cpp:518`). -/
def commitIntent (s : DurableStore) (document : IntentDocument) : Status × DurableStore :=
  s.commit "intent" (.intentCommit document)

/-- `DurableStore::CommitObservation` (`store.cpp:531`). -/
def commitObservation (s : DurableStore) (document : ObservationDocument) : Status × DurableStore :=
  s.commit "observation" (.observationCommit document)

/-- `DurableStore::IssueAttempt` (`store.cpp:544`): identity zero is refused as well. -/
def issueAttempt (s : DurableStore) (attempt : AttemptRecord) : Status × DurableStore :=
  if s.readOnly then (readOnlyStatus, s)
  else if attempt.id = 0 then
    (⟨.rejected, .unsupportedInput, "attempt identity zero is never valid"⟩, s)
  else s.commit "attempt" (.attemptIssued attempt)

/-- `DurableStore::TransitionAttempt` (`store.cpp:561`). -/
def transitionAttempt (s : DurableStore) (attempt : AttemptRecord) : Status × DurableStore :=
  s.commit "attempt" (.attemptTransition attempt)

/-- `DurableStore::CommitOutcome` (`store.cpp:574`). -/
def commitOutcome (s : DurableStore) (outcome : ReconciliationOutcome) : Status × DurableStore :=
  s.commit "outcome" (.outcomeCommit outcome)

/-- `DurableStore::PutFence` (`store.cpp:587`). -/
def putFence (s : DurableStore) (fence : FenceEntry) : Status × DurableStore :=
  s.commit "fence" (.fencePut fence)

/-- `DurableStore::ClearFence` (`store.cpp:600`). -/
def clearFence (s : DurableStore) (fence : FenceId) : Status × DurableStore :=
  s.commit "fence identity" (.fenceClear fence)

/-- `DurableStore::AdvanceEpoch` (`store.cpp:614`): only ever upwards. -/
def advanceEpoch (s : DurableStore) (epoch : CoordinatorEpoch) : Status × DurableStore :=
  if s.readOnly then (readOnlyStatus, s)
  else if epoch ≤ s.state.lastEpoch then
    (⟨.conflictState, .fenceEpochNotNewer, "epoch advance must be strictly increasing"⟩, s)
  else s.commit "epoch" (.epochAdvance epoch)

/-- `DurableStore::Compact` (`store.cpp:875`). `now` and `headerNow` are the two clock readings that
reach the files. -/
def compact (s : DurableStore) (io : CompactIo) (now headerNow : UnixMillis) : Status × DurableStore :=
  if s.readOnly then (readOnlyStatus, s)
  else
    let counted := { s.state with compactions := s.state.compactions + 1 }
    let payload := encodeSnapshotPayload counted
    if payload = [] then
      (⟨.rejected, .durableWriteFailed, "snapshot payload could not be encoded"⟩, s)
    else
      let published := writeSnapshotAtomic io.snapshot
        (buildSnapshotImage (snapshotHeaderOf counted now payload) payload) s.directory
      if published.1.code ≠ .ok then (published.1, { s with directory := published.2 })
      else
        let restarted := s.journal.reset io.reopened io.header s.state.store headerNow
          (published.2.journal.getD [])
        let moved := { s with
          journal := restarted.2.1
          directory := { published.2 with journal := some restarted.2.2 } }
        if restarted.1.code ≠ .ok then (restarted.1, moved)
        else (Status.ok, { moved with state := { counted with sequence := restarted.2.1.lastSequence } })

/-! ## Opening -/

/-- Replays the records above the watermark. -/
def replay (limits : RuntimeLimits) (watermark : RecordSequence) :
    List JournalRecord → DurableState → Except Status DurableState
  | [], s => .ok s
  | record :: rest, s =>
    if record.sequence ≤ watermark then replay limits watermark rest s
    else match applyPayload limits record.type record.payload s with
      | .error status => .error status
      | .ok s' => replay limits watermark rest s'

/-- `StoreOpenReport`. -/
structure StoreOpenReport where
  created : Bool
  snapshotLoaded : Bool
  recoveredTornTail : Bool
  recoveredBytes : Nat
  recordsReplayed : Nat
  recordsSkippedByWatermark : Nat
  lastSequence : RecordSequence
  lastEpoch : CoordinatorEpoch
  attemptsRestored : Nat
  notes : List ReasonCode
deriving DecidableEq

/-- The state built from a snapshot and the opened journal (`store.cpp:298-336`). -/
def recoverState (limits : RuntimeLimits) (snapshot : Option (SnapshotHeader × Bytes))
    (opened : JournalOpened) : Except Status DurableState :=
  let started : Except Status (RecordSequence × DurableState) := match snapshot with
    | none => .ok (0, { store := opened.report.header.store })
    | some (header, payload) =>
      if header.store ≠ opened.report.header.store then
        .error (integrityFailure .snapshotStoreMismatch "snapshot and journal belong to different stores")
      else if opened.report.lastSequence < header.watermark then
        .error (integrityFailure .snapshotAheadOfJournal "snapshot watermark is ahead of the journal")
      else match applySnapshotPayload limits payload { store := header.store, lastEpoch := header.epoch } with
        | .error status => .error status
        | .ok s => .ok (header.watermark, s)
  match started with
  | .error status => .error status
  | .ok (watermark, s) => match replay limits watermark opened.records s with
    | .error status => .error status
    | .ok s' => .ok { s' with sequence := opened.report.lastSequence }

/-- What the environment supplies to an open: a generated identity, the clock, the fate of a new
journal header. -/
structure OpenEnv where
  fresh : StoreId := FixedBytes.zero
  now : UnixMillis := 0
  io : WriteIo := .ok

/-- The report of a successful open. -/
def openReport (created : Bool) (snapshot : Option (SnapshotHeader × Bytes)) (opened : JournalOpened)
    (state : DurableState) : StoreOpenReport :=
  let watermark := match snapshot with | some (header, _) => header.watermark | none => 0
  { created := created || opened.report.created
    snapshotLoaded := snapshot.isSome
    recoveredTornTail := opened.report.recoveredTornTail
    recoveredBytes := opened.report.recoveredBytes
    recordsReplayed := opened.records.countP fun r => !decide (r.sequence ≤ watermark)
    recordsSkippedByWatermark := opened.records.countP fun r => decide (r.sequence ≤ watermark)
    lastSequence := opened.report.lastSequence
    lastEpoch := state.lastEpoch
    attemptsRestored := state.attempts.size
    notes := opened.report.notes }

/-- The part of `DurableStore::Open` behind the directory checks. -/
def openFiles (limits : RuntimeLimits) (createIfMissing readOnly created : Bool) (env : OpenEnv)
    (dir : Directory) : Directory × Except Status (DurableStore × StoreOpenReport) :=
  let cleaned := if readOnly then dir else { dir with staging := none }
  match readSnapshot limits cleaned.snapshot with
  | .error status =>
    if status.code ≠ .notFound then (cleaned, .error status)
    else finish cleaned none
  | .ok parsed => finish cleaned (some parsed)
where
  /-- Opens the journal and rebuilds the state. -/
  finish (cleaned : Directory) (snapshot : Option (SnapshotHeader × Bytes)) :
      Directory × Except Status (DurableStore × StoreOpenReport) :=
    let journal := Journal.open ⟨limits, createIfMissing && !readOnly, readOnly⟩ env.fresh env.now env.io
      cleaned.journal
    let dir := { cleaned with journal := journal.1 }
    match journal.2 with
    | .error status => (dir, .error status)
    | .ok opened => match recoverState limits snapshot opened with
      | .error status => (dir, .error status)
      | .ok state =>
        (dir, .ok ({ limits := limits, state := state, journal := opened.journal, readOnly := readOnly,
                     directory := dir }, openReport created snapshot opened state))

/-- `DurableStore::Open` (`store.cpp:236`). -/
def «open» (limits : RuntimeLimits) (createIfMissing readOnly : Bool) (env : OpenEnv) (dir : Directory) :
    Directory × Except Status (DurableStore × StoreOpenReport) :=
  if !dir.present then
    if !createIfMissing then
      (dir, .error ⟨.notFound, .durableWriteFailed, "store directory does not exist"⟩)
    else openFiles limits createIfMissing readOnly true env { present := true }
  else openFiles limits createIfMissing readOnly false env dir

end DurableStore

end FabricReconciliation
