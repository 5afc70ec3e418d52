import FabricReconciliation.Cycle

/-!
# Crashes and failing writes

A session is an open store together with what its callers know: the records they submitted and those
whose append returned OK. Every call meets an arbitrary I/O outcome; a crash is a failing outcome that
no further call follows, so that the next `Open` sees the files as they are.

`Compact` truncates the journal before the new header is durable. A header that does not reach the
disk, or a header write refused because an earlier append failed, leaves a journal that no `Open`
accepts.

* **`safe_run_opens`** — while every call is `Safe`, the next `Open` succeeds and has replayed every
  acknowledged record;
* **`compact_after_failed_append`** — a failed append followed by a compaction loses the store.
-/

namespace FabricReconciliation

open Lib

/-! ## Sessions -/

/-- A call on an open store, with the outcome of its I/O. -/
inductive StoreCall
  | append (type : RecordType) (payload : Bytes) (io : WriteIo)
  | compact (io : CompactIo) (now headerNow : UnixMillis)

/-- The store, the acknowledged records and all submitted ones. -/
structure Session where
  store : DurableStore
  acked : List (RecordType × Bytes)
  submitted : List (RecordType × Bytes)

/-- `AppendAndApply` or `Compact` on the session's store. -/
def Session.call (s : Session) : StoreCall → Session
  | .append type payload io =>
    let done := { s.store with faults := [io] }.appendAndApply type payload
    { store := done.2
      acked := if done.1.code = .ok then s.acked ++ [(type, payload)] else s.acked
      submitted := s.submitted ++ [(type, payload)] }
  | .compact io now headerNow => { s with store := (s.store.compact io now headerNow).2 }

/-- The sessions that start on an empty directory and make only allowed calls. -/
inductive SessionRun (limits : RuntimeLimits) (allowed : DurableStore → StoreCall → Prop) : Session → Prop
  | create {env : DurableStore.OpenEnv} {dir : Directory} {s : DurableStore}
      {report : DurableStore.StoreOpenReport}
      (hopen : DurableStore.open limits true false env {} = (dir, .ok (s, report))) :
      SessionRun limits allowed ⟨s, [], []⟩
  | call {s : Session} (h : SessionRun limits allowed s) (c : StoreCall) (hc : allowed s.store c) :
      SessionRun limits allowed (s.call c)
  /-- the process ends or crashes, and a new one opens the directory -/
  | reopen {s : Session} (h : SessionRun limits allowed s) {createIfMissing : Bool}
      {env : DurableStore.OpenEnv} {dir : Directory} {opened : DurableStore}
      {report : DurableStore.StoreOpenReport}
      (hopen : DurableStore.open limits createIfMissing false env s.store.directory = (dir, .ok (opened, report))) :
      SessionRun limits allowed ⟨opened, s.acked, s.submitted⟩

/-! ## Safe calls -/

/-- `Append` refuses the record before it writes anything. -/
def Refuses (limits : RuntimeLimits) (s : DurableStore) (payload : Bytes) : Prop :=
  s.journal.isOpen = false ∨ s.journal.writeFailed = true ∨
    limits.maxJournalPayloadBytes.toNat < payload.length

/-- The calls that keep the directory openable. A record is one that replay accepts, it fits the
reader's bounds, and its number does not wrap. A compaction publishes nothing, or it publishes a state
within the reader's bounds and then leaves the journal alone or replaces its header completely, which
takes a journal without an earlier failure. -/
def Safe (limits : RuntimeLimits) (s : DurableStore) : StoreCall → Prop
  | .append type payload _ => Refuses limits s payload ∨
      (payload.length ≤ scanPayloadLimit limits ∧
        (∃ state, applyPayload limits type payload s.state = .ok state) ∧
        (s.directory.journal.getD []).length + (56 + payload.length) ≤ limits.maxJournalBytes.toNat ∧
        s.journal.lastSequence.toNat + 1 < 2 ^ 64)
  | .compact io _ _ => encodeSnapshotPayload s.counted = [] ∨ io.snapshot ≠ .ok ∨
      (EntriesFit s.state ∧ SnapshotBounds limits s.state ∧
        112 + (encodeSnapshotPayload s.counted).length ≤ maxSnapshotBytes limits ∧
        (io.reopened = false ∨ s.journal.writeFailed = false ∧ 96 ≤ io.header.kept 96))

/-! ## The invariant -/

/-- What holds of a session after safe calls. `history` are the records its state is made of. -/
structure Durable (limits : RuntimeLimits) (s : Session) (c : Contents)
    (extra history : List (RecordType × Bytes)) (final : DurableState) : Prop where
  live : Live limits c extra [] s.store
  writable : s.store.readOnly = false
  size : (c.with extra).journalFile.length ≤ limits.maxJournalBytes.toNat
  scannable : ∀ e ∈ (c.with extra).entries, e.2.length ≤ scanPayloadLimit limits
  snapshotSize : ∀ p, c.published = some p → 112 + (encodeSnapshotPayload p.1).length ≤ maxSnapshotBytes limits
  bounds : ∀ p, c.published = some p → SnapshotBounds limits p.1
  numbered : c.base.toNat + (c.with extra).entries.length < 2 ^ 64
  /-- the published state stems from a prefix of the history -/
  origin : ∃ pre mid, history = pre ++ c.entries.drop c.covered ∧
    replayEntries limits pre { store := c.store } = .ok mid ∧ mid.core = c.start.core
  replays : replayEntries limits (c.entries.drop c.covered ++ extra) c.start = .ok final
  acked : s.acked.Sublist history
  submitted : (history ++ extra).Sublist s.submitted

theorem replayEntries_sameCore {limits : RuntimeLimits} {entries : List (RecordType × Bytes)}
    {s t s' : DurableState} (hcore : s.core = t.core) (h : replayEntries limits entries s = .ok s') :
    ∃ t', replayEntries limits entries t = .ok t' ∧ t'.core = s'.core := by
  have hs := replayEntries_relabel (fun _ => 0) (fun _ => 0) limits entries s
  have ht := replayEntries_relabel (fun _ => 0) (fun _ => 0) limits entries t
  rw [show DurableState.relabel (fun _ => 0) (fun _ => 0) s = DurableState.relabel (fun _ => 0) (fun _ => 0) t
    from hcore, ht, h] at hs
  cases hr : replayEntries limits entries t with
  | error status => simp [hr, Except.map] at hs
  | ok t' =>
    rw [hr] at hs
    exact ⟨t', rfl, Except.ok.inj hs⟩

section Steps

variable {limits : RuntimeLimits} {s : Session} {c : Contents} {extra history : List (RecordType × Bytes)}
  {final : DurableState}

/-- The in-memory state is the replay of the uncovered entries. -/
theorem Durable.memory (h : Durable limits s c extra history final) :
    ∃ st, replayEntries limits (c.entries.drop c.covered) c.start = .ok st ∧ s.store.state.core = st.core ∧
      replayEntries limits extra st = .ok final := by
  have happ := replayEntries_append limits (c.entries.drop c.covered) extra c.start
  rw [h.replays] at happ
  cases hr : replayEntries limits (c.entries.drop c.covered) c.start with
  | error status => simp [hr] at happ
  | ok st =>
    rw [hr] at happ
    refine ⟨st, rfl, ?_, happ.symm⟩
    rw [h.live.memory, List.nil_append, absorbAll_of_replay hr]

/-- The whole history replays to the final state. -/
theorem Durable.whole (h : Durable limits s c extra history final) :
    ∃ st, replayEntries limits (history ++ extra) { store := c.store } = .ok st ∧ st.core = final.core := by
  obtain ⟨pre, mid, rfl, hpre, hmid⟩ := h.origin
  obtain ⟨st, hst, hcore⟩ := replayEntries_sameCore hmid.symm h.replays
  refine ⟨st, ?_, hcore⟩
  rw [List.append_assoc, replayEntries_append, hpre]
  exact hst

/-- A call that changes nothing but the list of submitted records. -/
theorem Durable.skip (h : Durable limits s c extra history final) (log : List Appending) (faults : List WriteIo)
    (entry : RecordType × Bytes) :
    Durable limits ⟨{ s.store with directory := { s.store.directory with log := log }, faults := faults }, s.acked,
      s.submitted ++ [entry]⟩ c extra history final :=
  { h with
    live := h.live.logged log faults
    submitted := h.submitted.trans (List.sublist_append_left _ _) }

theorem length_journalFile (c : Contents) :
    c.journalFile.length = 96 + ((recordImages c.base c.entries).length + c.tail.length) := by
  simp [Contents.journalFile, journalBytes]

theorem length_journalFile_with (c : Contents) (entry : RecordType × Bytes) :
    (c.with [entry]).journalFile.length = c.journalFile.length + (56 + entry.2.length) := by
  rw [length_journalFile, length_journalFile]
  simp only [Contents.with, recordImages_append, List.length_append, recordImages_singleton,
    length_buildRecordImage]
  omega

/-- A record that is refused up front, whatever it is. -/
theorem refuses_skips (h : Live limits c extra [] s.store) {payload : Bytes}
    (href : Refuses limits s.store payload) (type : RecordType) (io : WriteIo) :
    ({ s.store with faults := [io] }.appendAndApply type payload).1.code ≠ .ok ∧
      Skipped { s.store with faults := [io] } (type, payload)
        ({ s.store with faults := [io] }.appendAndApply type payload).2 := by
  have hfile := h.holds.journal
  obtain ⟨status, hs, happ⟩ : ∃ status, status.code ≠ .ok ∧
      s.store.journal.append type payload io (s.store.directory.journal.getD []) =
        (status, s.store.journal, s.store.directory.journal.getD []) := by
    by_cases hshut : s.store.journal.readOnly = true ∨ s.store.journal.isOpen = false
    · exact append_refused hshut type payload io _
    push Not at hshut
    have hro : s.store.journal.readOnly = false := by simpa using hshut.1
    have hopen : s.store.journal.isOpen = true := by simpa using hshut.2
    rcases append_cases hopen hro type payload io (s.store.directory.journal.getD []) with
      ⟨status, hs, happ, -⟩ | ⟨-, hwf, hlen, -⟩ | ⟨-, hwf, hlen, -⟩
    · exact ⟨status, hs, happ⟩
    · exfalso
      rw [h.journalBound] at hlen
      rcases href with hc | hf | hl
      · simp [hopen] at hc
      · simp [hwf] at hf
      · omega
    · exfalso
      rw [h.journalBound] at hlen
      rcases href with hc | hf | hl
      · simp [hopen] at hc
      · simp [hwf] at hf
      · omega
  exact appendAndApply_skips (s := { s.store with faults := [io] }) hfile (type, payload) hs happ

/-- An append keeps the invariant. -/
theorem Durable.append (h : Durable limits s c extra history final) (type : RecordType) (payload : Bytes)
    (io : WriteIo) (hsafe : Safe limits s.store (.append type payload io)) :
    ∃ c' extra' history' final', Durable limits (s.call (.append type payload io)) c' extra' history' final' := by
  by_cases href : Refuses limits s.store payload
  · obtain ⟨hs, hsame⟩ := refuses_skips h.live href type io
    refine ⟨c, extra, history, final, ?_⟩
    simp only [Session.call, hs, if_false]
    rw [hsame]
    exact h.skip _ _ (type, payload)
  obtain ⟨hscan, ⟨state, happly⟩, hroom, hnumber⟩ := hsafe.resolve_left href
  unfold Refuses at href
  push Not at href
  obtain ⟨hopen, hwf, hlen⟩ := href
  obtain ⟨rfl, htail⟩ := h.live.healthy (by simpa using hwf)
  have htype : type ≠ .invalid := by
    rintro rfl
    simp [applyPayload] at happly
  have hword : payload.length < 2 ^ 32 := by
    unfold scanPayloadLimit at hscan
    omega
  have hfile : s.store.directory.journal.getD [] = c.journalFile := by
    rw [h.live.holds.journal, Contents.with_nil]
    rfl
  rw [hfile, ← length_journalFile_with c (type, payload)] at hroom
  have hcount : c.base.toNat + (c.with [(type, payload)]).entries.length < 2 ^ 64 := by
    have hlast := h.live.last
    have hnum := h.numbered
    simp only [Contents.with, List.append_nil] at hnum
    rw [hlast, Contents.last, toNat_add_ofNat hnum] at hnumber
    simp only [Contents.with, List.length_append, List.length_singleton]
    omega
  have hscannable : ∀ e ∈ (c.with [(type, payload)]).entries, e.2.length ≤ scanPayloadLimit limits := by
    intro e he
    rcases List.mem_append.mp he with he | he
    · exact h.scannable e (by simpa [Contents.with] using he)
    · rw [List.mem_singleton.mp he]
      exact hscan
  obtain ⟨st, hst, hcore, -⟩ := h.memory
  -- replay accepts the record as well
  obtain ⟨final', hfinal'⟩ : ∃ final', replayEntries limits [(type, payload)] st = .ok final' := by
    obtain ⟨t', ht', -⟩ := replayEntries_sameCore hcore
      (show replayEntries limits [(type, payload)] s.store.state = .ok state by simp [replayEntries, happly])
    exact ⟨t', ht'⟩
  have hreplays : replayEntries limits (c.entries.drop c.covered ++ [(type, payload)]) c.start = .ok final' := by
    rw [replayEntries_append, hst]
    exact hfinal'
  have hhistory : (history ++ [(type, payload)]).Sublist (s.submitted ++ [(type, payload)]) := by
    have hsub := h.submitted
    rw [List.append_nil] at hsub
    exact hsub.append (List.Sublist.refl _)
  rcases append_live (h.live.faults [io]) (type, payload) htype hword with
    ⟨hs, hsame, hwhy⟩ | ⟨hs, state', happly', -, -, -, hlive⟩ | ⟨-, refused, happly', -⟩ |
    ⟨hs, -, -, -, -, tail, htailLen, extra', hextra, -, hlive⟩
  · refine ⟨c, [], history, final, ?_⟩
    simp only [Session.call, hs, if_false]
    rw [hsame]
    exact h.skip _ _ (type, payload)
  · refine ⟨c.with [(type, payload)], [], history ++ [(type, payload)], final', ?_⟩
    simp only [Session.call, hs, Status.ok, if_true]
    refine { live := hlive, writable := ?_, size := ?_, scannable := ?_, snapshotSize := h.snapshotSize
             bounds := h.bounds, numbered := ?_, origin := ?_, replays := ?_, acked := ?_, submitted := ?_ }
    · rw [appendAndApply_readOnly]
      exact h.writable
    · rw [Contents.with_nil]
      exact hroom
    · rw [Contents.with_nil]
      exact hscannable
    · rw [Contents.with_nil]
      exact hcount
    · obtain ⟨pre, mid, rfl, hpre, hmid⟩ := h.origin
      exact ⟨pre, mid, by rw [drop_with c h.live.covered, List.append_assoc], hpre, hmid⟩
    · rw [drop_with c h.live.covered, List.append_nil]
      exact hreplays
    · exact h.acked.append (List.Sublist.refl _)
    · rw [List.append_nil]
      exact hhistory
  · exact absurd (happly'.symm.trans happly) (by simp)
  · simp only [Session.call, hs, if_false]
    rcases hextra with rfl | ⟨rfl, rfl⟩
    · refine ⟨{ c with tail := tail }, [], history, final, ?_⟩
      refine { h with live := hlive, writable := ?_, size := ?_, submitted := ?_ }
      · rw [appendAndApply_readOnly]
        exact h.writable
      · rw [Contents.with_nil]
        have h1 := length_journalFile c
        have h2 := length_journalFile { c with tail := tail }
        rw [length_journalFile_with] at hroom
        simp only at h2
        omega
      · exact h.submitted.trans (List.sublist_append_left _ _)
    · have hsame : ({ c with tail := [] } : Contents) = c := by rw [← htail]
      rw [hsame] at hlive
      refine ⟨c, [(type, payload)], history, final', ?_⟩
      refine { h with live := hlive, writable := ?_, size := hroom, scannable := hscannable, numbered := hcount
                      replays := hreplays, submitted := hhistory }
      rw [appendAndApply_readOnly]
      exact h.writable

/-- The snapshot of the current state covers the history so far. -/
theorem Durable.covers (h : Durable limits s c extra history final) :
    ∃ mid, replayEntries limits history { store := c.store } = .ok mid ∧ mid.core = s.store.state.core := by
  obtain ⟨pre, mid, rfl, hpre, hmid⟩ := h.origin
  obtain ⟨st, hst, hcore, -⟩ := h.memory
  obtain ⟨st', hst', hcore'⟩ := replayEntries_sameCore hmid.symm hst
  refine ⟨st', ?_, hcore'.trans hcore.symm⟩
  rw [replayEntries_append, hpre]
  exact hst'

theorem compact_readOnly (s : DurableStore) (io : CompactIo) (now headerNow : UnixMillis) :
    (s.compact io now headerNow).2.readOnly = s.readOnly := by
  unfold DurableStore.compact
  by_cases hro : s.readOnly = true
  · rw [if_pos hro]
  rw [if_neg hro]
  simp only
  split
  · rfl
  split
  · rfl
  split <;> rfl

/-- A compaction keeps the invariant. -/
theorem Durable.compact (h : Durable limits s c extra history final) (hmin : 96 ≤ limits.maxJournalBytes.toNat)
    (io : CompactIo) (now headerNow : UnixMillis) (hsafe : Safe limits s.store (.compact io now headerNow)) :
    ∃ c' extra' history' final', Durable limits (s.call (.compact io now headerNow)) c' extra' history' final' := by
  have hwritable : (s.store.compact io now headerNow).2.readOnly = false := by
    rw [compact_readOnly]
    exact h.writable
  -- nothing visible happened: only the staging file may differ
  have hnothing : ∀ staging, (s.store.compact io now headerNow).2 =
      { s.store with directory := { s.store.directory with staging := staging } } →
      Durable limits (s.call (.compact io now headerNow)) c extra history final := by
    intro staging heq
    simp only [Session.call, heq]
    exact { h with live := h.live.staging staging }
  by_cases hnot : encodeSnapshotPayload s.store.counted = [] ∨ io.snapshot ≠ .ok
  · obtain ⟨status, staging, -, heq⟩ := compact_unpublished (.inr hnot) now headerNow
    exact ⟨c, extra, history, final, hnothing staging (congrArg Prod.snd heq)⟩
  obtain ⟨hfit, hbounds, hsnapshot, hjournal⟩ := (hsafe.resolve_left (hnot ∘ .inl)).resolve_left (hnot ∘ .inr)
  have hpublished : ∀ p, some (s.store.counted, now) = some p →
      112 + (encodeSnapshotPayload p.1).length ≤ maxSnapshotBytes limits ∧ SnapshotBounds limits p.1 := by
    intro p hp
    rw [← Option.some.inj hp]
    exact ⟨hsnapshot, hbounds.relabel _ _⟩
  obtain ⟨mid, hmid, hmidCore⟩ := h.covers
  rcases compact_cases h.live.toHandle hfit io now headerNow with
    ⟨-, staging, hsame⟩ | ⟨-, hp, -, hsame⟩ | ⟨-, -, -, hhealthy, hlive⟩ | ⟨-, -, ⟨-, hre⟩, hwhy, -⟩
  · exact ⟨c, extra, history, final, hnothing staging hsame⟩
  · obtain ⟨st, -, hcore, hextra⟩ := h.memory
    obtain ⟨final', hfinal', -⟩ := replayEntries_sameCore
      (show st.core = ({ s.store.counted with sequence := 0 } : DurableState).core from hcore.symm) hextra
    refine ⟨c.sealed s.store now, extra, history, final', ?_⟩
    refine { live := ?_, writable := hwritable, size := h.size, scannable := h.scannable
             snapshotSize := fun p hpp => (hpublished p hpp).1, bounds := fun p hpp => (hpublished p hpp).2
             numbered := h.numbered, origin := ⟨history, mid, ?_, hmid, hmidCore⟩, replays := ?_
             acked := h.acked, submitted := h.submitted }
    · simp only [Session.call, hsame]
      exact h.live.shut hfit hp now
    · simp [Contents.sealed]
    · simp only [Contents.sealed, List.drop_length, List.nil_append]
      exact hfinal'
  · obtain ⟨rfl, -⟩ := h.live.healthy hhealthy
    refine ⟨s.store.restarted now headerNow, [], history, { s.store.counted with sequence := 0 }, ?_⟩
    refine { live := hlive, writable := hwritable, size := ?_, scannable := ?_
             snapshotSize := fun p hpp => (hpublished p hpp).1, bounds := fun p hpp => (hpublished p hpp).2
             numbered := ?_, origin := ⟨history, mid, ?_, ?_, hmidCore⟩, replays := rfl
             acked := h.acked, submitted := h.submitted }
    · rw [Contents.with_nil, length_journalFile]
      simpa [DurableStore.restarted, recordImages, framed] using hmin
    · simp [Contents.with, DurableStore.restarted]
    · simpa [Contents.with, DurableStore.restarted] using s.store.journal.lastSequence.toNat_lt
    · simp [DurableStore.restarted]
    · rw [← h.live.store] at hmid
      exact hmid
  · rcases hjournal with hclosed | ⟨hwf, hkept⟩
    · simp [hre] at hclosed
    · rcases hwhy with hfailed | hshort
      · simp [hwf] at hfailed
      · omega

/-- The next open succeeds, and its state is the whole history. -/
theorem Durable.opens (h : Durable limits s c extra history final) (createIfMissing : Bool)
    (env : DurableStore.OpenEnv) :
    ∃ dir opened report, DurableStore.open limits createIfMissing false env s.store.directory =
      (dir, .ok (opened, report)) ∧ opened.state.core = final.core := by
  have hdrop := drop_with c h.live.covered extra
  have hcovered := h.live.holds.covered
  have hnum : (c.with extra).base.toNat + (c.with extra).entries.length < 2 ^ 64 := h.numbered
  have hsmall : (c.with extra).base.toNat + (c.with extra).covered < 2 ^ 64 := by omega
  have hwatermark : (c.with extra).watermark ≤ (c.with extra).last := by
    rw [UInt64.le_iff_toNat_le]
    unfold Contents.watermark Contents.last
    rw [toNat_add_ofNat hnum, toNat_add_ofNat hsmall]
    omega
  obtain ⟨again, hrep, -, hnone⟩ := replayed_eq hcovered hwatermark (count_lt_of_size h.size)
  rw [hnone hsmall, List.nil_append, hdrop] at hrep
  have ho : Openable limits false (c.with extra) final :=
    { size := h.size, scannable := h.scannable, tail := by simp, snapshotSize := h.snapshotSize
      bounds := h.bounds, watermark := hwatermark, replays := by rw [hrep]; exact h.replays }
  obtain ⟨report, hopen⟩ := open_succeeds h.live.holds ho createIfMissing env
  exact ⟨_, _, report, hopen, rfl⟩

/-- Reopening keeps the invariant: an unacknowledged record that reached the file is now history. -/
theorem Durable.reopen (h : Durable limits s c extra history final) {createIfMissing : Bool}
    {env : DurableStore.OpenEnv} {dir : Directory} {opened : DurableStore} {report : DurableStore.StoreOpenReport}
    (hopen : DurableStore.open limits createIfMissing false env s.store.directory = (dir, .ok (opened, report))) :
    Durable limits ⟨opened, s.acked, s.submitted⟩ (c.with extra).trimmed [] (history ++ extra) final := by
  have hdrop := drop_with c h.live.covered extra
  obtain ⟨again, state, hreplay, -, hnone, hlive, -, -, hro, -⟩ := open_live h.live.holds hopen
  have hcovered := h.live.holds.covered
  have hnum : (c.with extra).base.toNat + (c.with extra).entries.length < 2 ^ 64 := h.numbered
  have hagain : again = [] := hnone (by omega)
  subst hagain
  refine { live := hlive, writable := hro, size := ?_, scannable := ?_, snapshotSize := h.snapshotSize
           bounds := h.bounds, numbered := ?_, origin := ?_, replays := ?_
           acked := h.acked.trans (List.sublist_append_left _ _), submitted := ?_ }
  · have h1 := length_journalFile (c.with extra)
    have h2 := length_journalFile (c.with extra).trimmed
    have hsize := h.size
    simp only [Contents.trimmed, List.length_nil] at h2
    rw [Contents.with_nil]
    simp only [Contents.trimmed]
    omega
  · rw [Contents.with_nil]
    exact h.scannable
  · rw [Contents.with_nil]
    exact h.numbered
  · obtain ⟨pre, mid, rfl, hpre, hmid⟩ := h.origin
    refine ⟨pre, mid, ?_, hpre, hmid⟩
    rw [show (c.with extra).trimmed.entries.drop (c.with extra).trimmed.covered =
      (c.with extra).entries.drop (c.with extra).covered from rfl, hdrop, List.append_assoc]
  · rw [show (c.with extra).trimmed.entries.drop (c.with extra).trimmed.covered =
      (c.with extra).entries.drop (c.with extra).covered from rfl, hdrop, List.append_nil]
    exact h.replays
  · rw [List.append_nil]
    exact h.submitted

end Steps

/-! ## Runs -/

/-- The invariant along a run of safe calls. -/
theorem safe_run_durable {limits : RuntimeLimits} (hmin : 96 ≤ limits.maxJournalBytes.toNat) {s : Session}
    (h : SessionRun limits (Safe limits) s) :
    ∃ c extra history final, Durable limits s c extra history final := by
  induction h with
  | @create env dir s report hopen =>
    have hcreated := open_blank limits true false env (show Blank {} from ⟨rfl, rfl⟩)
    rw [hopen] at hcreated
    cases hcreated with
    | opened _ _ hstate hlive hflags hdir =>
      refine ⟨env.contents, [], [], { store := env.fresh }, ?_⟩
      refine { live := hlive, writable := hflags.2.2.1, size := ?_, scannable := ?_, snapshotSize := ?_
               bounds := ?_, numbered := ?_, origin := ⟨[], { store := env.fresh }, rfl, rfl, rfl⟩
               replays := rfl, acked := List.Sublist.refl _, submitted := List.Sublist.refl _ }
      · rw [Contents.with_nil, length_journalFile]
        simpa [DurableStore.OpenEnv.contents, recordImages, framed] using hmin
      all_goals simp [Contents.with, DurableStore.OpenEnv.contents]
  | @call s h call hsafe ih =>
    obtain ⟨c, extra, history, final, hd⟩ := ih
    cases call with
    | append type payload io => exact hd.append type payload io hsafe
    | compact io now headerNow => exact hd.compact hmin io now headerNow hsafe
  | reopen h hopen ih =>
    obtain ⟨c, extra, history, final, hd⟩ := ih
    exact ⟨_, _, _, _, hd.reopen hopen⟩

/-- **`safe_run_opens`**: after any run of safe calls, with any I/O failures they met and wherever the
process died, the next open succeeds. Its state is the replay of a history that contains every
acknowledged record, in order, and nothing that was not submitted. -/
theorem safe_run_opens (limits : RuntimeLimits) (hmin : 96 ≤ limits.maxJournalBytes.toNat) (s : Session)
    (h : SessionRun limits (Safe limits) s) (createIfMissing : Bool) (env : DurableStore.OpenEnv) :
    ∃ dir opened report history state,
      DurableStore.open limits createIfMissing false env s.store.directory = (dir, .ok (opened, report)) ∧
      s.acked.Sublist history ∧ history.Sublist s.submitted ∧
      replayEntries limits history { store := s.store.state.store } = .ok state ∧
      opened.state.core = state.core := by
  obtain ⟨c, extra, history, final, hd⟩ := safe_run_durable hmin h
  obtain ⟨dir, opened, report, hopen, hcore⟩ := hd.opens createIfMissing env
  obtain ⟨state, hstate, hfinal⟩ := hd.whole
  refine ⟨dir, opened, report, history ++ extra, state, hopen, hd.acked.trans (List.sublist_append_left _ _),
    hd.submitted, ?_, hcore.trans hfinal.symm⟩
  rw [hd.live.store]
  exact hstate

/-- An epoch advance is acknowledged and the write behind the next one is cut short. -/
theorem safe_run_opens_torn : ∃ s dir opened report history,
    SessionRun {} (Safe {}) s ∧
    DurableStore.open {} true false {} s.store.directory = (dir, .ok (opened, report)) ∧
    s.acked = [(.epochAdvance, leBytes 8 1)] ∧ s.acked.Sublist history := by
  have hcreate : SessionRun {} (Safe {}) ⟨_, [], []⟩ := @SessionRun.create {} (Safe {}) {} _ _ _ rfl
  have hfirst := hcreate.call (.append .epochAdvance (leBytes 8 1) .ok)
    (.inr ⟨by decide, ⟨_, rfl⟩, by decide, by decide⟩)
  have hsecond := hfirst.call (.append .epochAdvance (leBytes 8 2) (.shortWrite 30))
    (.inr ⟨by decide, ⟨_, rfl⟩, by decide +kernel, by decide +kernel⟩)
  obtain ⟨dir, opened, report, history, -, hopen, hacked, -⟩ := safe_run_opens {} (by decide) _ hsecond true {}
  exact ⟨_, dir, opened, report, history, hsecond, hopen, by decide, hacked⟩

/-- **`compact_after_failed_append`**: one acknowledged record, one failed write and a compaction with
flawless I/O, under the default limits. The store is gone. -/
theorem compact_after_failed_append : ∃ s, SessionRun {} (fun _ _ => True) s ∧
    s.acked = [(.epochAdvance, leBytes 8 1)] ∧
    ∀ createIfMissing readOnly env r,
      (DurableStore.open {} createIfMissing readOnly env s.store.directory).2 ≠ .ok r := by
  have hcreate : SessionRun {} (fun _ _ => True) ⟨_, [], []⟩ := @SessionRun.create {} _ {} _ _ _ rfl
  have hrun := ((hcreate.call (.append .epochAdvance (leBytes 8 1) .ok) trivial).call
    (.append .epochAdvance (leBytes 8 2) (.shortWrite 0)) trivial).call (.compact {} 0 0) trivial
  obtain ⟨s, hs, hacked, hpresent, hjournal⟩ : ∃ s, SessionRun {} (fun _ _ => True) s ∧
      s.acked = [(.epochAdvance, leBytes 8 1)] ∧ s.store.directory.present = true ∧
      s.store.directory.journal = some [] :=
    ⟨_, hrun, by decide, by decide, by decide⟩
  refine ⟨s, hs, hacked, ?_⟩
  intro createIfMissing readOnly env r hr
  obtain ⟨dir', status, hopen, -⟩ := open_lost {} createIfMissing readOnly env hpresent hjournal (by decide)
  rw [hopen] at hr
  simp at hr

end FabricReconciliation
