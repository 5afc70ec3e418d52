import FabricReconciliation.Compaction

/-!
# A store and its files

`Live limits c extra again s`: the open store `s` sits on a directory that holds the contents `c`,
which it has acknowledged, and at most one further record `extra` whose append failed after it had
reached the file. `Lost limits s`: the journal file was truncated and its header never became durable.

* **`append_live`** — the four things an append can do.
-/

namespace FabricReconciliation

open Lib

/-- Applies an entry, or keeps the state when replay would refuse it. -/
def absorb (limits : RuntimeLimits) (s : DurableState) (entry : RecordType × Bytes) : DurableState :=
  match applyPayload limits entry.1 entry.2 s with
  | .ok s' => s'
  | .error _ => s

def absorbAll (limits : RuntimeLimits) (entries : List (RecordType × Bytes)) (s : DurableState) :
    DurableState := entries.foldl (absorb limits) s

theorem absorbAll_append (limits : RuntimeLimits) (a b : List (RecordType × Bytes)) (s : DurableState) :
    absorbAll limits (a ++ b) s = absorbAll limits b (absorbAll limits a s) := List.foldl_append

theorem absorbAll_of_replay {limits : RuntimeLimits} : ∀ {entries : List (RecordType × Bytes)}
    {s s' : DurableState}, replayEntries limits entries s = .ok s' → absorbAll limits entries s = s'
  | [], s, s', h => by
    simp only [replayEntries, Except.ok.injEq] at h
    exact h
  | entry :: rest, s, s', h => by
    simp only [replayEntries] at h
    cases hap : applyPayload limits entry.1 entry.2 s with
    | error status => simp [hap] at h
    | ok mid =>
      rw [hap] at h
      have := absorbAll_of_replay h
      simpa [absorbAll, absorb, hap] using this

theorem absorb_core (limits : RuntimeLimits) (s : DurableState) (entry : RecordType × Bytes) :
    (absorb limits s entry).core = absorb limits s.core entry := by
  unfold absorb
  rw [applyPayload_core]
  cases applyPayload limits entry.1 entry.2 s <;> rfl

theorem absorbAll_core (limits : RuntimeLimits) : ∀ (entries : List (RecordType × Bytes)) (s : DurableState),
    (absorbAll limits entries s).core = absorbAll limits entries s.core
  | [], s => rfl
  | entry :: rest, s => by
    have := absorbAll_core limits rest (absorb limits s entry)
    rw [absorb_core] at this
    exact this

/-! ## The relation -/

/-- What a store handle always satisfies. -/
structure Handle (limits : RuntimeLimits) (s : DurableStore) : Prop where
  bound : s.limits = limits
  journalBound : s.journal.limits = limits
  mode : s.journal.readOnly = s.readOnly
  sequence : s.state.sequence = s.journal.lastSequence
  tables : TablesOk limits s.state
  present : s.directory.present = true

/-- The contents with a further, unacknowledged record. -/
def Contents.with (c : Contents) (extra : List (RecordType × Bytes)) : Contents :=
  { c with entries := c.entries ++ extra }

/-- The store sits on a directory with these contents. The covered entries listed in `again` have been
applied twice: `Open` does that once record numbers have wrapped around. -/
structure Live (limits : RuntimeLimits) (c : Contents) (extra again : List (RecordType × Bytes))
    (s : DurableStore) : Prop extends Handle limits s where
  holds : Holds limits (c.with extra) s.directory
  covered : c.covered ≤ c.entries.length
  store : s.state.store = c.store
  last : s.journal.lastSequence = c.last
  healthy : s.journal.writeFailed = false → extra = [] ∧ c.tail = []
  failed : extra ≠ [] → c.tail = []
  repeated : ∀ e ∈ again, e ∈ c.entries.take c.covered
  memory : s.state.core = (absorbAll limits (again ++ c.entries.drop c.covered) c.start).core

/-- The journal was cut off and holds less than a header. -/
structure Lost (limits : RuntimeLimits) (s : DurableStore) : Prop extends Handle limits s where
  closed : s.journal.isOpen = false
  short : ∃ bytes, s.directory.journal = some bytes ∧ bytes.length < 96

/-! ## Appending -/

/-- The directory after an append. -/
def DurableStore.appended (s : DurableStore) (type : RecordType) (payload : Bytes) (status : Status)
    (file : Bytes) : Directory :=
  { s.directory with
    journal := some file
    log := s.directory.log ++ [⟨type, payload,
      decide (file.length = (s.directory.journal.getD []).length + (kRecordHeaderBytes + payload.length)),
      decide (status.code = .ok)⟩] }

/-- `appendAndApply` in terms of `Journal.append`. -/
theorem appendAndApply_eq (s : DurableStore) (type : RecordType) (payload : Bytes) {status : Status}
    {j : Journal} {file : Bytes}
    (h : s.journal.append type payload (s.faults.headD .ok) (s.directory.journal.getD []) = (status, j, file)) :
    s.appendAndApply type payload =
      if status.code ≠ .ok then
        (status, { s with journal := j, directory := s.appended type payload status file, faults := s.faults.tail })
      else match applyPayload s.limits type payload { s.state with sequence := j.lastSequence } with
        | .error refused => (refused, { s with
            state := { s.state with sequence := j.lastSequence }, journal := j
            directory := s.appended type payload status file, faults := s.faults.tail })
        | .ok state => (Status.ok, { s with
            state := state, journal := j, directory := s.appended type payload status file
            faults := s.faults.tail }) := by
  by_cases hs : status.code ≠ .ok
  · simp only [DurableStore.appendAndApply, h, if_pos hs]
    rfl
  · cases hp : applyPayload s.limits type payload { s.state with sequence := j.lastSequence } with
    | error refused =>
      simp only [DurableStore.appendAndApply, h, if_neg hs, hp]
      rfl
    | ok state =>
      simp only [DurableStore.appendAndApply, h, if_neg hs, hp]
      rfl

@[simp] theorem appendAndApply_readOnly (s : DurableStore) (type : RecordType) (payload : Bytes) :
    (s.appendAndApply type payload).2.readOnly = s.readOnly := by
  rcases happ : s.journal.append type payload (s.faults.headD .ok) (s.directory.journal.getD []) with
    ⟨status, j, file⟩
  rw [appendAndApply_eq s type payload happ]
  by_cases hs : status.code ≠ .ok
  · rw [if_pos hs]
  · rw [if_neg hs]
    cases applyPayload s.limits type payload { s.state with sequence := j.lastSequence } <;> rfl

theorem append_refused {j : Journal} (h : j.readOnly = true ∨ j.isOpen = false) (type : RecordType)
    (payload : Bytes) (io : WriteIo) (file : Bytes) :
    ∃ status, status.code ≠ .ok ∧ j.append type payload io file = (status, j, file) := by
  unfold Journal.append
  by_cases hro : j.readOnly = true
  · rw [if_pos hro]
    exact ⟨_, by decide, rfl⟩
  · have hclosed : j.isOpen = false := h.resolve_left hro
    rw [if_neg hro, if_pos (by simp [hclosed])]
    exact ⟨_, by decide, rfl⟩

theorem applyPayload_error {limits : RuntimeLimits} {type : RecordType} {payload : Bytes} {s : DurableState}
    {status : Status} (h : applyPayload limits type payload s = .error status) :
    status.code = .integrityFailure := by
  have hdecoded : ∀ {α : Type} {decoded : Option α} {detail : String} {f : α → DurableState},
      applyDecoded decoded detail f = .error status → status.code = .integrityFailure := by
    intro α decoded detail f hd
    cases decoded with
    | none =>
      simp only [applyDecoded, Except.error.injEq] at hd
      rw [← hd]
      rfl
    | some a => simp [applyDecoded] at hd
  cases type with
  | invalid =>
    simp only [applyPayload, Except.error.injEq] at h
    rw [← h]
  | storeHeader => simp [applyPayload] at h
  | lineageTrim => simp [applyPayload] at h
  | policyPut => exact hdecoded h
  | intentCommit => exact hdecoded h
  | observationCommit => exact hdecoded h
  | attemptIssued => exact hdecoded h
  | attemptTransition => exact hdecoded h
  | outcomeCommit => exact hdecoded h
  | fencePut => exact hdecoded h
  | fenceClear =>
    simp only [applyPayload] at h
    cases hb : Read.bytes.exactly payload with
    | none =>
      simp only [hb, Except.error.injEq] at h
      rw [← h]
      rfl
    | some idText =>
      rw [hb] at h
      exact hdecoded h
  | epochAdvance => exact hdecoded h

/-- Nothing was written: only the fault list and the log moved on. -/
def Skipped (s : DurableStore) (entry : RecordType × Bytes) (s' : DurableStore) : Prop :=
  s' = { s with
    directory := { s.directory with log := s.directory.log ++ [⟨entry.1, entry.2, false, false⟩] }
    faults := s.faults.tail }

/-- The effect of one append on a live store. -/
inductive Appended (limits : RuntimeLimits) (c : Contents) (extra again : List (RecordType × Bytes))
    (s : DurableStore) (entry : RecordType × Bytes) (status : Status) (s' : DurableStore) : Prop
  /-- nothing was written -/
  | refused (hs : status.code ≠ .ok) (hsame : Skipped s entry s')
      (why : s.journal.readOnly = true ∨ s.journal.isOpen = false ∨ s.journal.writeFailed = true ∨
        limits.maxJournalPayloadBytes.toNat < entry.2.length)
  /-- durable and applied -/
  | applied (hs : status = Status.ok) (state : DurableState)
      (happly : applyPayload limits entry.1 entry.2 s.state = .ok state)
      (hstate : s'.state = { state with sequence := s.journal.lastSequence + 1 })
      (hflags : s'.journal.isOpen = true ∧ s'.journal.writeFailed = false)
      (hlog : s'.directory.log = s.directory.log ++ [⟨entry.1, entry.2, true, true⟩])
      (hlive : Live limits (c.with [entry]) [] again s')
  /-- durable, but refused by replay -/
  | poisoned (hs : status.code ≠ .ok) (refused : Status)
      (happly : applyPayload limits entry.1 entry.2 s.state = .error refused)
      (hstate : s'.state = { s.state with sequence := s.journal.lastSequence + 1 })
      (hflags : s'.journal.isOpen = true ∧ s'.journal.writeFailed = false)
      (hlog : s'.directory.log = s.directory.log ++ [⟨entry.1, entry.2, true, true⟩])
      (hlive : Live limits (c.with [entry]) [] again s')
  /-- the write or the flush failed; some part of the record may be in the file -/
  | failed (hs : status.code ≠ .ok) (hio : s.faults.headD .ok ≠ .ok) (hhealthy : s.journal.writeFailed = false)
      (hstate : s'.state = s.state) (hflag : s'.journal.writeFailed = true)
      (tail : Bytes) (htail : tail.length ≤ 56 + entry.2.length) (extra' : List (RecordType × Bytes))
      (hextra : extra' = [] ∨ extra' = [entry] ∧ tail = [])
      (hlog : s'.directory.log = s.directory.log ++ [⟨entry.1, entry.2, !extra'.isEmpty, false⟩])
      (hlive : Live limits { c with tail := tail } extra' again s')

theorem Live.faults {limits : RuntimeLimits} {c : Contents} {extra again : List (RecordType × Bytes)}
    {s : DurableStore} (h : Live limits c extra again s) (faults : List WriteIo) :
    Live limits c extra again { s with faults := faults } := { h with }

theorem Live.logged {limits : RuntimeLimits} {c : Contents} {extra again : List (RecordType × Bytes)}
    {s : DurableStore} (h : Live limits c extra again s) (log : List Appending) (faults : List WriteIo) :
    Live limits c extra again { s with directory := { s.directory with log := log }, faults := faults } :=
  { h with holds := { h.holds with } }

theorem Live.staging {limits : RuntimeLimits} {c : Contents} {extra again : List (RecordType × Bytes)}
    {s : DurableStore} (h : Live limits c extra again s) (staging : Option Bytes) :
    Live limits c extra again { s with directory := { s.directory with staging := staging } } :=
  { h with holds := { h.holds with } }

section Append

variable {limits : RuntimeLimits} {c : Contents} {extra again : List (RecordType × Bytes)} {s : DurableStore}

theorem Contents.last_with (c : Contents) (entry : RecordType × Bytes) : (c.with [entry]).last = c.last + 1 := by
  simp only [Contents.with, Contents.last, List.length_append, List.length_singleton, UInt64.ofNat_add,
    UInt64.add_assoc]
  rfl

/-- The directory after a whole record has reached the journal. -/
theorem Holds.append {dir : Directory} (h : Holds limits c dir) (htail : c.tail = [])
    (hcovered : c.covered ≤ c.entries.length) {entry : RecordType × Bytes} (hfits : RecordFits limits entry)
    (hword : entry.2.length < 2 ^ 32) :
    Holds limits (c.with [entry]) { dir with journal := some (c.journalFile ++
      buildRecordImage (c.last + 1) entry.1 entry.2) } := by
  have hmem : ∀ {P : RecordType × Bytes → Prop}, (∀ e ∈ c.entries, P e) → P entry →
      ∀ e ∈ (c.with [entry]).entries, P e := by
    intro P hall hone e he
    rcases List.mem_append.mp he with he | he
    · exact hall e he
    · rw [List.mem_singleton.mp he]
      exact hone
  refine { present := h.present, journal := ?_, snapshot := h.snapshot, fits := hmem h.fits hfits,
           word := hmem h.word hword, torn := ?_, covered := ?_, fresh := h.fresh, published := ?_ }
  · have hcat := journalBytes_concat c.store c.created c.base c.entries entry []
    rw [List.append_nil] at hcat
    simp only [Contents.journalFile, Contents.with, htail, Contents.last, journalBytes_nil, hcat]
  · rw [show (c.with [entry]).tail = [] from htail]
    exact tornTail_nil _ _
  · simp only [Contents.with, List.length_append]
    omega
  · intro p hp
    have := h.published p hp
    exact ⟨this.tables, this.fits, this.encodable, this.store, this.sequence⟩

/-- The directory after part of a record has reached the journal. -/
theorem Holds.torn_append {dir : Directory} (h : Holds limits c dir) (htail : c.tail = [])
    {entry : RecordType × Bytes} (hfits : RecordFits limits entry) (hword : entry.2.length < 2 ^ 32)
    {kept : Nat} (hkept : kept < 56 + entry.2.length) :
    Holds limits { c with tail := (buildRecordImage (c.last + 1) entry.1 entry.2).take kept }
      { dir with journal := some (c.journalFile ++
        (buildRecordImage (c.last + 1) entry.1 entry.2).take kept) } := by
  refine { present := h.present, journal := ?_, snapshot := h.snapshot, fits := h.fits, word := h.word,
           torn := ⟨entry, kept, hfits, hword, hkept, rfl⟩, covered := h.covered, fresh := h.fresh,
           published := ?_ }
  · simp only [Contents.journalFile, htail, journalBytes_nil]
  · intro p hp
    have := h.published p hp
    exact ⟨this.tables, this.fits, this.encodable, this.store, this.sequence⟩

theorem Contents.with_nil (c : Contents) : c.with [] = c := by
  simp [Contents.with]

theorem drop_with (c : Contents) (hcovered : c.covered ≤ c.entries.length) (extra : List (RecordType × Bytes)) :
    (c.with extra).entries.drop (c.with extra).covered = c.entries.drop c.covered ++ extra := by
  simp only [Contents.with]
  rw [List.drop_append_of_le_length hcovered]

theorem take_with (c : Contents) (hcovered : c.covered ≤ c.entries.length) (extra : List (RecordType × Bytes)) :
    (c.with extra).entries.take (c.with extra).covered = c.entries.take c.covered := by
  simp only [Contents.with]
  rw [List.take_append_of_le_length hcovered]

/-- A record the journal refuses leaves everything as it was. -/
theorem appendAndApply_skips {file : Bytes} (hfile : s.directory.journal = some file) (entry : RecordType × Bytes)
    {status : Status} (hs : status.code ≠ .ok)
    (happ : s.journal.append entry.1 entry.2 (s.faults.headD .ok) (s.directory.journal.getD []) =
      (status, s.journal, s.directory.journal.getD [])) :
    (s.appendAndApply entry.1 entry.2).1.code ≠ .ok ∧ Skipped s entry (s.appendAndApply entry.1 entry.2).2 := by
  have hget : s.directory.journal.getD [] = file := by rw [hfile]; rfl
  have hgrown : ¬ file.length = file.length + (kRecordHeaderBytes + entry.2.length) := by
    simp only [kRecordHeaderBytes]
    omega
  rw [appendAndApply_eq s entry.1 entry.2 happ, if_pos hs]
  refine ⟨hs, ?_⟩
  unfold Skipped DurableStore.appended
  simp only [hget, hgrown, hs, decide_false, ← hfile]

/-- **`append_live`**. -/
theorem append_live (h : Live limits c extra again s) (entry : RecordType × Bytes)
    (htype : entry.1 ≠ .invalid) (hword : entry.2.length < 2 ^ 32) :
    Appended limits c extra again s entry (s.appendAndApply entry.1 entry.2).1
      (s.appendAndApply entry.1 entry.2).2 := by
  have hfile : s.directory.journal = some (c.with extra).journalFile := h.holds.journal
  have hget : s.directory.journal.getD [] = (c.with extra).journalFile := by rw [hfile]; rfl
  by_cases hshut : s.journal.readOnly = true ∨ s.journal.isOpen = false
  · obtain ⟨status, hs, happ⟩ := append_refused hshut entry.1 entry.2 (s.faults.headD .ok)
      (s.directory.journal.getD [])
    obtain ⟨hcode, hsame⟩ := appendAndApply_skips hfile entry hs happ
    exact .refused hcode hsame (hshut.imp_right .inl)
  have hro : s.journal.readOnly = false := by simpa using fun hr => hshut (.inl hr)
  have hopen : s.journal.isOpen = true := by simpa using fun hc => hshut (.inr hc)
  rcases append_cases hopen hro entry.1 entry.2 (s.faults.headD .ok) (s.directory.journal.getD []) with
    ⟨status, hs, happ, hwhy⟩ | ⟨-, hwf, hlen, written, happ⟩ | ⟨hio, hwf, hlen, status, written, kept, hs, happ⟩
  · obtain ⟨hcode, hsame⟩ := appendAndApply_skips hfile entry hs happ
    refine .refused hcode hsame ?_
    rw [h.journalBound] at hwhy
    exact .inr (.inr hwhy)
  · obtain ⟨rfl, htail⟩ := h.healthy hwf
    rw [h.journalBound] at hlen
    have hholds := h.holds
    rw [Contents.with_nil] at hholds hget
    have hnew := hholds.append htail h.covered ⟨htype, hlen⟩ hword
    have hlog : (s.appended entry.1 entry.2 Status.ok
        (s.directory.journal.getD [] ++ buildRecordImage (s.journal.lastSequence + 1) entry.1 entry.2)).log =
        s.directory.log ++ [⟨entry.1, entry.2, true, true⟩] := by
      simp [DurableStore.appended, Status.ok]
    rw [appendAndApply_eq s entry.1 entry.2 happ, if_neg (by simp [Status.ok]), h.bound]
    have hrelabel := applyPayload_sequence limits entry.1 entry.2 s.state (s.journal.lastSequence + 1)
    have hmemory : ∀ st : DurableState, st.core = (absorb limits s.state entry).core →
        st.core = (absorbAll limits (again ++ (c.with [entry]).entries.drop (c.with [entry]).covered)
          (c.with [entry]).start).core := by
      intro st hst
      rw [drop_with c h.covered, ← List.append_assoc, absorbAll_append, hst, absorb_core, h.memory,
        absorbAll_core limits [entry]]
      rfl
    have hlast : s.journal.lastSequence + 1 = (c.with [entry]).last := by rw [h.last, Contents.last_with]
    rw [← h.last, ← hget] at hnew
    cases hp : applyPayload limits entry.1 entry.2 s.state with
    | error e =>
      rw [hp] at hrelabel
      simp only [hrelabel, Except.map]
      refine .poisoned (by simp [applyPayload_error hp]) e hp rfl ⟨hopen, hwf⟩ hlog ?_
      exact { bound := rfl, journalBound := h.journalBound, mode := h.mode, sequence := rfl
              tables := { h.tables with }, present := h.present
              holds := by rw [Contents.with_nil]; exact { hnew with }
              covered := by simp only [Contents.with, List.length_append]; have := h.covered; omega
              store := h.store, last := hlast, healthy := fun _ => ⟨rfl, htail⟩, failed := by simp
              repeated := by rw [take_with c h.covered]; exact h.repeated
              memory := hmemory _ (by simp [absorb, hp]) }
    | ok st =>
      rw [hp] at hrelabel
      simp only [hrelabel, Except.map]
      refine .applied rfl st hp rfl ⟨hopen, hwf⟩ hlog ?_
      exact { bound := rfl, journalBound := h.journalBound, mode := h.mode, sequence := rfl
              tables := { applyPayload_tablesOk h.tables hp with }, present := h.present
              holds := by rw [Contents.with_nil]; exact { hnew with }
              covered := by simp only [Contents.with, List.length_append]; have := h.covered; omega
              store := (applyPayload_frame hp).2.2.trans h.store, last := hlast
              healthy := fun _ => ⟨rfl, htail⟩, failed := by simp
              repeated := by rw [take_with c h.covered]; exact h.repeated
              memory := hmemory _ (by simp [absorb, hp]) }
  · obtain ⟨rfl, htail⟩ := h.healthy hwf
    rw [h.journalBound] at hlen
    have hholds := h.holds
    rw [Contents.with_nil] at hholds hget
    rw [appendAndApply_eq s entry.1 entry.2 happ, if_pos hs, h.last]
    have hsize : (buildRecordImage (c.last + 1) entry.1 entry.2).length = 56 + entry.2.length := by simp
    by_cases hall : kept < 56 + entry.2.length
    · have hlog : (s.appended entry.1 entry.2 status
          (s.directory.journal.getD [] ++ (buildRecordImage (c.last + 1) entry.1 entry.2).take kept)).log =
          s.directory.log ++ [⟨entry.1, entry.2, false, false⟩] := by
        have hshort : ¬ min kept (56 + entry.2.length) = kRecordHeaderBytes + entry.2.length := by
          simp only [kRecordHeaderBytes]
          omega
        simp only [DurableStore.appended, List.length_append, List.length_take, hsize, Nat.add_right_inj, hshort, hs,
          decide_false]
      refine .failed hs hio hwf rfl rfl ((buildRecordImage (c.last + 1) entry.1 entry.2).take kept) (by simp) []
        (.inl rfl) hlog ?_
      have hnew := hholds.torn_append htail ⟨htype, hlen⟩ hword hall
      rw [← hget] at hnew
      exact { bound := h.bound, journalBound := h.journalBound, mode := h.mode, sequence := h.sequence.trans h.last
              tables := h.tables, present := h.present, holds := by rw [Contents.with_nil]; exact { hnew with }
              covered := h.covered, store := h.store, last := rfl, healthy := by simp, failed := by simp
              repeated := h.repeated, memory := h.memory }
    · -- the whole image is in the file although the caller saw a failure
      have hfull : (buildRecordImage (c.last + 1) entry.1 entry.2).take kept =
          buildRecordImage (c.last + 1) entry.1 entry.2 := List.take_of_length_le (by simp; omega)
      rw [hfull]
      have hlog : (s.appended entry.1 entry.2 status
          (s.directory.journal.getD [] ++ buildRecordImage (c.last + 1) entry.1 entry.2)).log =
          s.directory.log ++ [⟨entry.1, entry.2, true, false⟩] := by
        simp [DurableStore.appended, hs]
      refine .failed hs hio hwf rfl rfl [] (by simp) [entry] (.inr ⟨rfl, rfl⟩) hlog ?_
      have hnew := hholds.append htail h.covered ⟨htype, hlen⟩ hword
      rw [← hget] at hnew
      have hsame : ({ c with tail := [] } : Contents) = c := by rw [← htail]
      rw [hsame]
      exact { bound := h.bound, journalBound := h.journalBound, mode := h.mode, sequence := h.sequence.trans h.last
              tables := h.tables, present := h.present, holds := { hnew with }
              covered := h.covered, store := h.store, last := rfl, healthy := by simp
              failed := fun _ => htail, repeated := h.repeated, memory := h.memory }

end Append

end FabricReconciliation
