import FabricReconciliation.Refusals
import FabricReconciliation.Serving

/-!
# The store of a list of records (`store.cpp:236-340, 492-503`)

A store none of whose appends failed is determined by the records it has taken since its directory was created:
the tables are their effects one after another, the journal is their images, and the log lists them. So the calls
and restarts of such a store can be followed as operations on the list.

* **`recorded_create`** — the store of an empty directory has taken nothing;
* **`recorded_commit`** — a further record that fits makes it the store of the longer list;
* **`recorded_open`** — a process that opens its directory finds the same store;
* **`boot_recorded`**, **`reboot_recorded`** — what a boot adds to an empty directory, and to such a store.
-/

namespace FabricReconciliation

open Lib

/-- The record as the journal frames it. -/
def Event.entry (e : Event) : RecordType × Bytes := (e.type, e.payload)

theorem Event.type_ne_invalid (e : Event) : e.type ≠ .invalid := by
  cases e <;> simp [Event.type]

/-- The tables after the records, before they are numbered. -/
def tablesAfter (limits : RuntimeLimits) (store : StoreId) (es : List Event) : DurableState :=
  es.foldl (applyEvent limits) { store := store }

/-- The log entries of records that succeeded. -/
def told (es : List Event) : List Appending := es.map fun e => e.appending true true

@[simp] theorem told_nil : told [] = [] := rfl

theorem told_append (a b : List Event) : told (a ++ b) = told a ++ told b := List.map_append

/-- The store after the records, on a directory created under `opening`. The log may list failed appends as well. -/
def recorded (limits : RuntimeLimits) (opening : DurableStore.OpenEnv) (log : List Appending) (es : List Event) :
    DurableStore where
  limits := limits
  state := { tablesAfter limits opening.fresh es with sequence := UInt64.ofNat es.length }
  journal := ⟨true, UInt64.ofNat es.length,
    UInt64.ofNat (journalBytes opening.fresh opening.now 0 (es.map Event.entry) []).length, limits, false, false⟩
  readOnly := false
  directory :=
    { present := true
      journal := some (journalBytes opening.fresh opening.now 0 (es.map Event.entry) [])
      log := log }

section Records

variable {limits : RuntimeLimits} {opening : DurableStore.OpenEnv} {log : List Appending} {es : List Event}
  {e : Event}

/-- **`recorded_create`**. -/
theorem recorded_create (hio : opening.io = .ok) : ∃ report,
    DurableStore.open limits true false opening {} =
      ((recorded limits opening [] []).directory, .ok (recorded limits opening [] [], report)) := by
  have himage : journalBytes opening.fresh opening.now 0 [] [] =
      buildJournalHeaderImage opening.fresh opening.now 0 := by
    simp [journalBytes, recordImages, framed]
  obtain ⟨fresh, now, io⟩ := opening
  cases hio
  simp only [recorded, List.map_nil, himage]
  exact ⟨_, rfl⟩

theorem recorded_number (es : List Event) (e : Event) :
    UInt64.ofNat es.length + 1 = UInt64.ofNat (es ++ [e]).length := by
  rw [List.length_append, List.length_singleton, UInt64.ofNat_add]
  rfl

theorem recorded_file (opening : DurableStore.OpenEnv) (es : List Event) (e : Event) :
    journalBytes opening.fresh opening.now 0 (es.map Event.entry) [] ++
      buildRecordImage (UInt64.ofNat (es ++ [e]).length) e.type e.payload =
        journalBytes opening.fresh opening.now 0 ((es ++ [e]).map Event.entry) [] := by
  unfold journalBytes
  rw [← recorded_number, List.map_append, recordImages_append, List.map_singleton, recordImages_singleton,
    List.length_map, UInt64.zero_add]
  simp [Event.entry]

theorem recorded_append (hfits : e.Fits limits) (log' : List Appending) :
    (recorded limits opening log es).journal.append e.type e.payload .ok
        ((recorded limits opening log es).directory.journal.getD []) =
      (Status.ok, (recorded limits opening log' (es ++ [e])).journal,
        journalBytes opening.fresh opening.now 0 ((es ++ [e]).map Event.entry) []) := by
  have hbound : ¬ limits.maxJournalPayloadBytes.toNat < e.payload.length := not_lt.mpr hfits.bound
  have hwritten : UInt64.ofNat (journalBytes opening.fresh opening.now 0 (es.map Event.entry) []).length +
      UInt64.ofNat (buildRecordImage (UInt64.ofNat (es ++ [e]).length) e.type e.payload).length =
        UInt64.ofNat (journalBytes opening.fresh opening.now 0 ((es ++ [e]).map Event.entry) []).length := by
    rw [← UInt64.ofNat_add, ← List.length_append, recorded_file]
  simp only [recorded, Journal.append, Bool.not_true, Bool.false_eq_true, if_false, hbound, Journal.writeAndFlush,
    Option.getD_some, recorded_number es e, hwritten, recorded_file, Status.ok, if_true]

theorem recorded_appended (faults : List WriteIo) :
    ({ recorded limits opening log es with faults := faults } : DurableStore).appended e.type e.payload Status.ok
        (journalBytes opening.fresh opening.now 0 ((es ++ [e]).map Event.entry) []) =
      (recorded limits opening (log ++ told [e]) (es ++ [e])).directory := by
  have hlength : (journalBytes opening.fresh opening.now 0 ((es ++ [e]).map Event.entry) []).length =
      (journalBytes opening.fresh opening.now 0 (es.map Event.entry) []).length +
        (kRecordHeaderBytes + e.payload.length) := by
    rw [← recorded_file, List.length_append, length_buildRecordImage]
  simp only [DurableStore.appended, recorded, Option.getD_some, hlength, decide_true, Status.ok]
  rfl

/-- The record is taken whatever awaits the appends after it. -/
theorem recorded_commit_facing (what : String) (hok : e.Ok limits) (hfits : e.Fits limits) {faults : List WriteIo}
    (hhead : faults.headD .ok = .ok) : { recorded limits opening log es with faults := faults }.commit what e =
      (Status.ok, { recorded limits opening (log ++ told [e]) (es ++ [e]) with faults := faults.tail }) := by
  have happ := @recorded_append limits opening log es e hfits (log ++ told [e])
  rw [← hhead] at happ
  unfold DurableStore.commit
  rw [if_neg (by simp [recorded]), if_neg hfits.encoded,
    appendAndApply_eq { recorded limits opening log es with faults := faults } e.type e.payload happ,
    if_neg (by decide)]
  simp only [applyPayload_event _ (show e.Ok (recorded limits opening log es).limits from hok) hfits.encoded]
  have hstate : applyEvent limits { tablesAfter limits opening.fresh es with
      sequence := UInt64.ofNat (es ++ [e]).length } e =
        (recorded limits opening (log ++ told [e]) (es ++ [e])).state := by
    rw [applyEvent_sequence]
    simp only [recorded, tablesAfter, List.foldl_append, List.foldl_cons, List.foldl_nil]
  rw [recorded_appended]
  exact congrArg (fun st => (Status.ok, { recorded limits opening (log ++ told [e]) (es ++ [e]) with
    state := st, faults := faults.tail })) hstate

/-- **`recorded_commit`**. -/
theorem recorded_commit (what : String) (hok : e.Ok limits) (hfits : e.Fits limits) :
    (recorded limits opening log es).commit what e =
      (Status.ok, recorded limits opening (log ++ told [e]) (es ++ [e])) :=
  recorded_commit_facing what hok hfits (show ([] : List WriteIo).headD .ok = .ok from rfl)

/-- A record that does not reach the file leaves its trace in the log alone. -/
theorem recorded_cut (what : String) (hfits : e.Fits limits) :
    ∃ s, { recorded limits opening log es with faults := [.shortWrite 0] }.commit what e = (shortWriteStatus, s) ∧
      s.state = (recorded limits opening log es).state ∧
      s.directory = (recorded limits opening (log ++ [e.appending false false]) es).directory := by
  have hbound : ¬ limits.maxJournalPayloadBytes.toNat < e.payload.length := not_lt.mpr hfits.bound
  have happ : (recorded limits opening log es).journal.append e.type e.payload (.shortWrite 0)
      ((recorded limits opening log es).directory.journal.getD []) =
        (shortWriteStatus, { (recorded limits opening log es).journal with writeFailed := true },
          journalBytes opening.fresh opening.now 0 (es.map Event.entry) []) := by
    simp only [recorded, Journal.append, Bool.not_true, Bool.false_eq_true, if_false, hbound, Journal.writeAndFlush,
      Option.getD_some, List.take_zero, List.append_nil]
    rfl
  have hlog : ({ recorded limits opening log es with faults := [.shortWrite 0] } : DurableStore).appended e.type
      e.payload shortWriteStatus (journalBytes opening.fresh opening.now 0 (es.map Event.entry) []) =
        (recorded limits opening (log ++ [e.appending false false]) es).directory := by
    simp [DurableStore.appended, recorded, Event.appending, shortWriteStatus, integrityFailure, kRecordHeaderBytes]
  unfold DurableStore.commit
  rw [if_neg (by simp [recorded]), if_neg hfits.encoded,
    appendAndApply_eq { recorded limits opening log es with faults := [.shortWrite 0] } e.type e.payload happ,
    if_pos (by decide), hlog]
  exact ⟨_, rfl, rfl, rfl⟩

/-- What an open asks of the records. -/
structure Reopens (limits : RuntimeLimits) (es : List Event) : Prop where
  ok : ∀ e ∈ es, e.Ok limits
  fits : ∀ e ∈ es, e.Fits limits
  scannable : ∀ e ∈ es, e.payload.length ≤ scanPayloadLimit limits
  size : 96 + (es.map fun e => 56 + e.payload.length).sum ≤ limits.maxJournalBytes.toNat
  count : es.length + 1 < 2 ^ 63

theorem length_recordImages (last : RecordSequence) : ∀ es : List Event,
    (recordImages last (es.map Event.entry)).length = (es.map fun e => 56 + e.payload.length).sum
  | [] => rfl
  | e :: rest => by
    rw [List.map_cons, recordImages_cons, List.length_append, length_buildRecordImage,
      length_recordImages (last + 1) rest]
    rfl

theorem replayEntries_recorded (s : DurableState) (hok : ∀ e ∈ es, e.Ok limits) (hfits : ∀ e ∈ es, e.Fits limits) :
    replayEntries limits (es.map Event.entry) s = .ok (es.foldl (applyEvent limits) s) := by
  induction es generalizing s with
  | nil => rfl
  | cons e rest ih =>
    have happly := applyPayload_event s (hok e (List.mem_cons_self ..)) (hfits e (List.mem_cons_self ..)).encoded
    simp only [List.map_cons, replayEntries, Event.entry, happly, List.foldl_cons]
    exact ih _ (fun e he => hok e (List.mem_cons_of_mem _ he)) fun e he => hfits e (List.mem_cons_of_mem _ he)

/-- The store of the records, opened in the given mode. -/
def recordedAs (readOnly : Bool) (limits : RuntimeLimits) (opening : DurableStore.OpenEnv) (log : List Appending)
    (es : List Event) :
    DurableStore :=
  { recorded limits opening log es with
    readOnly := readOnly
    journal := { (recorded limits opening log es).journal with readOnly := readOnly } }

/-- What the files hold. -/
def recordedContents (opening : DurableStore.OpenEnv) (es : List Event) : Contents :=
  ⟨opening.fresh, opening.now, 0, es.map Event.entry, [], none, 0⟩

theorem recorded_holds (hfits : ∀ e ∈ es, e.Fits limits) :
    Holds limits (recordedContents opening es) (recorded limits opening log es).directory := by
  have hentry : ∀ {P : RecordType × Bytes → Prop}, (∀ e ∈ es, P e.entry) →
      ∀ x ∈ (recordedContents opening es).entries, P x := by
    intro P hP x hx
    obtain ⟨e, he, rfl⟩ := List.mem_map.mp hx
    exact hP e he
  exact
    { present := rfl, journal := rfl, snapshot := rfl
      fits := hentry fun e he => ⟨e.type_ne_invalid, (hfits e he).bound⟩
      word := hentry fun e _ => by
        have := length_encoded_le e.script
        simp only [kMaxCanonicalBytes] at this
        show (encoded e.script).length < 2 ^ 32
        omega
      torn := tornTail_nil _ _, covered := Nat.zero_le _, fresh := fun _ => ⟨rfl, rfl⟩
      published := by simp [recordedContents] }

/-- All the records are replayed. -/
theorem replayed_recorded (hcount : es.length < 2 ^ 63) :
    (recordedContents opening es).replayed = es.map Event.entry := by
  have hwatermark : (recordedContents opening es).watermark ≤ (recordedContents opening es).last := UInt64.zero_le
  obtain ⟨again, hreplayed, -, hnone⟩ := replayed_eq (c := recordedContents opening es) (Nat.zero_le _) hwatermark
    (by simpa [recordedContents] using hcount)
  rw [hreplayed, hnone (by simp [recordedContents])]
  rfl

/-- **`recorded_open`**. -/
theorem recorded_open (h : Reopens limits es) (createIfMissing readOnly : Bool) (env : DurableStore.OpenEnv) :
    ∃ report, DurableStore.open limits createIfMissing readOnly env (recorded limits opening log es).directory =
      ((recorded limits opening log es).directory, .ok (recordedAs readOnly limits opening log es, report)) := by
  have hopenable : Openable limits readOnly (recordedContents opening es) (tablesAfter limits opening.fresh es) :=
    { size := by
        have hsize := h.size
        rw [← length_recordImages 0 es] at hsize
        simpa [recordedContents, Contents.journalFile, journalBytes] using hsize
      scannable := by
        intro x hx
        obtain ⟨e, he, rfl⟩ := List.mem_map.mp hx
        exact h.scannable e he
      tail := fun _ => rfl
      snapshotSize := by simp [recordedContents], bounds := by simp [recordedContents], watermark := UInt64.zero_le
      replays := by
        rw [replayed_recorded (Nat.lt_of_succ_lt h.count)]
        exact replayEntries_recorded _ h.ok h.fits }
  obtain ⟨report, hopen⟩ := open_succeeds (recorded_holds h.fits) hopenable createIfMissing env
  refine ⟨report, ?_⟩
  rw [hopen]
  simp [openedStore, openedDirectory, recordedAs, recorded, openedOf, recordedContents, Contents.last,
    Contents.trimmed, Contents.journalFile]

/-- The record has an encoding, of at most 2000 bytes. -/
structure Event.Brief (e : Event) : Prop where
  encoded : e.payload ≠ []
  short : e.payload.length ≤ 2000

/-- The default bounds of the journal. -/
structure Ample (limits : RuntimeLimits) : Prop where
  payload : limits.maxJournalPayloadBytes = 8388608
  file : limits.maxJournalBytes = 536870912

theorem brief_of_image (htotal : e.script.Total) (hpos : 0 < e.script.image.length)
    (hshort : e.script.image.length ≤ 2000) : e.Brief := by
  have heq : e.payload = e.script.image := finish_of_fits htotal (by simp only [kMaxCanonicalBytes]; omega)
  constructor
  · rw [heq]
    exact List.ne_nil_of_length_pos hpos
  · rw [heq]
    exact hshort

theorem Event.Brief.fits (h : e.Brief) (hample : Ample limits) : e.Fits limits := by
  have hshort := h.short
  refine ⟨h.encoded, ?_⟩
  rw [hample.payload]
  show e.payload.length ≤ 8388608
  omega

theorem brief_attempt {a : AttemptRecord} (h : a.transitions.length ≤ 4) : (attemptScript a).Total ∧
    0 < (attemptScript a).image.length ∧ (attemptScript a).image.length ≤ 2000 := by
  refine ⟨total_attemptScript a, ?_⟩
  have hscope := a.scope.length_le
  have hsubject := a.subject.length_le
  have h1 := a.authority.policyId.length_le
  have h2 := a.authority.definition.length_le
  have h3 := a.authority.intent.length_le
  have h4 := a.authority.observation.length_le
  have h5 := a.authority.observationReporter.length_le
  simp only [kMaxIdentityLength] at hscope hsubject h1 h2 h3 h4 h5
  rw [length_image_attempt, length_image_authority]
  omega

theorem brief_issued {a : AttemptRecord} (h : a.transitions.length ≤ 4) : (Event.attemptIssued a).Brief :=
  brief_of_image (brief_attempt h).1 (brief_attempt h).2.1 (brief_attempt h).2.2

theorem brief_transition {a : AttemptRecord} (h : a.transitions.length ≤ 4) : (Event.attemptTransition a).Brief :=
  brief_of_image (brief_attempt h).1 (brief_attempt h).2.1 (brief_attempt h).2.2

theorem brief_outcome (o : ReconciliationOutcome) : (Event.outcomeCommit o).Brief := by
  have hscope := o.scope.length_le
  have hsubject := o.subject.length_le
  simp only [kMaxIdentityLength] at hscope hsubject
  have hlength := length_image_outcome o
  apply brief_of_image
  · exact total_outcomeScript o
  · show 0 < (outcomeScript o).image.length
    omega
  · show (outcomeScript o).image.length ≤ 2000
    omega

theorem brief_epoch (epoch : CoordinatorEpoch) : (Event.epochAdvance epoch).Brief := by
  apply brief_of_image
  · simp [Event.script, putU64]
  · simp [Event.script, putU64]
  · simp [Event.script, putU64]

theorem brief_fence {f : FenceEntry} (hdetail : f.detail.length ≤ 1000) : (Event.fencePut f).Brief := by
  have hid := f.id.length_le
  have hscope := f.scope.length_le
  have hsubject := f.subject.length_le
  simp only [kMaxIdentityLength] at hid hscope hsubject
  have hshort : (putBytes f.detail).Total := by
    rw [total_putBytes]
    omega
  have hlength : (fenceScript f).image.length =
      34 + (f.id.text.length + f.scope.text.length + f.subject.text.length + f.detail.length) := by
    simp only [fenceScript, putU64, putReason, putU16, putI64, Script.image_append, List.length_append, image_putLE,
      length_leBytes, length_image_text, image_putBytes ((total_putBytes _).mp hshort), length_prefixed]
    omega
  apply brief_of_image
  · show (fenceScript f).Total
    simp [fenceScript, hshort]
  · show 0 < (fenceScript f).image.length
    omega
  · show (fenceScript f).image.length ≤ 2000
    omega

theorem brief_policy {policy : ReconciliationPolicy} (hunmanaged : policy.unmanagedAttributes = [])
    (hobserve : policy.observeOnlyAttributes = []) : (Event.policyPut policy).Brief := by
  have hid := policy.id.length_le
  simp only [kMaxIdentityLength] at hid
  have hlength : (policyScript policy).image.length = 69 + policy.id.text.length := by
    simp only [policyScript, policyContent, hunmanaged, hobserve, putU16, putU64, putI64, putBool, putCount,
      Script.image_append, List.length_append, image_putLE, image_putByte, length_leBytes, length_image_text,
      length_image_digest, List.length_singleton, putEach_nil, Script.image_nil, List.length_nil]
    omega
  apply brief_of_image
  · exact total_policyScript policy
  · show 0 < (policyScript policy).image.length
    omega
  · show (policyScript policy).image.length ≤ 2000
    omega

theorem brief_intent {d : IntentDocument} (htotal : (encodeSubjects d.subjects).Total)
    (hsubjects : (encodeSubjects d.subjects).image.length ≤ 1000) : (Event.intentCommit d).Brief := by
  have hintent := d.intent.length_le
  have hscope := d.scope.length_le
  have hdefinition := d.definition.length_le
  simp only [kMaxIdentityLength] at hintent hscope hdefinition
  have hlength : (intentScript d).image.length = 62 + (d.intent.text.length + d.scope.text.length +
      d.definition.text.length) + (encodeSubjects d.subjects).image.length := by
    simp only [intentScript, intentContent, putU64, putEnum, putBool, Script.image_append, List.length_append,
      image_putLE, image_putByte, length_leBytes, length_image_text, length_image_digest, List.length_singleton]
    omega
  apply brief_of_image
  · simp only [Event.script, intentScript, intentContent, Script.total_append, htotal]
    simp
  · show 0 < (intentScript d).image.length
    omega
  · show (intentScript d).image.length ≤ 2000
    omega

theorem brief_observation {d : ObservationDocument} (htotal : (encodeSubjects d.subjects).Total)
    (hsubjects : (encodeSubjects d.subjects).image.length ≤ 1000) : (Event.observationCommit d).Brief := by
  have hobservation := d.observation.length_le
  have hscope := d.scope.length_le
  have hreporter := d.reporter.length_le
  simp only [kMaxIdentityLength] at hobservation hscope hreporter
  have hlength : (observationScript d).image.length = 71 + (d.observation.text.length + d.scope.text.length +
      d.reporter.text.length) + (encodeSubjects d.subjects).image.length := by
    simp only [observationScript, observationContent, putU64, putI64, putEnum, putBool, Script.image_append,
      List.length_append, image_putLE, image_putByte, length_leBytes, length_image_text, length_image_digest,
      List.length_singleton]
    omega
  apply brief_of_image
  · simp only [Event.script, observationScript, observationContent, Script.total_append, htotal]
    simp
  · show 0 < (observationScript d).image.length
    omega
  · show (observationScript d).image.length ≤ 2000
    omega

theorem sum_brief (h : ∀ e ∈ es, e.Brief) : (es.map fun e => 56 + e.payload.length).sum ≤ 2056 * es.length := by
  induction es with
  | nil => simp
  | cons e rest ih =>
    have hfirst := (h e (List.mem_cons_self ..)).short
    have hrest := ih fun e he => h e (List.mem_cons_of_mem _ he)
    rw [List.map_cons, List.sum_cons, List.length_cons]
    omega

/-- A thousand short records are read again. -/
theorem reopens_of_brief (hample : Ample limits) (hok : ∀ e ∈ es, e.Ok limits) (hbrief : ∀ e ∈ es, e.Brief)
    (hcount : es.length ≤ 1000) : Reopens limits es := by
  have hsum := sum_brief hbrief
  refine ⟨hok, fun e he => (hbrief e he).fits hample, ?_, ?_, by omega⟩
  · intro e he
    have hshort := (hbrief e he).short
    unfold scanPayloadLimit
    rw [hample.payload]
    show e.payload.length ≤ 8388608
    omega
  · rw [hample.file]
    show 96 + (es.map fun e => 56 + e.payload.length).sum ≤ 536870912
    omega

/-- An attempt's last record and its outcome. -/
def settling (ending : AttemptRecord → AttemptRecord × ReconciliationOutcome) (a : AttemptRecord) : List Event :=
  [.attemptTransition (ending a).1, .outcomeCommit (ending a).2]

theorem recorded_settle (a : AttemptRecord) (o : ReconciliationOutcome) (hattempt : AttemptOk limits a)
    (hfits : (Event.attemptTransition a).Fits limits) (houtcome : OutcomeOk o)
    (hfits' : (Event.outcomeCommit o).Fits limits) :
    (recorded limits opening log es).settle a o =
      (Status.ok, recorded limits opening (log ++ told [.attemptTransition a, .outcomeCommit o])
        (es ++ [.attemptTransition a, .outcomeCommit o])) := by
  unfold DurableStore.settle DurableStore.transitionAttempt DurableStore.commitOutcome
  rw [recorded_commit "attempt" (e := .attemptTransition a) hattempt hfits, if_neg (by simp [Status.ok]),
    recorded_commit "outcome" (e := .outcomeCommit o) houtcome hfits', List.append_assoc, ← told_append,
    List.append_assoc]
  rfl

theorem recorded_settleAll (ending : AttemptRecord → AttemptRecord × ReconciliationOutcome) {as : List AttemptRecord}
    (hok : ∀ a ∈ as, ∀ e ∈ settling ending a, e.Ok limits ∧ e.Fits limits) :
    (recorded limits opening log es).settleAll ending as =
      (Status.ok, recorded limits opening (log ++ told (as.flatMap (settling ending)))
        (es ++ as.flatMap (settling ending))) := by
  induction as generalizing log es with
  | nil => simp [DurableStore.settleAll]
  | cons a rest ih =>
    have hfirst := hok a (List.mem_cons_self ..) (.attemptTransition (ending a).1) (by simp [settling])
    have hsecond := hok a (List.mem_cons_self ..) (.outcomeCommit (ending a).2) (by simp [settling])
    unfold DurableStore.settleAll
    simp only [recorded_settle (ending a).1 (ending a).2 hfirst.1 hfirst.2 hsecond.1 hsecond.2]
    rw [if_neg (by decide), ih fun a ha => hok a (List.mem_cons_of_mem _ ha), List.flatMap_cons, List.append_assoc,
      told_append, List.append_assoc]
    rfl

/-! ## Engines -/

/-- An engine whose store has taken the records. -/
def Engine.on (options : EngineOptions) (opening : DurableStore.OpenEnv) (live : Incarnation)
    (watermark : RecordSequence) (log : List Appending) (es : List Event) : Engine :=
  ⟨options, recorded options.limits opening log es, live, watermark⟩

variable {options : EngineOptions} {live : Incarnation} {watermark : RecordSequence} {env : CallEnv} {id : BootId}

/-- The policy that a first boot installs. -/
def EngineOptions.Installs (options : EngineOptions) (policy : ReconciliationPolicy) : Prop :=
  options.installInitialPolicy = true ∧
    canonicalisePolicy (if options.initialPolicy.id.empty then defaultPolicy else options.initialPolicy)
      options.limits = .ok policy

theorem installPolicy_empty {policy : ReconciliationPolicy} (hinstall : options.Installs policy) (faults : List WriteIo) :
    installPolicy options { recorded options.limits opening log [] with faults := faults } =
      { recorded options.limits opening log [] with faults := faults }.commit "policy" (.policyPut policy) := by
  unfold installPolicy
  rw [if_neg (by simp [recorded, tablesAfter]), if_neg (by simp [hinstall.1]), hinstall.2]
  rfl

/-- An engine starts on empty tables. -/
theorem start_recorded {policy : ReconciliationPolicy} (hmode : options.readOnly = false) (hfaults : env.faults = [])
    (hinstall : options.Installs policy) (hfits : (Event.policyPut policy).Fits options.limits)
    (hepoch : (Event.epochAdvance 1).Fits options.limits) :
    Engine.start options id env (recorded options.limits opening log []) =
      .ok (Engine.on options opening ⟨1, id⟩ 2 (log ++ told [.policyPut policy, .epochAdvance 1])
        [.policyPut policy, .epochAdvance 1]) := by
  have hinstalled : installPolicy options (recorded options.limits opening log []) =
      (Status.ok, recorded options.limits opening (log ++ told [.policyPut policy]) [.policyPut policy]) :=
    (installPolicy_empty hinstall []).trans
      (recorded_commit "policy" (e := .policyPut policy) (canonicalisePolicy_ok hinstall.2) hfits)
  have hadvanced : (recorded options.limits opening (log ++ told [.policyPut policy]) [.policyPut policy]).advanceEpoch 1 =
      (Status.ok, recorded options.limits opening (log ++ told [.policyPut policy, .epochAdvance 1])
        [.policyPut policy, .epochAdvance 1]) := by
    unfold DurableStore.advanceEpoch
    rw [if_neg (by simp [recorded]), if_neg (by simp [recorded, tablesAfter, applyEvent, applyPolicy])]
    rw [show told [Event.policyPut policy, .epochAdvance 1] = told [.policyPut policy] ++ told [.epochAdvance 1] from rfl,
      ← List.append_assoc]
    exact recorded_commit "epoch" (e := .epochAdvance 1) trivial hepoch
  have hfenced : commitRestartFencing options.limits ⟨1, id⟩ env.now
      (recorded options.limits opening (log ++ told [.policyPut policy, .epochAdvance 1])
        [.policyPut policy, .epochAdvance 1]) =
      (Status.ok, recorded options.limits opening (log ++ told [.policyPut policy, .epochAdvance 1])
        [.policyPut policy, .epochAdvance 1]) := rfl
  unfold Engine.start
  rw [if_neg (by simp [hmode])]
  have hsame : { recorded options.limits opening log [] with faults := env.faults } =
      recorded options.limits opening log [] := by rw [hfaults]; rfl
  simp only [hsame, hinstalled]
  rw [if_neg (by decide)]
  have hnext : (recorded options.limits opening (log ++ told [.policyPut policy]) [.policyPut policy]).state.lastEpoch + 1 =
    1 := rfl
  simp only [hnext, hadvanced, hfenced]
  rw [if_neg (by decide), if_neg (by decide)]
  rfl

/-- **`boot_recorded`**. -/
theorem boot_recorded {policy : ReconciliationPolicy} (hmode : options.readOnly = false)
    (hcreate : options.createIfMissing = true) (hio : opening.io = .ok) (hfaults : env.faults = [])
    (hinstall : options.installInitialPolicy = true)
    (hpolicy : canonicalisePolicy (if options.initialPolicy.id.empty then defaultPolicy else options.initialPolicy)
      options.limits = .ok policy)
    (hfits : (Event.policyPut policy).Fits options.limits) (hepoch : (Event.epochAdvance 1).Fits options.limits)
    (last : DurableState) :
    Process.step (.down {} last) (.boot options opening id env) =
      (Status.ok, .up (Engine.on options opening ⟨1, id⟩ 2 (told [.policyPut policy, .epochAdvance 1])
        [.policyPut policy, .epochAdvance 1])) := by
  obtain ⟨report, hopen⟩ := @recorded_create options.limits opening hio
  have hstart := @start_recorded opening [] options env id policy hmode hfaults ⟨hinstall, hpolicy⟩ hfits hepoch
  simp only [Process.step, Process.boot, hcreate, hmode, hopen, hstart, List.nil_append]

/-- The first boot under the defaults installs the default policy and takes the first epoch. -/
theorem boot_default : Process.step (.down {} {}) (.boot {} {} FixedBytes.zero {}) =
    (Status.ok, .up (Engine.on {} {} ⟨1, FixedBytes.zero⟩ 2 (told [.policyPut defaultPolicy, .epochAdvance 1])
      [.policyPut defaultPolicy, .epochAdvance 1])) := by
  apply boot_recorded rfl rfl rfl rfl rfl
  · exact canonicalisePolicy_self (defaultPolicy_canonical _)
  · exact (brief_policy rfl rfl).fits ⟨rfl, rfl⟩
  · exact (brief_epoch 1).fits ⟨rfl, rfl⟩

/-- The first boot dies at its first record. -/
theorem boot_cut {policy : ReconciliationPolicy} (hmode : options.readOnly = false)
    (hcreate : options.createIfMissing = true) (hio : opening.io = .ok) (hfaults : env.faults = [.shortWrite 0])
    (hinstall : options.Installs policy) (hfits : (Event.policyPut policy).Fits options.limits) (last : DurableState) :
    ∃ last', Process.step (.down {} last) (.boot options opening id env) = (shortWriteStatus,
      .down (recorded options.limits opening [(Event.policyPut policy).appending false false] []).directory last') := by
  obtain ⟨report, hopen⟩ := @recorded_create options.limits opening hio
  obtain ⟨s, hcut, -, hdirectory⟩ := @recorded_cut options.limits opening [] [] (.policyPut policy) "policy" hfits
  have hinstalled := (installPolicy_empty hinstall [.shortWrite 0]).trans hcut
  have hstart : Engine.start options id env (recorded options.limits opening [] []) = .error (shortWriteStatus, s) := by
    unfold Engine.start
    rw [if_neg (by simp [hmode])]
    simp only [hfaults, hinstalled]
    rw [if_pos (by decide)]
  refine ⟨s.state, ?_⟩
  simp only [Process.step, Process.boot, hcreate, hmode, hopen, hstart, hdirectory, List.nil_append]

/-- A boot of a directory that has only its journal header. -/
theorem boot_bare {policy : ReconciliationPolicy} (hmode : options.readOnly = false) (hfaults : env.faults = [])
    (hinstall : options.Installs policy) (hfits : (Event.policyPut policy).Fits options.limits)
    (hepoch : (Event.epochAdvance 1).Fits options.limits) (hopens : Reopens options.limits [])
    (opening' : DurableStore.OpenEnv) (last : DurableState) :
    Process.step (.down (recorded options.limits opening log []).directory last) (.boot options opening' id env) =
      (Status.ok, .up (Engine.on options opening ⟨1, id⟩ 2 (log ++ told [.policyPut policy, .epochAdvance 1])
        [.policyPut policy, .epochAdvance 1])) := by
  obtain ⟨report, hopen⟩ := @recorded_open options.limits opening log [] hopens options.createIfMissing false opening'
  have hstart : Engine.start options id env (recordedAs false options.limits opening log []) = _ :=
    @start_recorded opening log options env id policy hmode hfaults hinstall hfits hepoch
  simp only [Process.step, Process.boot, hmode, hopen, hstart]

/-- The attempts a restart ends. -/
def interrupted (s : DurableState) : List AttemptRecord :=
  sortById (s.attempts.values.filter fun a => !a.state.isTerminal)

/-- What a restart adds to the records. -/
def restartEvents (limits : RuntimeLimits) (id : BootId) (now : UnixMillis) (s : DurableState) : List Event :=
  .epochAdvance (s.lastEpoch + 1) ::
    (interrupted s).flatMap (settling (AttemptRecord.interrupt limits ⟨s.lastEpoch + 1, id⟩ now))

/-- What a restart adds is accepted. -/
theorem restartEvents_ok (hample : Ample limits) {s : DurableState} (id : BootId) (now : UnixMillis)
    (h : ∀ a ∈ s.attempts.values, AttemptOk limits a ∧ a.transitions.length ≤ 3) :
    ∀ e ∈ restartEvents limits id now s, e.Ok limits ∧ e.Fits limits := by
  intro e he
  rcases List.mem_cons.mp he with rfl | he
  · exact ⟨trivial, (brief_epoch _).fits hample⟩
  obtain ⟨a, ha, he⟩ := List.mem_flatMap.mp he
  have hin : a ∈ s.attempts.values := by
    unfold interrupted sortById at ha
    rw [List.mem_insertionSort] at ha
    exact (List.mem_filter.mp ha).1
  obtain ⟨hok, hshort⟩ := h a hin
  simp only [settling, List.mem_cons, List.not_mem_nil, or_false] at he
  rcases he with rfl | rfl
  · have hhistory := hok.history
    have hlength : (AttemptRecord.interrupt limits ⟨s.lastEpoch + 1, id⟩ now a).1.transitions.length ≤ 4 ∧
        (AttemptRecord.interrupt limits ⟨s.lastEpoch + 1, id⟩ now a).1.transitions.length ≤
          limits.maxAttemptTransitions.toNat := by
      simp only [AttemptRecord.interrupt]
      split
      · simp only [List.length_append, List.length_singleton]
        omega
      · omega
    refine ⟨⟨hok.id, ?_, hlength.2, hok.scope, hok.subject⟩, (brief_transition hlength.1).fits hample⟩
    simp only [AttemptRecord.interrupt]
    split <;> simp
  · exact ⟨⟨hok.scope, hok.subject⟩, (brief_outcome _).fits hample⟩

/-- **`reboot_recorded`**. -/
theorem reboot_recorded (h : Reopens options.limits es) (hmode : options.readOnly = false) (hfaults : env.faults = [])
    (hpolicy : (tablesAfter options.limits opening.fresh es).hasPolicy = true) {next : CoordinatorEpoch}
    (hnext : (tablesAfter options.limits opening.fresh es).lastEpoch + 1 = next)
    (hepoch : ¬ next ≤ (tablesAfter options.limits opening.fresh es).lastEpoch) {added : List Event}
    (hadded : restartEvents options.limits id env.now (tablesAfter options.limits opening.fresh es) = added)
    (hok : ∀ e ∈ added, e.Ok options.limits ∧ e.Fits options.limits) (opening' : DurableStore.OpenEnv)
    (last : DurableState) :
    Process.step (.down (recorded options.limits opening log es).directory last) (.boot options opening' id env) =
      (Status.ok, .up (Engine.on options opening ⟨next, id⟩ (UInt64.ofNat (es ++ added).length) (log ++ told added)
        (es ++ added))) := by
  subst hnext hadded
  obtain ⟨report, hopen⟩ := @recorded_open options.limits opening log es h options.createIfMissing false opening'
  generalize hs : tablesAfter options.limits opening.fresh es = s at *
  have hstate : (recorded options.limits opening log es).state = { s with sequence := UInt64.ofNat es.length } := by
    rw [← hs]
    rfl
  have hinstalled : installPolicy options (recorded options.limits opening log es) =
      (Status.ok, recorded options.limits opening log es) := by
    unfold installPolicy
    rw [if_pos (by rw [hstate]; exact hpolicy)]
  have hadvanced : (recorded options.limits opening log es).advanceEpoch (s.lastEpoch + 1) =
      (Status.ok, recorded options.limits opening (log ++ told [.epochAdvance (s.lastEpoch + 1)])
        (es ++ [.epochAdvance (s.lastEpoch + 1)])) := by
    unfold DurableStore.advanceEpoch
    rw [if_neg (by simp [recorded]), if_neg (by rw [hstate]; exact hepoch)]
    exact recorded_commit "epoch" (e := .epochAdvance _) trivial (hok _ (List.mem_cons_self ..)).2
  have hvictims : interrupted (recorded options.limits opening (log ++ told [.epochAdvance (s.lastEpoch + 1)])
        (es ++ [.epochAdvance (s.lastEpoch + 1)])).state =
      interrupted s := by
    rw [← hs]
    simp [recorded, tablesAfter, interrupted, applyEvent, applyEpoch]
  have hfenced : commitRestartFencing options.limits ⟨s.lastEpoch + 1, id⟩ env.now
      (recorded options.limits opening (log ++ told [.epochAdvance (s.lastEpoch + 1)])
        (es ++ [.epochAdvance (s.lastEpoch + 1)])) =
        (Status.ok, recorded options.limits opening (log ++ told (restartEvents options.limits id env.now s))
          (es ++ restartEvents options.limits id env.now s)) := by
    unfold commitRestartFencing
    rw [show sortById _ = interrupted s from hvictims, recorded_settleAll, List.append_assoc, List.append_assoc,
      ← told_append]
    · rfl
    · intro a ha e he
      apply hok
      exact List.mem_cons_of_mem _ (List.mem_flatMap.mpr ⟨a, ha, he⟩)
  have hstart : Engine.start options id env (recordedAs false options.limits opening log es) =
      .ok (Engine.on options opening ⟨s.lastEpoch + 1, id⟩
        (UInt64.ofNat (es ++ restartEvents options.limits id env.now s).length)
        (log ++ told (restartEvents options.limits id env.now s))
        (es ++ restartEvents options.limits id env.now s)) := by
    unfold Engine.start
    rw [if_neg (by simp [hmode])]
    have hsame : { recordedAs false options.limits opening log es with faults := env.faults } =
        recorded options.limits opening log es := by rw [hfaults]; rfl
    have hnext : (recorded options.limits opening log es).state.lastEpoch + 1 = s.lastEpoch + 1 := by rw [hstate]
    simp only [hsame, hinstalled, hnext, hadvanced, hfenced, Status.ok, ne_eq, not_true_eq_false, if_false]
    rfl
  simp only [Process.step, Process.boot, hmode, hopen, hstart]

/-- A read-only process takes over what is there. -/
theorem reopen_recorded (h : Reopens options.limits es) (hmode : options.readOnly = true)
    (opening' : DurableStore.OpenEnv) (last : DurableState) :
    Process.step (.down (recorded options.limits opening log es).directory last) (.boot options opening' id env) =
      (Status.ok, .up ⟨options, recordedAs true options.limits opening log es,
        ⟨(tablesAfter options.limits opening.fresh es).lastEpoch, id⟩, UInt64.ofNat es.length⟩) := by
  obtain ⟨report, hopen⟩ := @recorded_open options.limits opening log es h options.createIfMissing true opening'
  have hstart : Engine.start options id env (recordedAs true options.limits opening log es) =
      .ok ⟨options, recordedAs true options.limits opening log es,
        ⟨(tablesAfter options.limits opening.fresh es).lastEpoch, id⟩, UInt64.ofNat es.length⟩ := by
    unfold Engine.start
    rw [if_pos hmode]
    rfl
  simp only [Process.step, Process.boot, hmode, hopen, hstart]

/-! ## Calls -/

theorem Engine.on_under (hfaults : env.faults = []) :
    ((Engine.on options opening live watermark log es).under env).store = recorded options.limits opening log es := by
  simp only [Engine.under, hfaults]
  rfl

/-- No automatic compaction is due after so many records. -/
def Undue (options : EngineOptions) (watermark : RecordSequence) (count : Nat) : Prop :=
  options.autoCompactAfterRecords = 0 ∨ UInt64.ofNat count - watermark < options.autoCompactAfterRecords

theorem Engine.on_maybeCompact {log' : List Appending} {es' : List Event} (h : Undue options watermark es'.length) :
    ((Engine.on options opening live watermark log es).withStore
        (recorded options.limits opening log' es')).maybeCompact env =
      Engine.on options opening live watermark log' es' := by
  unfold Engine.maybeCompact
  rcases h with hmanual | hsoon
  · exact if_pos hmanual
  · split
    · rfl
    · exact if_pos hsoon

/-- A newer policy that is canonical already. -/
theorem putPolicy_recorded {policy : ReconciliationPolicy} (same : Bool) (hfaults : env.faults = [])
    (hcanonical : PolicyOk options.limits policy)
    (hnewer : (tablesAfter options.limits opening.fresh es).policy.version < policy.version)
    (hfits : (Event.policyPut policy).Fits options.limits) :
    (Process.up (Engine.on options opening live watermark log es)).step (.call (.putPolicy policy same) env) =
      (Status.ok, .up (Engine.on options opening live watermark (log ++ told [.policyPut policy])
        (es ++ [.policyPut policy]))) := by
  have hallowed : (Engine.on options opening live watermark log es).admitPolicy policy same = .ok policy := by
    have hcurrent : (Engine.on options opening live watermark log es).store.state.policy.version < policy.version :=
      hnewer
    unfold Engine.admitPolicy
    rw [if_neg (by simp [Engine.on, recorded]),
      show canonicalisePolicy policy (Engine.on options opening live watermark log es).options.limits = .ok policy
        from canonicalisePolicy_self hcanonical]
    simp only
    rw [if_neg (by simp [hcurrent.le]), if_neg (by simp [hcurrent.ne'])]
  have hdone : (Engine.on options opening live watermark log es).putPolicy env policy same =
      (Status.ok, Engine.on options opening live watermark (log ++ told [.policyPut policy])
        (es ++ [.policyPut policy])) := by
    unfold Engine.putPolicy DurableStore.putPolicy
    simp only [hallowed, Engine.on_under hfaults]
    rw [recorded_commit "policy" (e := .policyPut policy) hcanonical hfits]
    rfl
  simp only [Process.step, Engine.call, hdone]

theorem admitIntent_recorded {document : IntentDocument}
    (hvalid : (validateIntent document options.limits).code = .ok)
    (hnone : (tablesAfter options.limits opening.fresh es).intents.find? document.scope = none) :
    (Engine.on options opening live watermark log es).admitIntent document =
      .ok { document with digest := computeIntentDigest document } := by
  unfold Engine.admitIntent
  simp only [Engine.on, recorded, Bool.false_eq_true, if_false, hvalid, ne_eq, not_true_eq_false, hnone]

theorem commitIntent_recorded {document : IntentDocument} (hfaults : env.faults = [])
    (hvalid : (validateIntent document options.limits).code = .ok)
    (hnone : (tablesAfter options.limits opening.fresh es).intents.find? document.scope = none)
    (hfits : (Event.intentCommit { document with digest := computeIntentDigest document }).Fits options.limits)
    (hundue : Undue options watermark (es.length + 1)) :
    (Process.up (Engine.on options opening live watermark log es)).step (.call (.commitIntent document) env) =
      (Status.ok, .up (Engine.on options opening live watermark
        (log ++ told [.intentCommit { document with digest := computeIntentDigest document }])
        (es ++ [.intentCommit { document with digest := computeIntentDigest document }]))) := by
  obtain ⟨hintent, hscope, hdefinition, hsubjects⟩ := validateIntent_ok hvalid
  have hok : IntentOk options.limits { document with digest := computeIntentDigest document } :=
    ⟨hintent, hscope, hdefinition, hsubjects, (computeIntentDigest_digest document _).symm⟩
  have hdone : (Engine.on options opening live watermark log es).commitIntent env document =
      (Status.ok, some ⟨false, document.generation, computeIntentDigest document⟩,
        Engine.on options opening live watermark
          (log ++ told [.intentCommit { document with digest := computeIntentDigest document }])
          (es ++ [.intentCommit { document with digest := computeIntentDigest document }])) := by
    unfold Engine.commitIntent DurableStore.commitIntent
    simp only [admitIntent_recorded hvalid hnone, Engine.on_under hfaults]
    rw [recorded_commit "intent" (e := .intentCommit _) hok hfits, if_neg (by simp [Status.ok])]
    rw [Engine.on_maybeCompact (by simpa using hundue)]
  simp only [Process.step, Engine.call, hdone]

/-- The document that a submission becomes under a receipt stamp. -/
def ObservationSubmission.document (submission : ObservationSubmission) (epoch : CoordinatorEpoch)
    (received : UnixMillis) : ObservationDocument :=
  let document : ObservationDocument :=
    { observation := submission.observation, scope := submission.scope, reporter := submission.reporter
      generation := submission.generation, evidence := submission.evidence, complete := submission.complete
      authoritativeAbsence := submission.authoritativeAbsence, receivedEpoch := epoch, receivedUnixMs := received
      subjects := submission.subjects, digest := FixedBytes.zero }
  { document with digest := computeObservationDigest document }

/-- A report above the generations its reporter has reached. -/
theorem recordObservationAt_on {submission : ObservationSubmission} {stamp : UnixMillis} (hfaults : env.faults = [])
    (hvalid : (validateSubmission submission options.limits).code = .ok) {document : ObservationDocument}
    (hdocument : document = (Engine.on options opening live watermark log es).stampObservation env submission stamp)
    {highest : Option ObservationGeneration}
    (hscan : Engine.scanStream document
      (((tablesAfter options.limits opening.fresh es).observations.find? submission.scope).getD []) none = .ok highest)
    (hnew : ∀ seen, highest = some seen → ¬ submission.generation < seen)
    (hfits : (Event.observationCommit document).Fits options.limits)
    (hundue : Undue options watermark (es.length + 1)) :
    (Engine.on options opening live watermark log es).recordObservationAt env submission stamp =
      (Status.ok, some ⟨false, document⟩, Engine.on options opening live watermark
        (log ++ told [.observationCommit document]) (es ++ [.observationCommit document])) := by
  obtain ⟨hobservation, hscope, hreporter, hsubjects⟩ := validateSubmission_ok hvalid
  have hok : ObservationOk options.limits document := by
    rw [hdocument]
    exact ⟨hobservation, hscope, hreporter, hsubjects, (computeObservationDigest_digest _ _).symm⟩
  have hallowed : (Engine.on options opening live watermark log es).admitObservation env submission stamp =
      .ok document := by
    unfold Engine.admitObservation
    rw [if_neg (by simp [Engine.on, recorded]), ← hdocument]
    have hstream : Engine.scanStream document
        (((Engine.on options opening live watermark log es).store.state.observations.find? submission.scope).getD [])
          none = .ok highest := hscan
    have hgood : ¬ (validateSubmission submission
        (Engine.on options opening live watermark log es).options.limits).code ≠ .ok := not_not.mpr hvalid
    cases highest with
    | none => simp only [hgood, if_false, hstream]
    | some seen => simp only [hgood, if_false, hstream, hnew seen rfl]
  unfold Engine.recordObservationAt DurableStore.commitObservation
  simp only [hallowed, Engine.on_under hfaults]
  rw [recorded_commit "observation" (e := .observationCommit _) hok hfits, if_neg (by simp [Status.ok])]
  rw [Engine.on_maybeCompact (by simpa using hundue)]

theorem newAttempt_ok {limits : RuntimeLimits} (hroom : 1 ≤ limits.maxAttemptTransitions.toNat) {d : Decision}
    (hnamed : d.scope.empty = false ∧ d.subject.empty = false) (live : Incarnation) (now : UnixMillis)
    (next : AttemptId) : AttemptOk limits (Engine.newAttempt live now next d) := by
  refine ⟨?_, by simp [Engine.newAttempt], hroom, hnamed.1, hnamed.2⟩
  show (if next = 0 then 1 else next) ≠ 0
  by_cases hzero : next = 0
  · simp [hzero]
  · rw [if_neg hzero]
    exact hzero

/-- A plan with one action, for a subject that is neither fenced nor under way. -/
theorem dispatch_recorded {plan : ReconciliationPlan} {intent : IntentDocument} {d : Decision}
    (hfaults : env.faults = [])
    (hallowed : (Engine.on options opening live watermark log es).admitPlan plan = .ok intent)
    (hplan : plan.decisions = [d]) (hactionable : d.disposition = .actionable)
    (hopen : fenceHoldsFor (tablesAfter options.limits opening.fresh es) d.scope d.subject live.epoch = false)
    (hnew : Engine.reusable (tablesAfter options.limits opening.fresh es) live.epoch d.idempotencyKey = none)
    {a : AttemptRecord}
    (ha : a = Engine.newAttempt live env.now (tablesAfter options.limits opening.fresh es).nextAttempt d)
    (hok : AttemptOk options.limits a) (hfits : (Event.attemptIssued a).Fits options.limits)
    (hundue : Undue options watermark (es.length + 1)) :
    (Engine.on options opening live watermark log es).dispatch env plan =
      (.ok ⟨[Engine.actionIntent intent a], 0, 0⟩,
        Engine.on options opening live watermark (log ++ told [.attemptIssued a]) (es ++ [.attemptIssued a])) := by
  have hissued : (recorded options.limits opening log es).issueAttempt a =
      (Status.ok, recorded options.limits opening (log ++ told [.attemptIssued a]) (es ++ [.attemptIssued a])) := by
    unfold DurableStore.issueAttempt
    rw [if_neg (by simp [recorded]), if_neg hok.id]
    exact recorded_commit "attempt" (e := .attemptIssued a) hok hfits
  have hloop : Engine.dispatchLoop live env.now intent [d] (recorded options.limits opening log es) {} =
      (.ok ⟨[Engine.actionIntent intent a], 0, 0⟩,
        recorded options.limits opening (log ++ told [.attemptIssued a]) (es ++ [.attemptIssued a])) := by
    unfold Engine.dispatchLoop
    have hfree : fenceHoldsFor (recorded options.limits opening log es).state d.scope d.subject live.epoch = false :=
      hopen
    have hfirst : Engine.reusable (recorded options.limits opening log es).state live.epoch d.idempotencyKey = none :=
      hnew
    have hsame : Engine.newAttempt live env.now (recorded options.limits opening log es).state.nextAttempt d = a :=
      ha.symm
    simp only [hactionable, ne_eq, not_true_eq_false, if_false, hfree, Bool.false_eq_true, hfirst, hsame, hissued,
      Status.ok, Engine.dispatchLoop, List.nil_append]
  unfold Engine.dispatch
  rw [hallowed, hplan]
  simp only [Engine.on_under hfaults]
  rw [show (Engine.on options opening live watermark log es).live = live from rfl, hloop]
  simp only
  rw [Engine.on_maybeCompact (by simpa using hundue)]

/-- A completion that does not end its attempt. -/
theorem complete_moves_recorded {request : CompletionRequest} {a : AttemptRecord} (hfaults : env.faults = [])
    (hallowed : (Engine.on options opening live watermark log es).admitCompletion request = .ok a)
    {moved : AttemptRecord}
    (hmoved : moved =
      a.move options.limits ((Engine.on options opening live watermark log es).completion env request a))
    (hrunning : moved.state.isTerminal = false) (hok : AttemptOk options.limits moved)
    (hfits : (Event.attemptTransition moved).Fits options.limits)
    (hundue : Undue options watermark (es.length + 1)) :
    (Process.up (Engine.on options opening live watermark log es)).step (.call (.complete request) env) =
      (Status.ok, .up (Engine.on options opening live watermark (log ++ told [.attemptTransition moved])
        (es ++ [.attemptTransition moved]))) := by
  have hdone : ((Engine.on options opening live watermark log es).complete env request).1 = Status.ok ∧
      ((Engine.on options opening live watermark log es).complete env request).2.2 =
        Engine.on options opening live watermark (log ++ told [.attemptTransition moved])
          (es ++ [.attemptTransition moved]) := by
    unfold Engine.complete DurableStore.transitionAttempt
    simp only [hallowed]
    rw [show (Engine.on options opening live watermark log es).options = options from rfl, ← hmoved, hrunning,
      Engine.on_under hfaults, recorded_commit "attempt" (e := .attemptTransition moved) hok hfits]
    simp only [Bool.false_eq_true, if_false, Status.ok, ne_eq, not_true_eq_false, true_and]
    exact Engine.on_maybeCompact (by simpa using hundue)
  simp only [Process.step, Engine.call, hdone.1, hdone.2]

/-- A completion that ends its attempt. -/
theorem complete_ends_recorded {request : CompletionRequest} {a : AttemptRecord} (hfaults : env.faults = [])
    (hallowed : (Engine.on options opening live watermark log es).admitCompletion request = .ok a)
    {t : AttemptTransition} (ht : t = (Engine.on options opening live watermark log es).completion env request a)
    {moved : AttemptRecord} (hmoved : moved = a.move options.limits t) (hended : moved.state.isTerminal = true)
    {outcome : ReconciliationOutcome}
    (houtcome : outcome = makeOutcome moved moved.state t.reason moved.state.isInconclusive t.atUnixMs)
    (hok : AttemptOk options.limits moved) (hfits : (Event.attemptTransition moved).Fits options.limits)
    (hok' : OutcomeOk outcome) (hfits' : (Event.outcomeCommit outcome).Fits options.limits)
    (hundue : Undue options watermark (es.length + 2)) :
    (Process.up (Engine.on options opening live watermark log es)).step (.call (.complete request) env) =
      (Status.ok, .up (Engine.on options opening live watermark
        (log ++ told [.attemptTransition moved, .outcomeCommit outcome])
        (es ++ [.attemptTransition moved, .outcomeCommit outcome]))) := by
  have hdone : ((Engine.on options opening live watermark log es).complete env request).1 = Status.ok ∧
      ((Engine.on options opening live watermark log es).complete env request).2.2 =
        Engine.on options opening live watermark (log ++ told [.attemptTransition moved, .outcomeCommit outcome])
          (es ++ [.attemptTransition moved, .outcomeCommit outcome]) := by
    unfold Engine.complete
    simp only [hallowed]
    rw [show (Engine.on options opening live watermark log es).options = options from rfl, ← ht, ← hmoved, hended,
      ← houtcome, Engine.on_under hfaults, recorded_settle moved outcome hok hfits hok' hfits']
    simp only [if_true, Status.ok, ne_eq, not_true_eq_false, if_false, true_and]
    exact Engine.on_maybeCompact (by simpa using hundue)
  simp only [Process.step, Engine.call, hdone.1, hdone.2]

/-- `Verify` accepts the evidence about an attempt, which is thereby settled. -/
theorem verify_recorded {evidence : VerificationEvidence} {a : AttemptRecord} (hfaults : env.faults = [])
    (hallowed : (Engine.on options opening live watermark log es).admitVerification env evidence = .ok a)
    {t : AttemptTransition} (ht : t = (Engine.on options opening live watermark log es).verification env evidence a)
    {moved : AttemptRecord} (hmoved : moved = a.move options.limits t) {outcome : ReconciliationOutcome}
    (houtcome : outcome = { makeOutcome moved t.target t.reason (!evidence.confirmsEffect) t.atUnixMs with
      verifiedGeneration := evidence.generation })
    (hok : AttemptOk options.limits moved) (hfits : (Event.attemptTransition moved).Fits options.limits)
    (hok' : OutcomeOk outcome) (hfits' : (Event.outcomeCommit outcome).Fits options.limits)
    (hundue : Undue options watermark (es.length + 2)) :
    (Engine.on options opening live watermark log es).verify env evidence = (Status.ok, some outcome,
      Engine.on options opening live watermark (log ++ told [.attemptTransition moved, .outcomeCommit outcome])
        (es ++ [.attemptTransition moved, .outcomeCommit outcome])) := by
  unfold Engine.verify
  simp only [hallowed]
  rw [show (Engine.on options opening live watermark log es).options = options from rfl, ← ht, ← hmoved, ← houtcome,
    Engine.on_under hfaults, recorded_settle moved outcome hok hfits hok' hfits', if_neg (by simp [Status.ok]),
    Engine.on_maybeCompact (by simpa using hundue)]

/-- A completion that ends its attempt, and whose outcome does not reach the file. -/
theorem complete_cut_recorded {request : CompletionRequest} {a : AttemptRecord}
    (hfaults : env.faults = [.ok, .shortWrite 0])
    (hallowed : (Engine.on options opening live watermark log es).admitCompletion request = .ok a)
    {t : AttemptTransition} (ht : t = (Engine.on options opening live watermark log es).completion env request a)
    {moved : AttemptRecord} (hmoved : moved = a.move options.limits t) (hended : moved.state.isTerminal = true)
    {outcome : ReconciliationOutcome}
    (houtcome : outcome = makeOutcome moved moved.state t.reason moved.state.isInconclusive t.atUnixMs)
    (hok : AttemptOk options.limits moved) (hfits : (Event.attemptTransition moved).Fits options.limits)
    (hfits' : (Event.outcomeCommit outcome).Fits options.limits) :
    ∃ e, (Process.up (Engine.on options opening live watermark log es)).step (.call (.complete request) env) =
        (shortWriteStatus, .up e) ∧
      e.store.directory = (recorded options.limits opening
        (log ++ told [.attemptTransition moved] ++ [(Event.outcomeCommit outcome).appending false false])
        (es ++ [.attemptTransition moved])).directory := by
  obtain ⟨s, hcut, -, hdirectory⟩ := @recorded_cut options.limits opening (log ++ told [.attemptTransition moved])
    (es ++ [.attemptTransition moved]) (.outcomeCommit outcome) "outcome" hfits'
  have hsettled : { recorded options.limits opening log es with faults := env.faults }.settle moved outcome =
      (shortWriteStatus, s) := by
    unfold DurableStore.settle DurableStore.transitionAttempt DurableStore.commitOutcome
    rw [hfaults, recorded_commit_facing "attempt" (e := .attemptTransition moved) hok hfits rfl,
      if_neg (by simp [Status.ok])]
    exact hcut
  refine ⟨(Engine.on options opening live watermark log es).withStore s, ?_, hdirectory⟩
  have hdone : ((Engine.on options opening live watermark log es).complete env request).1 = shortWriteStatus ∧
      ((Engine.on options opening live watermark log es).complete env request).2.2 =
        (Engine.on options opening live watermark log es).withStore s := by
    have hunder : ((Engine.on options opening live watermark log es).under env).store =
        { recorded options.limits opening log es with faults := env.faults } := rfl
    unfold Engine.complete
    simp only [hallowed]
    rw [show (Engine.on options opening live watermark log es).options = options from rfl, ← ht, ← hmoved, hended,
      ← houtcome, hunder, hsettled]
    simp [shortWriteStatus, integrityFailure]
  simp only [Process.step, Engine.call, hdone.1, hdone.2]

/-- A fence, and the ends of the attempts it fences off. -/
theorem putFence_recorded {fence : FenceEntry} (hfaults : env.faults = []) (hid : fence.id.empty = false)
    (hscope : fence.scope.empty = false) (hbelow : fence.fencedBelow ≠ 0) (hstamp : fence.createdUnixMs ≠ 0)
    (hok : FenceOk fence) (hfits : (Event.fencePut fence).Fits options.limits) {victims : List AttemptRecord}
    (hvictims : Engine.fenceVictims (recorded options.limits opening (log ++ told [.fencePut fence])
      (es ++ [.fencePut fence])).state fence = victims)
    (hended : ∀ a ∈ victims, ∀ e ∈ settling (Engine.fenceAttempt options.limits live fence.createdUnixMs) a,
      e.Ok options.limits ∧ e.Fits options.limits) {ended : List Event}
    (hends : victims.flatMap (settling (Engine.fenceAttempt options.limits live fence.createdUnixMs)) = ended)
    (hundue : Undue options watermark (es ++ [Event.fencePut fence] ++ ended).length) :
    (Process.up (Engine.on options opening live watermark log es)).step (.call (.putFence fence) env) =
      (Status.ok, .up (Engine.on options opening live watermark (log ++ told [.fencePut fence] ++ told ended)
        (es ++ [.fencePut fence] ++ ended))) := by
  have hput : (recorded options.limits opening log es).putFence fence =
      (Status.ok, recorded options.limits opening (log ++ told [.fencePut fence]) (es ++ [.fencePut fence])) :=
    recorded_commit "fence" (e := .fencePut fence) hok hfits
  have hdone : (Engine.on options opening live watermark log es).putFence env fence =
      (Status.ok, Engine.on options opening live watermark (log ++ told [.fencePut fence] ++ told ended)
        (es ++ [.fencePut fence] ++ ended)) := by
    unfold Engine.putFence
    rw [if_neg (by simp [Engine.on, recorded]), if_neg (by simp [hid, hscope]), if_neg hbelow]
    simp only [ne_eq, hstamp, not_false_eq_true, if_true, Engine.on_under hfaults, hput, Status.ok, not_true_eq_false,
      if_false]
    rw [show (Engine.on options opening live watermark log es).live = live from rfl,
      show (Engine.on options opening live watermark log es).options.limits = options.limits from rfl, hvictims,
      recorded_settleAll _ hended, hends]
    simp only [Status.ok, not_true_eq_false, if_false]
    rw [Engine.on_maybeCompact hundue]
  simp only [Process.step, Engine.call, hdone]

end Records

end FabricReconciliation
