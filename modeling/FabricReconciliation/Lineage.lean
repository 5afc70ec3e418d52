import FabricReconciliation.Plan

/-!
# Attempts, outcomes and fences (`lineage.hpp`, `lineage.cpp`, `store.cpp:69-169`)

The lifecycle records and their codecs. A codec equation here says exactly when the decoder
accepts what the encoder wrote:

* **`reads_attempt`** — an attempt is read back if and only if it names an attempt (`AttemptOk`):
  non-zero id, a real state, non-empty scope and subject, no more transitions than the limit;
* **`reads_outcome`** — an outcome is read back if and only if its scope and subject are set;
* **`reads_fence`** — a fence is read back if and only if id and scope are set and its detail
  text is at most four times `kMaxIdentityLength` long.
-/

namespace FabricReconciliation

open Lib

/-! ## Attempt states -/

/-- `AttemptState` (`lineage.hpp:33`). -/
inductive AttemptState
  | invalid | issued | dispatched | acknowledged | applied | verified | failed | abandoned
  | superseded | fenced | interrupted
deriving DecidableEq

instance : Enumeration AttemptState where
  table := [.invalid, .issued, .dispatched, .acknowledged, .applied, .verified, .failed, .abandoned,
    .superseded, .fenced, .interrupted]
  complete a := by cases a <;> decide

namespace AttemptState

/-- `ToText(AttemptState)`. -/
def toText : AttemptState → String
  | invalid => "INVALID"
  | issued => "ISSUED"
  | dispatched => "DISPATCHED"
  | acknowledged => "ACKNOWLEDGED"
  | applied => "APPLIED"
  | verified => "VERIFIED"
  | failed => "FAILED"
  | abandoned => "ABANDONED"
  | superseded => "SUPERSEDED"
  | fenced => "FENCED"
  | interrupted => "INTERRUPTED"

/-- `IsTerminalAttemptState` (`lineage.cpp:43`). -/
def isTerminal : AttemptState → Bool
  | verified | failed | abandoned | superseded | fenced | interrupted => true
  | issued | dispatched | acknowledged | applied | invalid => false

/-- `IsInconclusiveTerminalState` (`lineage.cpp:62`). -/
def isInconclusive : AttemptState → Bool
  | failed | abandoned | superseded | fenced | interrupted => true
  | _ => false

/-- `ReasonOf(AttemptState)` (`lineage.cpp:75`). -/
def reasonOf : AttemptState → ReasonCode
  | issued => .attemptIssued
  | dispatched => .attemptIssued
  | acknowledged => .attemptAcknowledged
  | applied => .attemptApplied
  | verified => .attemptVerified
  | failed => .attemptFailed
  | abandoned => .attemptAbandoned
  | superseded => .attemptSuperseded
  | fenced => .attemptFencedByEpochAdvance
  | interrupted => .attemptInterruptedByRestart
  | invalid => .attemptUnknown

end AttemptState

/-! ## Records -/

/-- `AttemptTransition` (`lineage.hpp:58`). -/
structure AttemptTransition where
  source : AttemptState
  target : AttemptState
  epoch : CoordinatorEpoch
  boot : BootId
  atUnixMs : UnixMillis
  reason : ReasonCode
  verificationReason : ReasonCode
deriving DecidableEq

/-- `AttemptRecord` (`lineage.hpp:71`). -/
structure AttemptRecord where
  id : AttemptId
  idempotencyKey : Digest
  scope : ScopeId
  subject : SubjectId
  action : ActionKind
  epoch : CoordinatorEpoch
  boot : BootId
  authority : AuthorityVector
  state : AttemptState
  issuedUnixMs : UnixMillis
  transitions : List AttemptTransition
deriving DecidableEq

/-- `ReconciliationOutcome` (`lineage.hpp:88`). -/
structure ReconciliationOutcome where
  idempotencyKey : Digest
  scope : ScopeId
  subject : SubjectId
  action : ActionKind
  attempt : AttemptId
  epoch : CoordinatorEpoch
  boot : BootId
  terminalState : AttemptState
  reason : ReasonCode
  committedUnixMs : UnixMillis
  verified : Bool
  verifiedGeneration : ObservationGeneration
  ambiguous : Bool
deriving DecidableEq

/-- `VerificationEvidence` (`lineage.hpp:111`). -/
structure VerificationEvidence where
  scope : ScopeId
  subject : SubjectId
  idempotencyKey : Digest
  observation : ObservationId
  generation : ObservationGeneration
  receivedEpoch : CoordinatorEpoch
  verifier : ReporterId
  applier : ReporterId
  receivedUnixMs : UnixMillis
  confirmsEffect : Bool
deriving DecidableEq

/-- `FenceEntry` (`lineage.hpp:129`); an empty subject fences the whole scope. -/
structure FenceEntry where
  id : FenceId
  scope : ScopeId
  subject : SubjectId
  fencedBelow : CoordinatorEpoch
  reason : ReasonCode
  detail : Bytes
  createdUnixMs : UnixMillis
deriving DecidableEq

/-! ## Attempt codec -/

def encodeTransition (t : AttemptTransition) : Script :=
  putEnum t.source ++ (putEnum t.target ++ (putU64 t.epoch ++ (putBoot t.boot ++
  (putI64 t.atUnixMs ++ (putReason t.reason ++ putReason t.verificationReason)))))

/-- `EncodeAttempt` (`store.cpp:69`). -/
def attemptScript (a : AttemptRecord) : Script :=
  putU64 a.id ++ (putDigest a.idempotencyKey ++ (putBytes a.scope.text ++ (putBytes a.subject.text ++
  (putEnum a.action ++ (putU64 a.epoch ++ (putBoot a.boot ++ (a.authority.encode ++
  (putEnum a.state ++ (putI64 a.issuedUnixMs ++ (putCount a.transitions.length ++
  putEach encodeTransition a.transitions))))))))))

/-- `EncodeAttemptRecord` (`store.cpp:162`). -/
def encodeAttempt (a : AttemptRecord) : Bytes := encoded (attemptScript a)

def decodeTransition : Reader AttemptTransition := do
  let source ← Read.enum AttemptState
  let target ← Read.enum AttemptState
  let epoch ← Read.u64
  let boot ← Read.boot
  let atUnixMs ← Read.i64
  let reason ← Read.reason
  let verification ← Read.reason
  return ⟨source, target, epoch, boot, atUnixMs, reason, verification⟩

/-- `DecodeAttempt` (`store.cpp:96`). -/
def decodeAttempt (limits : RuntimeLimits) : Reader AttemptRecord := do
  let id ← Read.u64
  let key ← Read.digest
  let scopeText ← Read.bytes
  let subjectText ← Read.bytes
  let action ← Read.enum ActionKind
  let epoch ← Read.u64
  let boot ← Read.boot
  let authority ← AuthorityVector.decode
  let state ← Read.enum AttemptState
  let issued ← Read.i64
  let transitions ← Read.u32
  Reader.require (id != 0 && state != .invalid &&
    decide (transitions ≤ limits.maxAttemptTransitions.toNat))
  let scope ← Reader.ofOption (StringId.tryParse scopeText)
  let subject ← Reader.ofOption (StringId.tryParse subjectText)
  let history ← Reader.list transitions decodeTransition
  return ⟨id, key, scope, subject, action, epoch, boot, authority, state, issued, history⟩

/-- The attempts `DecodeAttempt` accepts. -/
structure AttemptOk (limits : RuntimeLimits) (a : AttemptRecord) : Prop where
  id : a.id ≠ 0
  state : a.state ≠ .invalid
  history : a.transitions.length ≤ limits.maxAttemptTransitions.toNat
  scope : a.scope.empty = false
  subject : a.subject.empty = false

instance (limits : RuntimeLimits) (a : AttemptRecord) : Decidable (AttemptOk limits a) :=
  decidable_of_iff (a.id ≠ 0 ∧ a.state ≠ .invalid ∧
      a.transitions.length ≤ limits.maxAttemptTransitions.toNat ∧ a.scope.empty = false ∧
      a.subject.empty = false)
    ⟨fun h => ⟨h.1, h.2.1, h.2.2.1, h.2.2.2.1, h.2.2.2.2⟩,
      fun h => ⟨h.id, h.state, h.history, h.scope, h.subject⟩⟩

theorem total_encodeTransition (t : AttemptTransition) : (encodeTransition t).Total := by
  simp [encodeTransition]

theorem total_attemptScript (a : AttemptRecord) : (attemptScript a).Total := by
  simp [attemptScript, AuthorityVector.total_encode, total_putEach, total_encodeTransition]

theorem reads_transition (t : AttemptTransition) :
    Reads decodeTransition (encodeTransition t).image (some t) := by
  simp only [encodeTransition, Script.image_append]
  refine Reads.bind (reads_enum t.source (by decide)) ?_
  refine Reads.bind (reads_enum t.target (by decide)) ?_
  refine Reads.bind (reads_u64 t.epoch) ?_
  refine Reads.bind (reads_boot t.boot) ?_
  refine Reads.bind (reads_i64 t.atUnixMs) ?_
  refine Reads.bind (reads_reason t.reason) ?_
  exact Reads.bind_end (reads_reason t.verificationReason) (Reads.pure t)

theorem history_length_lt {a : AttemptRecord}
    (hfit : (attemptScript a).image.length ≤ kMaxCanonicalBytes) : a.transitions.length < 4294967296 := by
  have h := length_le_image_putEach (f := encodeTransition) (fun t => by
    simp only [encodeTransition, putEnum, Script.image_append, List.length_append, image_putLE,
      length_leBytes]
    omega) a.transitions
  simp only [attemptScript, Script.image_append, List.length_append, kMaxCanonicalBytes] at hfit
  omega

theorem tryParse_of_empty {tag : IdTag} {id : StringId tag} (h : id.empty = true) :
    (StringId.tryParse id.text : Option (StringId tag)) = none := by
  rw [StringId.empty_iff] at h
  subst h
  exact StringId.tryParse_nil

/-- **`reads_attempt`**: the decoder accepts exactly the attempts that are `AttemptOk`. -/
theorem reads_attempt {limits : RuntimeLimits} {a : AttemptRecord}
    (hfit : (attemptScript a).image.length ≤ kMaxCanonicalBytes) :
    Reads (decodeAttempt limits) (attemptScript a).image (if AttemptOk limits a then some a else none) := by
  have hcount := history_length_lt hfit
  simp only [attemptScript, Script.image_append]
  refine Reads.bind (reads_u64 a.id) ?_
  refine Reads.bind (reads_digest a.idempotencyKey) ?_
  refine Reads.bind (reads_text a.scope) ?_
  refine Reads.bind (reads_text a.subject) ?_
  refine Reads.bind (reads_enum a.action (by decide)) ?_
  refine Reads.bind (reads_u64 a.epoch) ?_
  refine Reads.bind (reads_boot a.boot) ?_
  refine Reads.bind (AuthorityVector.reads_authority a.authority) ?_
  refine Reads.bind (reads_enum a.state (by decide)) ?_
  refine Reads.bind (reads_i64 a.issuedUnixMs) ?_
  refine Reads.bind (reads_count hcount) ?_
  by_cases hhead : a.id ≠ 0 ∧ a.state ≠ .invalid ∧
      a.transitions.length ≤ limits.maxAttemptTransitions.toNat
  · refine Reads.require (by simp [hhead.1, hhead.2.1, hhead.2.2]) ?_
    cases hscope : a.scope.empty with
    | true =>
      rw [if_neg (fun h => by simp [h.scope] at hscope)]
      exact Reads.ofOption_none (tryParse_of_empty hscope)
    | false =>
      refine reads_tryParse hscope ?_
      cases hsubject : a.subject.empty with
      | true =>
        rw [if_neg (fun h => by simp [h.subject] at hsubject)]
        exact Reads.ofOption_none (tryParse_of_empty hsubject)
      | false =>
        refine reads_tryParse hsubject ?_
        rw [if_pos ⟨hhead.1, hhead.2.1, hhead.2.2, hscope, hsubject⟩, image_putEach]
        exact Reads.bind_end (reads_list fun t _ => reads_transition t) (Reads.pure a)
  · rw [if_neg (fun h => hhead ⟨h.id, h.state, h.history⟩)]
    refine Reads.require_false ?_
    simp only [Bool.and_eq_false_iff, bne_eq_false_iff_eq, decide_eq_false_iff_not]
    tauto

theorem decodeAttempt_sound {limits : RuntimeLimits} {bs rest : Bytes} {a : AttemptRecord}
    (h : decodeAttempt limits bs = some (a, rest)) : AttemptOk limits a := by
  unfold decodeAttempt at h
  simp only [Reader.bind_eq, Reader.pure_eq] at h
  iterate 11 obtain ⟨_, _, -, h⟩ := Reader.bind_eq_some.mp h
  obtain ⟨_, _, hreq, h⟩ := Reader.bind_eq_some.mp h
  obtain ⟨hreq, -⟩ := Reader.require_eq_some.mp hreq
  obtain ⟨scope, _, hs, h⟩ := Reader.bind_eq_some.mp h
  obtain ⟨hs, -⟩ := Reader.ofOption_eq_some.mp hs
  obtain ⟨subject, _, hu, h⟩ := Reader.bind_eq_some.mp h
  obtain ⟨hu, -⟩ := Reader.ofOption_eq_some.mp hu
  obtain ⟨history, _, hh, h⟩ := Reader.bind_eq_some.mp h
  obtain ⟨rfl, -⟩ := Reader.pure_eq_some.mp h
  obtain ⟨hlen, -⟩ := list_sound (P := fun _ => True) (fun _ _ _ _ => trivial) hh
  simp only [Bool.and_eq_true, bne_iff_ne, decide_eq_true_eq] at hreq
  exact ⟨hreq.1.1, hreq.1.2, hlen ▸ hreq.2, (StringId.tryParse_eq_some hs).2,
    (StringId.tryParse_eq_some hu).2⟩

/-! ## Outcome codec -/

/-- The writes of `EncodeOutcome`. -/
def outcomeScript (o : ReconciliationOutcome) : Script :=
  putDigest o.idempotencyKey ++ (putBytes o.scope.text ++ (putBytes o.subject.text ++
  (putEnum o.action ++ (putU64 o.attempt ++ (putU64 o.epoch ++ (putBoot o.boot ++
  (putEnum o.terminalState ++ (putReason o.reason ++ (putI64 o.committedUnixMs ++
  (putBool o.verified ++ (putU64 o.verifiedGeneration ++ putBool o.ambiguous)))))))))))

/-- `EncodeOutcome` (`lineage.cpp:150`). -/
def encodeOutcome (o : ReconciliationOutcome) : Bytes := encoded (outcomeScript o)

/-- `DecodeOutcome` (`lineage.cpp:173`). -/
def decodeOutcome : Reader ReconciliationOutcome := do
  let key ← Read.digest
  let scopeText ← Read.bytes
  let subjectText ← Read.bytes
  let action ← Read.enum ActionKind
  let attempt ← Read.u64
  let epoch ← Read.u64
  let boot ← Read.boot
  let terminal ← Read.enum AttemptState
  let reason ← Read.reason
  let committed ← Read.i64
  let verified ← Read.bool
  let verifiedGeneration ← Read.u64
  let ambiguous ← Read.bool
  let scope ← Reader.ofOption (StringId.tryParse scopeText)
  let subject ← Reader.ofOption (StringId.tryParse subjectText)
  return ⟨key, scope, subject, action, attempt, epoch, boot, terminal, reason, committed, verified,
    verifiedGeneration, ambiguous⟩

/-- The outcomes `DecodeOutcome` accepts. -/
structure OutcomeOk (o : ReconciliationOutcome) : Prop where
  scope : o.scope.empty = false
  subject : o.subject.empty = false

instance (o : ReconciliationOutcome) : Decidable (OutcomeOk o) :=
  decidable_of_iff (o.scope.empty = false ∧ o.subject.empty = false)
    ⟨fun h => ⟨h.1, h.2⟩, fun h => ⟨h.scope, h.subject⟩⟩

theorem total_outcomeScript (o : ReconciliationOutcome) : (outcomeScript o).Total := by
  simp [outcomeScript]

/-- **`reads_outcome`**. -/
theorem reads_outcome (o : ReconciliationOutcome) :
    Reads decodeOutcome (outcomeScript o).image (if OutcomeOk o then some o else none) := by
  simp only [outcomeScript, Script.image_append]
  refine Reads.bind (reads_digest o.idempotencyKey) ?_
  refine Reads.bind (reads_text o.scope) ?_
  refine Reads.bind (reads_text o.subject) ?_
  refine Reads.bind (reads_enum o.action (by decide)) ?_
  refine Reads.bind (reads_u64 o.attempt) ?_
  refine Reads.bind (reads_u64 o.epoch) ?_
  refine Reads.bind (reads_boot o.boot) ?_
  refine Reads.bind (reads_enum o.terminalState (by decide)) ?_
  refine Reads.bind (reads_reason o.reason) ?_
  refine Reads.bind (reads_i64 o.committedUnixMs) ?_
  refine Reads.bind (reads_bool o.verified) ?_
  refine Reads.bind (reads_u64 o.verifiedGeneration) ?_
  refine Reads.bind_end (reads_bool o.ambiguous) ?_
  cases hscope : o.scope.empty with
  | true =>
    rw [if_neg (fun h => by simp [h.scope] at hscope)]
    exact Reads.ofOption_none (tryParse_of_empty hscope)
  | false =>
    refine reads_tryParse hscope ?_
    cases hsubject : o.subject.empty with
    | true =>
      rw [if_neg (fun h => by simp [h.subject] at hsubject)]
      exact Reads.ofOption_none (tryParse_of_empty hsubject)
    | false =>
      rw [if_pos ⟨hscope, hsubject⟩]
      exact reads_tryParse hsubject (Reads.pure o)

theorem decodeOutcome_sound {bs rest : Bytes} {o : ReconciliationOutcome}
    (h : decodeOutcome bs = some (o, rest)) : OutcomeOk o := by
  unfold decodeOutcome at h
  simp only [Reader.bind_eq, Reader.pure_eq] at h
  iterate 13 obtain ⟨_, _, -, h⟩ := Reader.bind_eq_some.mp h
  obtain ⟨scope, _, hs, h⟩ := Reader.bind_eq_some.mp h
  obtain ⟨hs, -⟩ := Reader.ofOption_eq_some.mp hs
  obtain ⟨subject, _, hu, h⟩ := Reader.bind_eq_some.mp h
  obtain ⟨hu, -⟩ := Reader.ofOption_eq_some.mp hu
  obtain ⟨rfl, -⟩ := Reader.pure_eq_some.mp h
  exact ⟨(StringId.tryParse_eq_some hs).2, (StringId.tryParse_eq_some hu).2⟩

/-! ## Fence codec -/

/-- The writes of `EncodeFence`. -/
def fenceScript (f : FenceEntry) : Script :=
  putBytes f.id.text ++ (putBytes f.scope.text ++ (putBytes f.subject.text ++ (putU64 f.fencedBelow ++
  (putReason f.reason ++ (putBytes f.detail ++ putI64 f.createdUnixMs)))))

/-- `EncodeFence` (`lineage.cpp:93`). -/
def encodeFence (f : FenceEntry) : Bytes := encoded (fenceScript f)

/-- `DecodeFence` (`lineage.cpp:108`). -/
def decodeFence : Reader FenceEntry := do
  let idText ← Read.bytes
  let scopeText ← Read.bytes
  let subjectText ← Read.bytes
  let fencedBelow ← Read.u64
  let reason ← Read.reason
  let detail ← Read.bytes
  let created ← Read.i64
  let id ← Reader.ofOption (StringId.tryParse idText)
  let scope ← Reader.ofOption (StringId.tryParse scopeText)
  let subject ← Reader.ofOption (StringId.parseOrEmpty subjectText)
  Reader.require (decide (detail.length ≤ kMaxIdentityLength * 4))
  return ⟨id, scope, subject, fencedBelow, reason, detail, created⟩

/-- The fences `DecodeFence` accepts. -/
structure FenceOk (f : FenceEntry) : Prop where
  id : f.id.empty = false
  scope : f.scope.empty = false
  detail : f.detail.length ≤ kMaxIdentityLength * 4

instance (f : FenceEntry) : Decidable (FenceOk f) :=
  decidable_of_iff (f.id.empty = false ∧ f.scope.empty = false ∧ f.detail.length ≤ kMaxIdentityLength * 4)
    ⟨fun h => ⟨h.1, h.2.1, h.2.2⟩, fun h => ⟨h.id, h.scope, h.detail⟩⟩

/-- **`reads_fence`**. -/
theorem reads_fence {f : FenceEntry} (ht : (fenceScript f).Total)
    (hfit : (fenceScript f).image.length ≤ kMaxCanonicalBytes) :
    Reads decodeFence (fenceScript f).image (if FenceOk f then some f else none) := by
  have hdetail : f.detail.length ≤ kMaxCanonicalBytes := by
    have h32 : f.detail.length < 2 ^ 32 := by
      simp only [fenceScript, Script.total_append, total_putBytes] at ht
      exact ht.2.2.2.2.2.1
    simp only [fenceScript, Script.image_append, List.length_append, image_putBytes h32,
      length_prefixed] at hfit
    omega
  simp only [fenceScript, Script.image_append]
  refine Reads.bind (reads_text f.id) ?_
  refine Reads.bind (reads_text f.scope) ?_
  refine Reads.bind (reads_text f.subject) ?_
  refine Reads.bind (reads_u64 f.fencedBelow) ?_
  refine Reads.bind (reads_reason f.reason) ?_
  refine Reads.bind (reads_bytes hdetail) ?_
  refine Reads.bind_end (reads_i64 f.createdUnixMs) ?_
  cases hid : f.id.empty with
  | true =>
    rw [if_neg (fun h => by simp [h.id] at hid)]
    exact Reads.ofOption_none (tryParse_of_empty hid)
  | false =>
    refine reads_tryParse hid ?_
    cases hscope : f.scope.empty with
    | true =>
      rw [if_neg (fun h => by simp [h.scope] at hscope)]
      exact Reads.ofOption_none (tryParse_of_empty hscope)
    | false =>
      refine reads_tryParse hscope ?_
      refine reads_parseOrEmpty ?_
      by_cases hlen : f.detail.length ≤ kMaxIdentityLength * 4
      · rw [if_pos ⟨hid, hscope, hlen⟩]
        exact Reads.require (by simpa using hlen) (Reads.pure f)
      · rw [if_neg (fun h => hlen h.detail)]
        exact Reads.require_false (by simpa using hlen)

theorem decodeFence_sound {bs rest : Bytes} {f : FenceEntry} (h : decodeFence bs = some (f, rest)) :
    FenceOk f := by
  unfold decodeFence at h
  simp only [Reader.bind_eq, Reader.pure_eq] at h
  iterate 7 obtain ⟨_, _, -, h⟩ := Reader.bind_eq_some.mp h
  obtain ⟨id, _, hi, h⟩ := Reader.bind_eq_some.mp h
  obtain ⟨hi, -⟩ := Reader.ofOption_eq_some.mp hi
  obtain ⟨scope, _, hs, h⟩ := Reader.bind_eq_some.mp h
  obtain ⟨hs, -⟩ := Reader.ofOption_eq_some.mp hs
  obtain ⟨subject, _, -, h⟩ := Reader.bind_eq_some.mp h
  obtain ⟨_, _, hd, h⟩ := Reader.bind_eq_some.mp h
  obtain ⟨hd, -⟩ := Reader.require_eq_some.mp hd
  obtain ⟨rfl, -⟩ := Reader.pure_eq_some.mp h
  exact ⟨(StringId.tryParse_eq_some hi).2, (StringId.tryParse_eq_some hs).2, by simpa using hd⟩

end FabricReconciliation
