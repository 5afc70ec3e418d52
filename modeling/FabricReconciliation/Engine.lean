import Mathlib.Data.List.Sort
import FabricReconciliation.Planner
import FabricReconciliation.Store

/-!
# The reconciliation engine (`engine.hpp`, `engine.cpp`)

Every call runs under the engine's mutex, so a call is one function from the engine to the engine.
`CallEnv` supplies what the outside decides during one call: clock readings, the fate of the appends
and of a compaction. Statistics, the boot report and the read-only queries are left out.
-/

namespace FabricReconciliation

open Lib

/-- `EngineOptions` (`engine.hpp:34`); the directory is an argument of `Process.step`. -/
structure EngineOptions where
  limits : RuntimeLimits := {}
  createIfMissing : Bool := true
  readOnly : Bool := false
  initialPolicy : ReconciliationPolicy := {}
  installInitialPolicy : Bool := true
  autoCompactAfterRecords : UInt64 := 8192
deriving DecidableEq

/-- The environment of one call: the first and second clock reading, the outcome of each append, and
the outcome of a compaction with its own two readings. -/
structure CallEnv where
  now : UnixMillis := 0
  later : UnixMillis := 0
  faults : List WriteIo := []
  io : CompactIo := {}
  snapshotNow : UnixMillis := 0
  headerNow : UnixMillis := 0
deriving DecidableEq

/-- `ReconciliationEngine`. -/
structure Engine where
  options : EngineOptions
  store : DurableStore
  live : Incarnation
  compactionWatermark : RecordSequence
deriving DecidableEq

/-- `CompletionRequest` (`engine.hpp:87`); its detail text is never read. -/
structure CompletionRequest where
  attempt : AttemptId
  epoch : CoordinatorEpoch
  boot : BootId
  idempotencyKey : Digest
  target : AttemptState
  atUnixMs : UnixMillis
  reason : ReasonCode
deriving DecidableEq

/-- `IntentCommitResult`. -/
structure IntentCommitResult where
  duplicate : Bool
  generation : IntentGeneration
  digest : Digest
deriving DecidableEq

/-- `ObservationCommitResult`. -/
structure ObservationCommitResult where
  duplicate : Bool
  stamped : ObservationDocument
deriving DecidableEq

/-- `DispatchResult`; `superseded` is never counted. -/
structure DispatchResult where
  intents : List ActionIntent := []
  fenced : Nat := 0
  alreadyIssued : Nat := 0
deriving DecidableEq

/-! ## The attempt lifecycle -/

/-- `TransitionLegal` (`engine.cpp:15`). -/
def transitionLegal (source target : AttemptState) : Bool :=
  match source with
  | .issued => match target with
    | .dispatched | .acknowledged | .applied | .failed | .abandoned | .superseded | .fenced | .interrupted => true
    | _ => false
  | .dispatched => match target with
    | .acknowledged | .applied | .failed | .abandoned | .superseded | .fenced | .interrupted => true
    | _ => false
  | .acknowledged => match target with
    | .applied | .failed | .abandoned | .superseded | .fenced | .interrupted => true
    | _ => false
  | .applied => match target with
    | .verified | .failed | .fenced | .interrupted => true
    | _ => false
  | _ => false

/-- Records a transition; a full history loses its oldest entry. (`erase(begin())` on an empty history
would be undefined; no stored attempt has one.) -/
def AttemptRecord.move (limits : RuntimeLimits) (a : AttemptRecord) (t : AttemptTransition) : AttemptRecord :=
  { a with
    state := t.target
    transitions := (if limits.maxAttemptTransitions.toNat ≤ a.transitions.length then a.transitions.tail
      else a.transitions) ++ [t] }

/-- `MakeOutcome` (`engine.cpp:911`). -/
def makeOutcome (a : AttemptRecord) (state : AttemptState) (reason : ReasonCode) (ambiguous : Bool)
    (now : UnixMillis) : ReconciliationOutcome where
  idempotencyKey := a.idempotencyKey
  scope := a.scope
  subject := a.subject
  action := a.action
  attempt := a.id
  epoch := a.epoch
  boot := a.boot
  terminalState := state
  reason := reason
  committedUnixMs := now
  verified := decide (state = .verified)
  verifiedGeneration := 0
  ambiguous := ambiguous

/-- An attempt's new record, then its outcome; stops at the first failure. -/
def DurableStore.settle (s : DurableStore) (a : AttemptRecord) (outcome : ReconciliationOutcome) :
    Status × DurableStore :=
  let recorded := s.transitionAttempt a
  if recorded.1.code ≠ .ok then recorded else recorded.2.commitOutcome outcome

/-- The loops of `CommitRestartFencing` and `PutFence` over the attempts they end. -/
def DurableStore.settleAll (ending : AttemptRecord → AttemptRecord × ReconciliationOutcome) :
    List AttemptRecord → DurableStore → Status × DurableStore
  | [], s => (Status.ok, s)
  | a :: rest, s =>
    let settled := s.settle (ending a).1 (ending a).2
    if settled.1.code ≠ .ok then settled else settleAll ending rest settled.2

/-- `std::sort` by identity. -/
def sortById (attempts : List AttemptRecord) : List AttemptRecord :=
  attempts.insertionSort fun a b => a.id ≤ b.id

/-! ## Boot -/

/-- The end of an attempt at a restart: one that was dispatched may have had an effect. -/
def AttemptRecord.interrupt (limits : RuntimeLimits) (live : Incarnation) (now : UnixMillis) (a : AttemptRecord) :
    AttemptRecord × ReconciliationOutcome :=
  let mayHaveEffected := decide (a.state ≠ .issued)
  let target : AttemptState := if mayHaveEffected then .interrupted else .abandoned
  let reason : ReasonCode := if mayHaveEffected then .attemptInterruptedByRestart else .attemptAbandoned
  let transition : AttemptTransition := ⟨a.state, target, live.epoch, live.boot, now, reason, .none⟩
  let ended := { a with
    state := target
    transitions := if a.transitions.length < limits.maxAttemptTransitions.toNat then
      a.transitions ++ [transition] else a.transitions }
  (ended, makeOutcome ended target reason mayHaveEffected now)

/-- `CommitRestartFencing` (`engine.cpp:163`). -/
def commitRestartFencing (limits : RuntimeLimits) (live : Incarnation) (now : UnixMillis) (s : DurableStore) :
    Status × DurableStore :=
  s.settleAll (AttemptRecord.interrupt limits live now)
    (sortById (s.state.attempts.values.filter fun a => !a.state.isTerminal))

/-- The first part of a writable boot: a store without a policy gets one. -/
def installPolicy (options : EngineOptions) (s : DurableStore) : Status × DurableStore :=
  if s.state.hasPolicy then (Status.ok, s)
  else if !options.installInitialPolicy then
    (⟨.preconditionFailed, .noIntentForScope, "store has no policy and no initial policy was supplied"⟩, s)
  else match canonicalisePolicy
      (if options.initialPolicy.id.empty then defaultPolicy else options.initialPolicy) options.limits with
    | .error status => (status, s)
    | .ok policy => s.putPolicy policy

/-- `Boot` behind the opened store (`engine.cpp:72`). A failure leaves the store as it is then. -/
def Engine.start (options : EngineOptions) (boot : BootId) (env : CallEnv) (opened : DurableStore) :
    Except (Status × DurableStore) Engine :=
  if options.readOnly then
    .ok ⟨options, opened, ⟨opened.state.lastEpoch, boot⟩, opened.state.sequence⟩
  else
    let installed := installPolicy options { opened with faults := env.faults }
    if installed.1.code ≠ .ok then .error installed
    else
      let next := installed.2.state.lastEpoch + 1
      let advanced := installed.2.advanceEpoch next
      if advanced.1.code ≠ .ok then .error advanced
      else
        let fenced := commitRestartFencing options.limits ⟨next, boot⟩ env.now advanced.2
        if fenced.1.code ≠ .ok then .error fenced
        else .ok ⟨options, fenced.2, ⟨next, boot⟩, fenced.2.state.sequence⟩

/-! ## Calls -/

namespace Engine

def readOnlyStatus : Status := ⟨.preconditionFailed, .durableWriteFailed, "engine is read-only"⟩

/-- The engine as a call finds it: the coming appends are those of this call. -/
def under (e : Engine) (env : CallEnv) : Engine := { e with store := { e.store with faults := env.faults } }

def withStore (e : Engine) (s : DurableStore) : Engine := { e with store := s }

/-- `MaybeCompactLocked` (`engine.cpp:1277`). -/
def maybeCompact (e : Engine) (env : CallEnv) : Engine :=
  if e.options.autoCompactAfterRecords = 0 then e
  else if e.store.state.sequence - e.compactionWatermark < e.options.autoCompactAfterRecords then e
  else
    let done := e.store.compact env.io env.snapshotNow env.headerNow
    if done.1.code = .ok then { e with store := done.2, compactionWatermark := done.2.state.sequence }
    else e.withStore done.2

/-- `Compact` (`engine.cpp:1257`). -/
def compact (e : Engine) (env : CallEnv) : Status × Engine :=
  if e.store.readOnly then (readOnlyStatus, e)
  else
    let done := e.store.compact env.io env.snapshotNow env.headerNow
    if done.1.code = .ok then
      (done.1, { e with store := done.2, compactionWatermark := done.2.state.sequence })
    else (done.1, e.withStore done.2)

/-- What `PutPolicy` decides before it writes: an early answer, or the canonical policy. -/
def admitPolicy (e : Engine) (policy : ReconciliationPolicy) (allowSameVersion : Bool) :
    Except Status ReconciliationPolicy :=
  if e.store.readOnly then .error readOnlyStatus
  else match canonicalisePolicy policy e.options.limits with
    | .error status => .error status
    | .ok canonical =>
      let current := e.store.state.policy
      if e.store.state.hasPolicy && decide (canonical.version < current.version) then
        .error ⟨.conflictState, .intentGenerationRegressed, "policy version must not regress"⟩
      else if e.store.state.hasPolicy && decide (canonical.version = current.version) then
        if allowSameVersion && decide (computePolicyDigest canonical = computePolicyDigest current) then
          .error (Status.okWith .duplicateIntentIdentical)
        else
          .error ⟨.conflictState, .conflictingRepublishers, "policy version already exists with different content"⟩
      else .ok canonical

/-- `PutPolicy` (`engine.cpp:258`). -/
def putPolicy (e : Engine) (env : CallEnv) (policy : ReconciliationPolicy) (allowSameVersion : Bool) :
    Status × Engine :=
  match e.admitPolicy policy allowSameVersion with
  | .error status => (status, e)
  | .ok canonical =>
    let done := (e.under env).store.putPolicy canonical
    (done.1, e.withStore done.2)

/-- What `CommitIntent` decides before it writes. -/
def admitIntent (e : Engine) (document : IntentDocument) : Except (Status × Option IntentCommitResult) IntentDocument :=
  if e.store.readOnly then .error (readOnlyStatus, none)
  else
    let valid := validateIntent document e.options.limits
    if valid.code ≠ .ok then .error (valid, none)
    else
      let candidate := { document with digest := computeIntentDigest document }
      let out : IntentCommitResult := ⟨false, candidate.generation, candidate.digest⟩
      match e.store.state.intents.find? candidate.scope with
      | none => .ok candidate
      | some existing =>
        if candidate.generation < existing.generation then
          .error (⟨.rejected, .intentGenerationRegressed, "intent generation is older than the committed intent"⟩,
            some out)
        else if candidate.generation = existing.generation then
          if candidate.digest = existing.digest then
            .error (Status.okWith .duplicateIntentIdentical, some { out with duplicate := true })
          else
            .error (⟨.conflictState, .conflictingRepublishers,
              "intent generation already committed with different content"⟩, some out)
        else .ok candidate

/-- `CommitIntent` (`engine.cpp:296`). -/
def commitIntent (e : Engine) (env : CallEnv) (document : IntentDocument) :
    Status × Option IntentCommitResult × Engine :=
  match e.admitIntent document with
  | .error (status, out) => (status, out, e)
  | .ok candidate =>
    let out : IntentCommitResult := ⟨false, candidate.generation, candidate.digest⟩
    let done := (e.under env).store.commitIntent candidate
    if done.1.code ≠ .ok then (done.1, some out, e.withStore done.2)
    else (Status.ok, some out, (e.withStore done.2).maybeCompact env)

/-- The document `RecordObservationAt` stamps. -/
def stampObservation (e : Engine) (env : CallEnv) (submission : ObservationSubmission) (stampUnixMs : UnixMillis) :
    ObservationDocument :=
  let document : ObservationDocument :=
    { observation := submission.observation, scope := submission.scope, reporter := submission.reporter
      generation := submission.generation, evidence := submission.evidence, complete := submission.complete
      authoritativeAbsence := submission.authoritativeAbsence, receivedEpoch := e.live.epoch
      receivedUnixMs := if stampUnixMs ≠ 0 then stampUnixMs else env.now
      subjects := submission.subjects, digest := FixedBytes.zero }
  { document with digest := computeObservationDigest document }

/-- The scan over the retained stream of a scope: an early answer for a repeated identity, else the
highest generation the reporter has reached. -/
def scanStream (document : ObservationDocument) : List ObservationDocument → Option ObservationGeneration →
    Except (Status × ObservationDocument) (Option ObservationGeneration)
  | [], highest => .ok highest
  | retained :: rest, highest =>
    if retained.reporter ≠ document.reporter then scanStream document rest highest
    else if retained.observation = document.observation ∧ retained.generation = document.generation then
      if retained.digest = document.digest then
        .error (Status.okWith .duplicateObservationIdentical, retained)
      else
        .error (⟨.conflictState, .conflictingRepublishers,
          "observation identity and generation already recorded with other content"⟩, document)
    else scanStream document rest (match highest with
      | none => some retained.generation
      | some seen => some (if seen < retained.generation then retained.generation else seen))

/-- What `RecordObservationAt` decides before it writes. -/
def admitObservation (e : Engine) (env : CallEnv) (submission : ObservationSubmission)
    (stampUnixMs : UnixMillis) : Except (Status × Option ObservationCommitResult) ObservationDocument :=
  if e.store.readOnly then .error (readOnlyStatus, none)
  else
    let valid := validateSubmission submission e.options.limits
    if valid.code ≠ .ok then .error (valid, none)
    else
      let document := e.stampObservation env submission stampUnixMs
      match scanStream document ((e.store.state.observations.find? submission.scope).getD []) none with
      | .error (status, stamped) =>
        .error (status, some ⟨decide (status.code = .ok), stamped⟩)
      | .ok (some highest) =>
        if submission.generation < highest then
          .error (⟨.rejected, .observationGenerationRegressed,
            "observation generation is older than the recorded stream"⟩, some ⟨false, document⟩)
        else .ok document
      | .ok none => .ok document

/-- `RecordObservationAt` (`engine.cpp:341`); `RecordObservation` passes the stamp zero. -/
def recordObservationAt (e : Engine) (env : CallEnv) (submission : ObservationSubmission)
    (stampUnixMs : UnixMillis) : Status × Option ObservationCommitResult × Engine :=
  match e.admitObservation env submission stampUnixMs with
  | .error (status, out) => (status, out, e)
  | .ok document =>
    let done := (e.under env).store.commitObservation document
    if done.1.code ≠ .ok then (done.1, some ⟨false, document⟩, e.withStore done.2)
    else (Status.ok, some ⟨false, document⟩, (e.withStore done.2).maybeCompact env)

/-- `Plan` (`engine.cpp:473`). -/
def plan (e : Engine) (env : CallEnv) (request : PlanRequest) : Except Status ReconciliationPlan :=
  buildPlan e.options.limits e.store.state e.live request env.now

/-! Dispatch -/

/-- The re-checks of `Dispatch` (`engine.cpp:779-823`): the plan's authority still binds. -/
def admitPlan (e : Engine) (plan : ReconciliationPlan) : Except Status IntentDocument :=
  let s := e.store.state
  if e.store.readOnly then .error readOnlyStatus
  else if plan.epoch ≠ e.live.epoch ∨ plan.boot ≠ e.live.boot then
    .error ⟨.staleAuthority, .authorityEpochMismatch, "plan was built by a different incarnation or epoch"⟩
  else if !s.hasPolicy then .error ⟨.preconditionFailed, .noIntentForScope, "store holds no policy"⟩
  else if plan.policyDigest ≠ computePolicyDigest s.policy then
    .error ⟨.staleAuthority, .authorityPolicyMismatch, "active policy changed since the plan was built"⟩
  else match s.intents.find? plan.scope with
    | none => .error staleIntent
    | some intent =>
      if intent.generation ≠ plan.intentGeneration ∨ intent.digest ≠ plan.intentDigest then .error staleIntent
      else match (selectCurrentObservation (observationCandidates s plan.scope)).selected with
        | none => .error staleObservation
        | some selected =>
          if selected.observation ≠ plan.observation ∨ selected.generation ≠ plan.observationGeneration ∨
              selected.digest ≠ plan.observationDigest then .error staleObservation
          else .ok intent
where
  staleIntent : Status := ⟨.staleAuthority, .authorityIntentGenerationMismatch,
    "committed intent changed since the plan was built"⟩
  staleObservation : Status := ⟨.staleAuthority, .authorityObservationGenerationMismatch,
    "the observation the plan was built against is no longer the current evidence"⟩

/-- The first in-flight attempt of this epoch with the key. -/
def reusable (s : DurableState) (epoch : CoordinatorEpoch) (key : Digest) : Option AttemptRecord :=
  s.attempts.values.find? fun a => a.idempotencyKey = key && a.epoch = epoch && !a.state.isTerminal

/-- The attempt issued for a decision. -/
def newAttempt (live : Incarnation) (now : UnixMillis) (next : AttemptId) (d : Decision) : AttemptRecord where
  id := if next = 0 then 1 else next
  idempotencyKey := d.idempotencyKey
  scope := d.scope
  subject := d.subject
  action := d.action
  epoch := live.epoch
  boot := live.boot
  authority := d.authority
  state := .dispatched
  issuedUnixMs := now
  transitions := [⟨.issued, .dispatched, live.epoch, live.boot, now, .attemptIssued, .none⟩]

/-- The action intent of an attempt, with what the committed intent declares for its subject. -/
def actionIntent (intent : IntentDocument) (a : AttemptRecord) : ActionIntent where
  scope := a.scope
  subject := a.subject
  action := a.action
  desired := match intent.subjects.find? a.subject with
    | none => OrdMap.empty
    | some declared => declared.desired
  expectedObserved := OrdMap.empty
  authority := a.authority
  idempotencyKey := a.idempotencyKey
  attempt := a.id
  epoch := a.epoch
  boot := a.boot
  issuedUnixMs := a.issuedUnixMs

/-- The loop of `Dispatch` over the decisions (`engine.cpp:825-907`). -/
def dispatchLoop (live : Incarnation) (now : UnixMillis) (intent : IntentDocument) :
    List Decision → DurableStore → DispatchResult → Except Status DispatchResult × DurableStore
  | [], s, result => (.ok result, s)
  | d :: rest, s, result =>
    if d.disposition ≠ .actionable then dispatchLoop live now intent rest s result
    else if fenceHoldsFor s.state d.scope d.subject live.epoch then
      dispatchLoop live now intent rest s { result with fenced := result.fenced + 1 }
    else match reusable s.state live.epoch d.idempotencyKey with
      | some existing =>
        dispatchLoop live now intent rest s { result with
          intents := result.intents ++ [actionIntent intent existing]
          alreadyIssued := result.alreadyIssued + 1 }
      | none =>
        let attempt := newAttempt live now s.state.nextAttempt d
        let issued := s.issueAttempt attempt
        if issued.1.code ≠ .ok then (.error issued.1, issued.2)
        else dispatchLoop live now intent rest issued.2
          { result with intents := result.intents ++ [actionIntent intent attempt] }

/-- `Dispatch` (`engine.cpp:777`). -/
def dispatch (e : Engine) (env : CallEnv) (plan : ReconciliationPlan) : Except Status DispatchResult × Engine :=
  match e.admitPlan plan with
  | .error status => (.error status, e)
  | .ok intent =>
    match dispatchLoop e.live env.now intent plan.decisions (e.under env).store {} with
    | (.error status, s) => (.error status, e.withStore s)
    | (.ok result, s) => (.ok result, (e.withStore s).maybeCompact env)

/-! Completion and verification -/

/-- The checks of `Complete` (`engine.cpp:931-970`). -/
def admitCompletion (e : Engine) (request : CompletionRequest) : Except Status AttemptRecord :=
  if e.store.readOnly then .error readOnlyStatus
  else match e.store.state.attempts.find? request.attempt with
    | none => .error ⟨.notFound, .attemptUnknown, "no such attempt in the retained lineage"⟩
    | some a =>
      if a.idempotencyKey ≠ request.idempotencyKey then
        .error ⟨.rejected, .attemptUnknown,
          "completion carries an idempotency key that does not match the attempt"⟩
      else if request.epoch ≠ e.live.epoch ∨ request.boot ≠ e.live.boot then
        .error ⟨.staleAuthority, .attemptFencedByEpochAdvance,
          "completion was reported under an epoch or boot identity that is not current"⟩
      else if a.epoch ≠ e.live.epoch ∨ a.boot ≠ e.live.boot then
        .error ⟨.staleAuthority, .attemptFencedByEpochAdvance,
          "attempt belongs to a previous incarnation and is fenced"⟩
      else if a.state.isTerminal then
        .error ⟨.conflictState, .attemptTerminalAlready,
          "attempt already reached a terminal state; the completion is ignored"⟩
      else if !transitionLegal a.state request.target then
        .error ⟨.rejected, .attemptTransitionIllegal,
          "illegal transition from " ++ a.state.toText ++ " to " ++ request.target.toText⟩
      else .ok a

/-- The transition a completion records. -/
def completion (e : Engine) (env : CallEnv) (request : CompletionRequest) (a : AttemptRecord) : AttemptTransition :=
  ⟨a.state, request.target, e.live.epoch, e.live.boot,
    if request.atUnixMs ≠ 0 then request.atUnixMs else env.now,
    if request.reason ≠ .none then request.reason else request.target.reasonOf, .none⟩

/-- `Complete` (`engine.cpp:931`). -/
def complete (e : Engine) (env : CallEnv) (request : CompletionRequest) :
    Status × Option ReconciliationOutcome × Engine :=
  match e.admitCompletion request with
  | .error status => (status, none, e)
  | .ok a =>
    let t := e.completion env request a
    let moved := a.move e.options.limits t
    if moved.state.isTerminal then
      let outcome := makeOutcome moved moved.state t.reason moved.state.isInconclusive t.atUnixMs
      let done := (e.under env).store.settle moved outcome
      if done.1.code ≠ .ok then (done.1, none, e.withStore done.2)
      else (Status.ok, some outcome, (e.withStore done.2).maybeCompact env)
    else
      let done := (e.under env).store.transitionAttempt moved
      if done.1.code ≠ .ok then (done.1, none, e.withStore done.2)
      else (Status.ok, some (makeOutcome moved moved.state t.reason false t.atUnixMs),
        (e.withStore done.2).maybeCompact env)

/-- The retained observation the evidence cites. -/
def citedObservation (s : DurableState) (evidence : VerificationEvidence) : Option ObservationDocument :=
  ((s.observations.find? evidence.scope).getD []).find? fun d =>
    d.observation = evidence.observation && d.generation = evidence.generation && d.reporter = evidence.verifier

/-- The checks of `Verify` (`engine.cpp:1008-1085`). -/
def admitVerification (e : Engine) (env : CallEnv) (evidence : VerificationEvidence) : Except Status AttemptRecord :=
  let s := e.store.state
  if e.store.readOnly then .error readOnlyStatus
  else match s.attempts.values.find? fun a => a.idempotencyKey = evidence.idempotencyKey with
    | none => .error ⟨.notFound, .attemptUnknown, "no attempt matches the supplied idempotency key"⟩
    | some a =>
      if a.scope ≠ evidence.scope ∨ a.subject ≠ evidence.subject then
        .error ⟨.rejected, .attemptUnknown, "verification evidence names a different subject"⟩
      else if a.epoch ≠ e.live.epoch ∨ a.boot ≠ e.live.boot then
        .error ⟨.staleAuthority, .attemptFencedByEpochAdvance,
          "attempt belongs to a previous incarnation and cannot be verified"⟩
      else if a.state ≠ .applied then
        .error ⟨.preconditionFailed, .verificationNotNewer,
          "verification requires an applied attempt, found " ++ a.state.toText⟩
      else if s.policy.requireIndependentVerification && decide (evidence.verifier = evidence.applier) then
        .error ⟨.rejected, .verificationNotIndependent,
          "verification must come from a reporter other than the applier"⟩
      else if evidence.receivedEpoch ≠ e.live.epoch then
        .error ⟨.staleAuthority, .observationForeignEpoch,
          "verification evidence was recorded by a previous incarnation"⟩
      else if !decide (a.authority.observationGeneration < evidence.generation) then
        .error ⟨.staleAuthority, .verificationNotNewer,
          "verification evidence is not newer than the observation the action used"⟩
      else match citedObservation s evidence with
        | none => .error ⟨.notFound, .noObservationForScope,
            "verification cites observation evidence the runtime does not hold"⟩
        | some recorded =>
          let freshness := evaluateFreshness recorded s.policy.freshness e.live.epoch env.now
          if freshness ≠ .fresh then
            .error ⟨.staleAuthority, freshness.reasonOf, "verification evidence is not fresh"⟩
          else .ok a

/-- The transition a verification records. -/
def verification (e : Engine) (env : CallEnv) (evidence : VerificationEvidence) (a : AttemptRecord) :
    AttemptTransition :=
  ⟨a.state, if evidence.confirmsEffect then .verified else .failed, e.live.epoch, e.live.boot,
    if evidence.receivedUnixMs ≠ 0 then evidence.receivedUnixMs else env.later,
    if evidence.confirmsEffect then .attemptVerified else .attemptFailed,
    if evidence.confirmsEffect then .attemptVerified else .verificationNotNewer⟩

/-- `Verify` (`engine.cpp:1008`). -/
def verify (e : Engine) (env : CallEnv) (evidence : VerificationEvidence) :
    Status × Option ReconciliationOutcome × Engine :=
  match e.admitVerification env evidence with
  | .error status => (status, none, e)
  | .ok a =>
    let t := e.verification env evidence a
    let moved := a.move e.options.limits t
    let outcome := { makeOutcome moved t.target t.reason (!evidence.confirmsEffect) t.atUnixMs with
      verifiedGeneration := evidence.generation }
    let done := (e.under env).store.settle moved outcome
    if done.1.code ≠ .ok then (done.1, none, e.withStore done.2)
    else (Status.ok, some outcome, (e.withStore done.2).maybeCompact env)

/-! Fences -/

/-- The in-flight attempts a fence revokes. -/
def fenceVictims (s : DurableState) (fence : FenceEntry) : List AttemptRecord :=
  sortById (s.attempts.values.filter fun a =>
    !a.state.isTerminal && a.scope = fence.scope && (fence.subject.empty || fence.subject = a.subject) &&
      decide (a.epoch < fence.fencedBelow))

/-- The end of a fenced attempt. -/
def fenceAttempt (limits : RuntimeLimits) (live : Incarnation) (now : UnixMillis) (a : AttemptRecord) :
    AttemptRecord × ReconciliationOutcome :=
  let moved := a.move limits
    ⟨a.state, .fenced, live.epoch, live.boot, now, .attemptFencedByEpochAdvance, .none⟩
  (moved, makeOutcome moved .fenced .attemptFencedByEpochAdvance false now)

/-- `PutFence` (`engine.cpp:1123`). -/
def putFence (e : Engine) (env : CallEnv) (fence : FenceEntry) : Status × Engine :=
  if e.store.readOnly then (readOnlyStatus, e)
  else if fence.id.empty || fence.scope.empty then
    (⟨.rejected, .unsupportedInput, "fence requires a non-empty identity and scope"⟩, e)
  else if fence.fencedBelow = 0 then
    (⟨.rejected, .fenceEpochNotNewer, "a fence below epoch zero would revoke nothing"⟩, e)
  else
    let now := if fence.createdUnixMs ≠ 0 then fence.createdUnixMs else env.now
    let entry := { fence with createdUnixMs := now }
    let stored := (e.under env).store.putFence entry
    if stored.1.code ≠ .ok then (stored.1, e.withStore stored.2)
    else
      let done := stored.2.settleAll (fenceAttempt e.options.limits e.live now) (fenceVictims stored.2.state entry)
      if done.1.code ≠ .ok then (done.1, e.withStore done.2)
      else (Status.ok, (e.withStore done.2).maybeCompact env)

/-- `ClearFence` (`engine.cpp:1193`). -/
def clearFence (e : Engine) (env : CallEnv) (fence : FenceId) : Status × Engine :=
  if e.store.readOnly then (readOnlyStatus, e)
  else match e.store.state.fences.find? fence with
    | none => (⟨.notFound, .none, "no such fence"⟩, e)
    | some _ =>
      let done := (e.under env).store.clearFence fence
      (done.1, e.withStore done.2)

end Engine

/-! ## Processes -/

/-- The calls of the engine's interface that can change it. -/
inductive Operation
  | putPolicy (policy : ReconciliationPolicy) (allowSameVersion : Bool)
  | commitIntent (document : IntentDocument)
  | recordObservationAt (submission : ObservationSubmission) (stampUnixMs : UnixMillis)
  | plan (request : PlanRequest)
  | dispatch (plan : ReconciliationPlan)
  | complete (request : CompletionRequest)
  | verify (evidence : VerificationEvidence)
  | putFence (fence : FenceEntry)
  | clearFence (fence : FenceId)
  | compact

def statusOf {α : Type} : Except Status α → Status
  | .ok _ => Status.ok
  | .error status => status

/-- A call and the status it returns. -/
def Engine.call (e : Engine) (env : CallEnv) : Operation → Status × Engine
  | .putPolicy policy allow => e.putPolicy env policy allow
  | .commitIntent document => ((e.commitIntent env document).1, (e.commitIntent env document).2.2)
  | .recordObservationAt submission stamp =>
    ((e.recordObservationAt env submission stamp).1, (e.recordObservationAt env submission stamp).2.2)
  | .plan request => (statusOf (e.plan env request), e)
  | .dispatch plan => (statusOf (e.dispatch env plan).1, (e.dispatch env plan).2)
  | .complete request => ((e.complete env request).1, (e.complete env request).2.2)
  | .verify evidence => ((e.verify env evidence).1, (e.verify env evidence).2.2)
  | .putFence fence => e.putFence env fence
  | .clearFence fence => e.clearFence env fence
  | .compact => e.compact env

/-- A store directory with or without a process that has it open. Without one, `last` remembers what
the last process held in memory; nothing reads it. -/
inductive Process
  | down (directory : Directory) (last : DurableState)
  | up (engine : Engine)

/-- The steps of a run. `exit` is an orderly end as well as a crash between two calls; a crash inside a
call is a failing outcome in its environment followed by `exit`. -/
inductive Step
  | boot (options : EngineOptions) (opening : DurableStore.OpenEnv) (id : BootId) (env : CallEnv)
  | call (operation : Operation) (env : CallEnv)
  | exit

namespace Process

def state : Process → DurableState
  | down _ last => last
  | up e => e.store.state

/-- Every append ever made to the journal. -/
def log : Process → List Appending
  | down directory _ => directory.log
  | up e => e.store.directory.log

/-- `ReconciliationEngine::Open` (`engine.cpp:57`): a failed boot leaves no engine. -/
def boot (directory : Directory) (last : DurableState) (options : EngineOptions)
    (opening : DurableStore.OpenEnv) (id : BootId) (env : CallEnv) : Status × Process :=
  match DurableStore.open options.limits options.createIfMissing options.readOnly opening directory with
  | (dir, .error status) => (status, .down dir last)
  | (_, .ok (store, _)) => match Engine.start options id env store with
    | .error (status, s) => (status, .down s.directory s.state)
    | .ok e => (Status.ok, .up e)

/-- One step. Steps that do not apply change nothing. -/
def step (p : Process) (a : Step) : Status × Process :=
  match p, a with
  | .down directory last, .boot options opening id env => boot directory last options opening id env
  | .up e, .call operation env => ((e.call env operation).1, .up (e.call env operation).2)
  | .up e, .exit => (Status.ok, .down e.store.directory e.store.state)
  | p, _ => (Status.ok, p)

/-- An engine is up and has the property. -/
def runs (p : Process) (P : Engine → Bool) : Bool :=
  match p with
  | up e => P e
  | down _ _ => false

theorem runs_iff {p : Process} {P : Engine → Bool} : p.runs P = true ↔ ∃ e, p = .up e ∧ P e = true := by
  cases p with
  | up e => simp [runs]
  | down directory last => simp [runs]

end Process

/-- The processes reachable from an empty directory under one set of limits, by allowed steps. -/
inductive Run (limits : RuntimeLimits) (allowed : Process → Step → Prop) : Process → Prop
  | start : Run limits allowed (.down {} {})
  | step {p : Process} (h : Run limits allowed p) (a : Step) (ha : allowed p a)
      (hlimits : ∀ options opening id env, a = .boot options opening id env → options.limits = limits) :
      Run limits allowed (p.step a).2

/-- The processes that `p` becomes by further allowed steps. -/
inductive Later (limits : RuntimeLimits) (allowed : Process → Step → Prop) (p : Process) : Process → Prop
  | refl : Later limits allowed p p
  | step {q : Process} (h : Later limits allowed p q) (a : Step) (ha : allowed q a)
      (hlimits : ∀ options opening id env, a = .boot options opening id env → options.limits = limits) :
      Later limits allowed p (q.step a).2

section Runs

variable {limits : RuntimeLimits} {allowed : Process → Step → Prop} {p : Process}

theorem Later.mono {allowed' : Process → Step → Prop} {q : Process} (h : Later limits allowed p q)
    (hle : ∀ p a, allowed p a → allowed' p a) : Later limits allowed' p q := by
  induction h with
  | refl => exact .refl
  | step h a ha hlimits ih => exact ih.step a (hle _ a ha) hlimits

theorem Run.ofStart (h : Run limits allowed p) : Later limits allowed (.down {} {}) p := by
  induction h with
  | start => exact .refl
  | step h a ha hlimits ih => exact ih.step a ha hlimits

theorem Run.later {q : Process} (h : Run limits allowed p) (hq : Later limits allowed p q) : Run limits allowed q := by
  induction hq with
  | refl => exact h
  | step hq a ha hlimits ih => exact .step ih a ha hlimits

theorem Run.boot (h : Run limits allowed p) (options : EngineOptions) (opening : DurableStore.OpenEnv) (id : BootId)
    (env : CallEnv) (hlimits : options.limits = limits) (ha : allowed p (.boot options opening id env)) :
    Run limits allowed (p.step (.boot options opening id env)).2 := by
  refine .step h _ ha ?_
  intro options' opening' id' env' heq
  injection heq with hoptions
  rw [← hoptions]
  exact hlimits

theorem Run.call (h : Run limits allowed p) (operation : Operation) (env : CallEnv)
    (ha : allowed p (.call operation env)) : Run limits allowed (p.step (.call operation env)).2 :=
  .step h _ ha (by simp)

theorem Run.exit (h : Run limits allowed p) (ha : allowed p .exit) : Run limits allowed (p.step .exit).2 :=
  .step h _ ha (by simp)

end Runs

end FabricReconciliation
