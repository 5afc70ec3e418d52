import FabricReconciliation.Freshness
import FabricReconciliation.Lib.Rendered
import FabricReconciliation.Queries
import FabricReconciliation.Session
import FabricReconciliation.Staleness

/-!
# The service (`server.cpp:140-500`)

`Handle` turns a request into calls of the engine, which all sessions share. Each call is one locked section; a Dispatch
request makes two, a plan and its dispatch, and other sessions may act in between. The texts that only show a result
are a parameter.

* **`handle_effect`** — a request changes the engine by the one call that it names, and is answered with its status;
  every other request changes nothing;
* **`host_process`** — however requests, plans in hand, in-process calls and restarts interleave, the engine of the host
  goes through a run, so that whatever holds of runs holds of the service;
* **`wire_dispatch_current`** — what a Dispatch request acts on is what planning in its second section would decide;
* **`earlier_epochs_refused`** — after a writable restart, a request of any earlier epoch is refused.
-/

namespace FabricReconciliation

open Lib
open Lib.Json (decimal)

/-! ## Requests -/

/-- What the body of a request asks for. An empty scope asks for all. -/
inductive Command
  | activePolicy
  | putPolicy (policy : ReconciliationPolicy) (allowSameVersion : Bool)
  | commitIntent (document : IntentDocument)
  | recordObservation (submission : ObservationSubmission) (stampUnixMs : UnixMillis)
  | classify (scope : ScopeId) (nowUnixMs : UnixMillis)
  | plan (scope : ScopeId) (nowUnixMs : UnixMillis)
  | dispatch (scope : ScopeId) (nowUnixMs : UnixMillis) (expectedPlanId : Bytes)
  | complete (completion : CompletionRequest)
  | verify (evidence : VerificationEvidence)
  | putFence (fence : FenceEntry)
  | clearFence (fence : FenceId)
  | knownScopes
  | attempts (scope : ScopeId)
  | outcomes (scope : ScopeId)
  | bootReport
  | compact

/-- An answer of `Handle` to a body that it cannot use. -/
def rejectBody (detail : String) : Status := ⟨.rejected, .unsupportedInput, detail⟩

/-- The fields of a body, to its end. -/
def readBody {α : Type} (operation : String) (fields : Reader α) (body : Bytes) : Except Status α :=
  match fields.exactly body with
  | none => .error (rejectBody ("malformed " ++ operation ++ " request"))
  | some a => .ok a

/-- A field that has to be valid as well. -/
def validated {α : Type} (detail : String) : Option α → Except Status α
  | none => .error (rejectBody detail)
  | some a => .ok a

/-- A scope that may be left empty (`server.cpp:440`). -/
def readScopeFilter (operation : String) (body : Bytes) : Except Status ScopeId := do
  let scopeText ← readBody operation Read.bytes body
  if scopeText.isEmpty then return StringId.none
  else validated "invalid scope identity" (StringId.tryParse scopeText)

/-- The enumerations of a completion (`server.cpp:312`). -/
def completionStates (target reason : Nat) : Option (AttemptState × ReasonCode) := do
  let state ← Enumeration.ofRaw target
  let code ← ReasonCode.ofRaw reason
  return (state, code)

/-- The body of a Complete request (`server.cpp:299`). -/
def readCompletion (body : Bytes) : Except Status CompletionRequest := do
  let (attempt, epoch, boot, key, target, at', reason) ← readBody "Complete" (do
    return (← Read.u64, ← Read.u64, ← Read.boot, ← Read.digest, ← Read.u8, ← Read.i64, ← Read.u16)) body
  let (state, code) ← validated "completion carries an out-of-domain enumeration" (completionStates target reason)
  return ⟨attempt, epoch, boot, key, state, at', code⟩

/-- The identities of a verification (`server.cpp:357`). -/
def verificationIdentities (scope subject observation verifier applier : Bytes) :
    Option (ScopeId × SubjectId × ObservationId × ReporterId × ReporterId) := do
  return (← StringId.tryParse scope, ← StringId.tryParse subject, ← StringId.tryParse observation,
    ← StringId.tryParse verifier, ← StringId.tryParse applier)

/-- The body of a Verify request (`server.cpp:335`). -/
def readVerification (body : Bytes) : Except Status VerificationEvidence := do
  let (scopeText, subjectText, key, observationText, generation, epoch, verifierText, applierText, at', confirms) ←
    readBody "Verify" (do
      return (← Read.bytes, ← Read.bytes, ← Read.digest, ← Read.bytes, ← Read.u64, ← Read.u64, ← Read.bytes,
        ← Read.bytes, ← Read.i64, ← Read.bool)) body
  let (scope, subject, observation, verifier, applier) ← validated "verification carries an invalid identity"
    (verificationIdentities scopeText subjectText observationText verifierText applierText)
  return ⟨scope, subject, key, observation, generation, epoch, verifier, applier, at', confirms⟩

/-- The body of a request, read under the limits of the server (`server.cpp:155-495`). -/
def readCommand (limits : RuntimeLimits) (operation : WireOperation) (body : Bytes) : Except Status Command :=
  match operation with
  | .activePolicy => .ok .activePolicy
  | .putPolicy => do
    let (allowSameVersion, bytes) ← readBody "PutPolicy" (do return (← Read.bool, ← Read.bytes)) body
    let policy ← validated "policy payload failed validation" (decodePolicyExact bytes limits)
    return .putPolicy policy allowSameVersion
  | .commitIntent => do
    let bytes ← readBody "CommitIntent" Read.bytes body
    let document ← validated "intent payload failed validation" (decodeIntentExact bytes limits)
    return .commitIntent document
  | .recordObservation => do
    let (bytes, stamp) ← readBody "RecordObservation" (do return (← Read.bytes, ← Read.i64)) body
    let submission ← validated "observation payload failed validation" ((decodeSubmission limits).exactly bytes)
    return .recordObservation submission stamp
  | .classify => do
    let (scopeText, now) ← readBody "Classify" (do return (← Read.bytes, ← Read.i64)) body
    let scope ← validated "invalid scope identity" (StringId.tryParse scopeText)
    return .classify scope now
  | .plan => do
    -- the engine does not look at `dry_run`
    let (scopeText, now, _) ← readBody "Plan" (do return (← Read.bytes, ← Read.i64, ← Read.bool)) body
    let scope ← validated "invalid scope identity" (StringId.tryParse scopeText)
    return .plan scope now
  | .dispatch => do
    let (scopeText, now, expectedPlanId) ← readBody "Dispatch" (do
      return (← Read.bytes, ← Read.i64, ← Read.bytes)) body
    let scope ← validated "invalid scope identity" (StringId.tryParse scopeText)
    return .dispatch scope now expectedPlanId
  | .complete => do return .complete (← readCompletion body)
  | .verify => do return .verify (← readVerification body)
  | .putFence => do
    let bytes ← readBody "PutFence" Read.bytes body
    let fence ← validated "fence payload failed validation" (decodeFence.exactly bytes)
    return .putFence fence
  | .clearFence => do
    let idText ← readBody "ClearFence" Read.bytes body
    let id ← validated "invalid fence identity" (StringId.tryParse idText)
    return .clearFence id
  | .knownScopes => .ok .knownScopes
  | .attempts => do return .attempts (← readScopeFilter "Attempts" body)
  | .outcomes => do return .outcomes (← readScopeFilter "Outcomes" body)
  | .bootReport => .ok .bootReport
  | .compact => .ok .compact
  | .invalid => .error ⟨.unsupported, .frameTypeUnknown, "unsupported operation"⟩

/-! ## Answers -/

/-- `ToText` (`plan.cpp:54`). -/
def ActionKind.toText : ActionKind → String
  | none => "NONE"
  | applyDesired => "APPLY_DESIRED"
  | withdrawSubject => "WITHDRAW_SUBJECT"

/-- `ToText` (`plan.cpp:92`). -/
def ConvergenceVerdict.toText : ConvergenceVerdict → String
  | invalid => "INVALID"
  | convergedProven => "CONVERGED_PROVEN"
  | convergenceRequired => "CONVERGENCE_REQUIRED"
  | provenBlocked => "PROVEN_BLOCKED"
  | indeterminate => "INDETERMINATE"
  | searchLimitReached => "SEARCH_LIMIT_REACHED"

/-- The texts that show a report, a plan, an attempt, the boot report of the engine and a reason code. -/
structure Renderers where
  classification : ClassificationReport → Bytes
  plan : ReconciliationPlan → Bytes
  attempt : AttemptRecord → Bytes
  bootReport : Bytes
  reason : ReasonCode → Bytes

def yesNo (b : Bool) : Bytes := if b then ascii "yes" else ascii "no"

/-- `ReconciliationOutcome{}`. -/
def ReconciliationOutcome.blank : ReconciliationOutcome where
  idempotencyKey := FixedBytes.zero
  scope := StringId.none
  subject := StringId.none
  action := .none
  attempt := 0
  epoch := 0
  boot := FixedBytes.zero
  terminalState := .invalid
  reason := .none
  committedUnixMs := 0
  verified := false
  verifiedGeneration := 0
  ambiguous := false

/-- One dispatched action (`server.cpp:296`). -/
def actionText (a : ActionIntent) : Bytes :=
  ascii "attempt=" ++ decimal a.attempt.toNat ++ ascii " key=" ++ toHex a.idempotencyKey.bytes ++ ascii " subject=" ++
    a.subject.text ++ ascii " action=" ++ ascii a.action.toText ++ ascii "\n"

/-- The answer to a Dispatch request (`server.cpp:289`). -/
def dispatchText (plan : ReconciliationPlan) (result : DispatchResult) : Bytes :=
  ascii "plan=" ++ plan.planId ++ ascii " verdict=" ++ ascii plan.verdict.toText ++ ascii " issued=" ++
    decimal result.intents.length ++ ascii " already-issued=" ++ decimal result.alreadyIssued ++ ascii " fenced=" ++
    decimal result.fenced ++ ascii "\n" ++ result.intents.flatMap actionText

/-- The answer to a Complete request (`server.cpp:330`). -/
def completionText (texts : Renderers) (o : ReconciliationOutcome) : Bytes :=
  ascii "attempt=" ++ decimal o.attempt.toNat ++ ascii " state=" ++ ascii o.terminalState.toText ++ ascii " reason=" ++
    texts.reason o.reason ++ ascii " verified=" ++ yesNo o.verified ++ ascii " ambiguous=" ++ yesNo o.ambiguous ++
    ascii "\n"

/-- The answer to a Verify request (`server.cpp:385`). -/
def verificationText (o : ReconciliationOutcome) : Bytes :=
  ascii "attempt=" ++ decimal o.attempt.toNat ++ ascii " state=" ++ ascii o.terminalState.toText ++
    ascii " verified=" ++ yesNo o.verified ++ ascii "\n"

/-- One outcome in the answer to an Outcomes request (`server.cpp:481`). -/
def outcomeText (o : ReconciliationOutcome) : Bytes :=
  ascii "attempt=" ++ decimal o.attempt.toNat ++ ascii " subject=" ++ o.subject.text ++ ascii " state=" ++
    ascii o.terminalState.toText ++ ascii " verified=" ++ yesNo o.verified ++ ascii " ambiguous=" ++
    yesNo o.ambiguous ++ ascii " key=" ++ toHex o.idempotencyKey.bytes ++ ascii "\n"

/-- `status.ok() ? "ok" : std::string()`. -/
def okText (status : Status) : Bytes := if status.code = .ok then ascii "ok" else []

/-- Where a request stands behind its first locked section. -/
inductive Handled
  | answered (response : Response)
  /-- a Dispatch request that has its plan -/
  | holding (plan : ReconciliationPlan)

/-- The call of the engine that a command is about. A Dispatch command begins with a plan. -/
def Command.operation : Command → Option Operation
  | .putPolicy policy allowSameVersion => some (.putPolicy policy allowSameVersion)
  | .commitIntent document => some (.commitIntent document)
  | .recordObservation submission stamp => some (.recordObservationAt submission stamp)
  | .complete completion => some (.complete completion)
  | .verify evidence => some (.verify evidence)
  | .putFence fence => some (.putFence fence)
  | .clearFence fence => some (.clearFence fence)
  | .compact => some .compact
  | _ => none

namespace Engine

variable (texts : Renderers) (e : Engine)

/-- The switch of `Handle`, up to the end of its first call of the engine. -/
def perform (env : CallEnv) : Command → Handled × Engine
  | .activePolicy => match e.activePolicy with
    | .error status => (.answered (makeError status), e)
    | .ok policy => (.answered (fromStatus Status.ok (encodePolicy policy)), e)
  | .putPolicy policy allowSameVersion =>
    let done := e.putPolicy env policy allowSameVersion
    (.answered (fromStatus done.1 (okText done.1)), done.2)
  | .commitIntent document =>
    let done := e.commitIntent env document
    let result := done.2.1.getD ⟨false, 0, FixedBytes.zero⟩
    (.answered (fromStatus done.1 (encoded (putBool result.duplicate ++ putU64 result.generation ++
      putDigest result.digest))), done.2.2)
  | .recordObservation submission stamp =>
    let done := e.recordObservationAt env submission stamp
    let result := done.2.1.getD .blank
    (.answered (fromStatus done.1 (encoded (putBool result.duplicate ++ putBytes (encodeObservation result.stamped)))),
      done.2.2)
  | .classify scope now => match e.classify env scope now with
    | .error status => (.answered (makeError status), e)
    | .ok report => (.answered (fromStatus Status.ok (texts.classification report)), e)
  | .plan scope now => match e.plan env ⟨scope, none, now⟩ with
    | .error status => (.answered (makeError status), e)
    | .ok plan => (.answered (fromStatus Status.ok (texts.plan plan)), e)
  | .dispatch scope now expectedPlanId => match e.plan env ⟨scope, none, now⟩ with
    | .error status => (.answered (makeError status), e)
    | .ok plan =>
      if expectedPlanId ≠ [] ∧ expectedPlanId ≠ plan.planId then
        (.answered (makeError ⟨.staleAuthority, .authorityIntentGenerationMismatch,
          "the plan changed since the caller observed it"⟩), e)
      else (.holding plan, e)
  | .complete completion =>
    let done := e.complete env completion
    (.answered (fromStatus done.1 (completionText texts (done.2.1.getD .blank))), done.2.2)
  | .verify evidence =>
    let done := e.verify env evidence
    (.answered (fromStatus done.1 (verificationText (done.2.1.getD .blank))), done.2.2)
  | .putFence fence =>
    let done := e.putFence env fence
    (.answered (fromStatus done.1 (okText done.1)), done.2)
  | .clearFence fence =>
    let done := e.clearFence env fence
    (.answered (fromStatus done.1 (okText done.1)), done.2)
  | .knownScopes =>
    (.answered (fromStatus Status.ok (e.knownScopes.flatMap fun scope => scope.text ++ ascii "\n")), e)
  | .attempts scope => (.answered (fromStatus Status.ok ((e.attempts scope).flatMap texts.attempt)), e)
  | .outcomes scope => (.answered (fromStatus Status.ok ((e.outcomes scope).flatMap outcomeText)), e)
  | .bootReport => (.answered (fromStatus Status.ok texts.bootReport), e)
  | .compact =>
    let done := e.compact env
    (.answered (fromStatus done.1 (okText done.1)), done.2)

/-- The second call of a Dispatch request (`server.cpp:284`). -/
def performDispatch (env : CallEnv) (plan : ReconciliationPlan) : Response × Engine :=
  match e.dispatch env plan with
  | (.error status, after) => (makeError status, after)
  | (.ok result, after) => (fromStatus Status.ok (dispatchText plan result), after)

/-- The checks at the head of `Handle` (`server.cpp:142`). -/
def refuses (clientBoot : BootId) (request : Request) : Option Status :=
  if request.clientBoot ≠ clientBoot then some ⟨.staleAuthority, .sessionBootMismatch,
    "request carries a boot identity this session did not establish"⟩
  else if request.epoch ≠ e.live.epoch then some ⟨.staleAuthority, .sessionEpochMismatch,
    "request carries an epoch that is no longer current"⟩
  else none

/-- `Handle` (`server.cpp:140`), up to the end of its first call of the engine. -/
def handle (limits : RuntimeLimits) (clientBoot : BootId) (request : Request) (env : CallEnv) : Handled × Engine :=
  match e.refuses clientBoot request with
  | some status => (.answered (makeError status), e)
  | none => match readCommand limits request.operation request.body with
    | .error status => (.answered (makeError status), e)
    | .ok command => e.perform texts env command

end Engine

section Requests

variable {limits : RuntimeLimits} {texts : Renderers} {e : Engine} {env : CallEnv} {clientBoot : BootId}
  {request : Request}

/-- These are the checks of the session. -/
theorem refuses_eq (service : Service) (s : SessionState) (h : service.epoch = e.live.epoch) :
    e.refuses s.clientBoot request = refusal service s request := by
  unfold Engine.refuses refusal
  rw [h]

/-- A command acts through its call. -/
theorem perform_operation (command : Command) {operation : Operation} (h : command.operation = some operation) :
    ∃ body, e.perform texts env command =
      (.answered (fromStatus (e.call env operation).1 body), (e.call env operation).2) := by
  cases command <;> cases h <;> exact ⟨_, rfl⟩

/-- Any other command changes nothing. -/
theorem perform_reads (command : Command) (h : command.operation = none) : (e.perform texts env command).2 = e := by
  cases command with
  | activePolicy => simp only [Engine.perform]; split <;> rfl
  | classify scope now => simp only [Engine.perform]; split <;> rfl
  | plan scope now => simp only [Engine.perform]; split <;> rfl
  | dispatch scope now expected =>
    simp only [Engine.perform]
    split
    · rfl
    · split <;> rfl
  | knownScopes => rfl
  | attempts scope => rfl
  | outcomes scope => rfl
  | bootReport => rfl
  | _ => cases h

/-- **`handle_effect`**. -/
theorem handle_effect : (e.handle texts limits clientBoot request env).2 = e ∨
    ∃ command operation body, e.refuses clientBoot request = none ∧
      readCommand limits request.operation request.body = .ok command ∧ command.operation = some operation ∧
      e.handle texts limits clientBoot request env =
        (.answered (fromStatus (e.call env operation).1 body), (e.call env operation).2) := by
  unfold Engine.handle
  split
  · exact .inl rfl
  next hadmits =>
    split
    · exact .inl rfl
    next command hcommand =>
      cases hoperation : command.operation with
      | none => exact .inl (perform_reads command hoperation)
      | some operation =>
        obtain ⟨body, hdone⟩ := @perform_operation texts e env command operation hoperation
        exact .inr ⟨command, operation, body, hadmits, hcommand, hoperation, hdone⟩

/-- A request is left with a plan in hand only where the engine has returned it. -/
theorem handle_holding {plan : ReconciliationPlan} {after : Engine}
    (h : e.handle texts limits clientBoot request env = (.holding plan, after)) :
    after = e ∧ ∃ scope now, e.plan env ⟨scope, none, now⟩ = .ok plan := by
  unfold Engine.handle at h
  split at h
  · simp at h
  split at h
  · simp at h
  next command hcommand =>
    cases hoperation : command.operation with
    | some operation =>
      obtain ⟨body, hdone⟩ := @perform_operation texts e env command operation hoperation
      rw [hdone] at h
      simp at h
    | none =>
      have hsame := @perform_reads texts e env command hoperation
      rw [h] at hsame
      refine ⟨hsame, ?_⟩
      cases command with
      | dispatch scope now expected =>
        simp only [Engine.perform] at h
        split at h
        · simp at h
        next planned hplan =>
          split at h
          · simp at h
          · simp only [Prod.mk.injEq, Handled.holding.injEq] at h
            exact ⟨scope, now, h.1 ▸ hplan⟩
      | activePolicy =>
        simp only [Engine.perform] at h
        split at h <;> simp at h
      | classify scope now =>
        simp only [Engine.perform] at h
        split at h <;> simp at h
      | plan scope now =>
        simp only [Engine.perform] at h
        split at h <;> simp at h
      | knownScopes => simp [Engine.perform] at h
      | attempts scope => simp [Engine.perform] at h
      | outcomes scope => simp [Engine.perform] at h
      | bootReport => simp [Engine.perform] at h
      | _ => cases hoperation

end Requests

/-! ## The host -/

/-- A session that has said hello, with the plan of the Dispatch request that it is working on. -/
structure HostSession where
  clientBoot : BootId
  held : Option ReconciliationPlan := none

/-- The process of the service and its sessions. Each session works on one request at a time. -/
structure Host where
  process : Process
  sessions : Nat → Option HostSession

/-- The steps of a host. `resume` is the second locked section of a Dispatch request; `process` is whatever else befalls
the engine: calls of its own process, exits and boots. No session outlives its process. -/
inductive HostStep
  | hello (place : Nat) (clientBoot : BootId)
  | request (place : Nat) (request : Request) (env : CallEnv)
  | resume (place : Nat) (env : CallEnv)
  | closed (place : Nat)
  | process (a : Step)

namespace Host

variable (texts : Renderers) (serverLimits : RuntimeLimits)

/-- The host with one session changed. -/
def seat (h : Host) (place : Nat) (s : Option HostSession) : Host :=
  { h with sessions := fun other => if other = place then s else h.sessions other }

/-- The session, and the engine that it works with. -/
def working (h : Host) (place : Nat) : Option (Engine × HostSession) :=
  match h.process, h.sessions place with
  | .up e, some s => some (e, s)
  | _, _ => none

/-- The session behind the first section of a request. -/
def taken (h : Host) (place : Nat) (clientBoot : BootId) : Handled × Engine → Option Response × Host
  | (.answered response, after) => (some response, { h with process := .up after })
  | (.holding plan, after) =>
    (none, ({ h with process := .up after } : Host).seat place (some ⟨clientBoot, some plan⟩))

/-- A step, and the answer that it sends. Steps that do not apply change nothing. -/
def step (h : Host) : HostStep → Option Response × Host
  | .hello place clientBoot => (none, h.seat place (some { clientBoot := clientBoot }))
  | .request place request env =>
    match h.working place with
    | some (e, ⟨clientBoot, none⟩) => h.taken place clientBoot (e.handle texts serverLimits clientBoot request env)
    | _ => (none, h)
  | .resume place env =>
    match h.working place with
    | some (e, ⟨clientBoot, some plan⟩) =>
      (some (e.performDispatch env plan).1,
        ({ h with process := .up (e.performDispatch env plan).2 } : Host).seat place (some ⟨clientBoot, none⟩))
    | _ => (none, h)
  | .closed place => (none, h.seat place none)
  | .process a =>
    match a with
    | .call _ _ => (none, { h with process := (h.process.step a).2 })
    | _ => (none, ⟨(h.process.step a).2, fun _ => none⟩)

/-- No compaction of the step is denied the journal file once record numbers may have wrapped around. -/
def Orderly (h : Host) (a : HostStep) : Prop :=
  match a with
  | .request _ _ env | .resume _ env =>
    env.io.reopened = true ∨ (h.step texts serverLimits a).2.process.log.length < 2 ^ 64
  | .process a => h.process.Orderly a
  | _ => True

/-- An empty directory and no session. -/
def start : Host := ⟨.down {} {}, fun _ => none⟩

end Host

/-- What a host becomes, by steps in any order. -/
inductive HostLater (texts : Renderers) (serverLimits limits : RuntimeLimits) (h : Host) : Host → Prop
  | refl : HostLater texts serverLimits limits h h
  | step {g : Host} (hg : HostLater texts serverLimits limits h g) (a : HostStep) (ha : g.Orderly texts serverLimits a)
      (hlimits : ∀ options opening id env, a = .process (.boot options opening id env) → options.limits = limits) :
      HostLater texts serverLimits limits h (g.step texts serverLimits a).2

section Hosts

variable {texts : Renderers} {serverLimits limits : RuntimeLimits} {g h : Host} {e : Engine} {place : Nat}
  {clientBoot : BootId} {plan : ReconciliationPlan}

/-- The second section of a Dispatch request is a call of the engine. -/
theorem performDispatch_call (env : CallEnv) : (e.performDispatch env plan).2 = (e.call env (.dispatch plan)).2 := by
  show _ = (e.dispatch env plan).2
  unfold Engine.performDispatch
  split
  next hdone => rw [hdone]
  next hdone => rw [hdone]

theorem working_iff {s : HostSession} :
    h.working place = some (e, s) ↔ h.process = .up e ∧ h.sessions place = some s := by
  unfold Host.working
  cases h.process with
  | down directory last => simp
  | up f =>
    cases h.sessions place with
    | none => simp
    | some t => simp

/-- **`step_process`**: a step of the host leaves the engine, or is a step of it. -/
theorem step_process {a : HostStep} (ha : h.Orderly texts serverLimits a)
    (hlimits : ∀ options opening id env, a = .process (.boot options opening id env) → options.limits = limits) :
    (h.step texts serverLimits a).2.process = h.process ∨ ∃ b, h.process.Orderly b ∧
      (∀ options opening id env, b = .boot options opening id env → options.limits = limits) ∧
      (h.step texts serverLimits a).2.process = (h.process.step b).2 := by
  -- a call that leads to the process behind the step is as orderly as the step
  have hcall : ∀ {e : Engine} {operation : Operation} {env : CallEnv} {after : Process}, h.process = .up e →
      env.io.reopened = true ∨ after.log.length < 2 ^ 64 → after = .up (e.call env operation).2 →
      ∃ b, h.process.Orderly b ∧
        (∀ options opening id env, b = .boot options opening id env → options.limits = limits) ∧
        after = (h.process.step b).2 := by
    rintro e operation env after hup horderly rfl
    rw [hup]
    exact ⟨.call operation env, horderly, by simp, rfl⟩
  cases a with
  | hello place clientBoot => exact .inl rfl
  | closed place => exact .inl rfl
  | request place request env =>
    have ha : env.io.reopened = true ∨
      (h.step texts serverLimits (.request place request env)).2.process.log.length < 2 ^ 64 := ha
    cases hworking : h.working place with
    | none =>
      simp only [Host.step, hworking]
      exact .inl trivial
    | some found =>
      obtain ⟨e, clientBoot, held⟩ := found
      obtain ⟨hup, -⟩ := working_iff.mp hworking
      cases held with
      | some plan =>
        simp only [Host.step, hworking]
        exact .inl trivial
      | none =>
        simp only [Host.step, hworking] at ha ⊢
        rcases hdone : e.handle texts serverLimits clientBoot request env with ⟨handled, after⟩
        rw [hdone] at ha
        cases handled with
        | holding held =>
          obtain ⟨rfl, -⟩ := handle_holding hdone
          exact .inl hup.symm
        | answered response =>
          rcases @handle_effect serverLimits texts e env clientBoot request with
            hsame | ⟨command, operation, body, -, -, -, heffect⟩
          · rw [hdone] at hsame
            left
            rw [hup, ← hsame]
            rfl
          · rw [hdone, Prod.mk.injEq] at heffect
            exact .inr (hcall hup ha (congrArg Process.up heffect.2))
  | resume place env =>
    have ha : env.io.reopened = true ∨
      (h.step texts serverLimits (.resume place env)).2.process.log.length < 2 ^ 64 := ha
    cases hworking : h.working place with
    | none =>
      simp only [Host.step, hworking]
      exact .inl trivial
    | some found =>
      obtain ⟨e, clientBoot, held⟩ := found
      obtain ⟨hup, -⟩ := working_iff.mp hworking
      cases held with
      | none =>
        simp only [Host.step, hworking]
        exact .inl trivial
      | some plan =>
        simp only [Host.step, hworking] at ha ⊢
        exact .inr (hcall hup ha (congrArg Process.up (performDispatch_call env)))
  | process b =>
    refine .inr ⟨b, ha, fun options opening id env hb => hlimits options opening id env (congrArg _ hb), ?_⟩
    cases b <;> rfl

/-- The engine of a host goes through a run. -/
theorem host_later (hl : HostLater texts serverLimits limits g h) :
    Later limits Process.Orderly g.process h.process := by
  induction hl with
  | refl => exact .refl
  | step hg a ha hlimits ih =>
    rcases step_process ha hlimits with hsame | ⟨b, hb, hboots, hstep⟩
    · rw [hsame]
      exact ih
    · rw [hstep]
      exact ih.step b hb hboots

/-- **`host_process`**. -/
theorem host_process (hl : HostLater texts serverLimits limits .start h) : Run limits Process.Orderly h.process :=
  Run.start.later (host_later hl)

/-! ## Plans in hand -/

theorem Later.trans {allowed : Process → Step → Prop} {p q r : Process} (h : Later limits allowed p q)
    (h' : Later limits allowed q r) : Later limits allowed p r := by
  induction h' with
  | refl => exact h
  | step _ a ha hlimits ih => exact ih.step a ha hlimits

/-- The plan was returned, under the active policy, at an earlier moment of the run that led to the process. -/
def PlannedBefore (limits : RuntimeLimits) (p : Process) (plan : ReconciliationPlan) : Prop :=
  ∃ planner env request, request.policy = none ∧ Run limits Process.Orderly (.up planner) ∧
    planner.plan env request = .ok plan ∧ Later limits Process.Orderly (.up planner) p

/-- A session has a plan in hand from before the step, or has just been given it. -/
theorem step_held {a : HostStep} {s : HostSession} (hs : (h.step texts serverLimits a).2.sessions place = some s)
    (hheld : s.held = some plan) : (∃ t, h.sessions place = some t ∧ t.held = some plan) ∨
      ∃ e scope now env, h.process = .up e ∧ (h.step texts serverLimits a).2.process = .up e ∧
        e.plan env ⟨scope, none, now⟩ = .ok plan := by
  -- a session that is changed elsewhere
  have hseat : ∀ {g : Host} {other : Nat} {t : Option HostSession}, (g.seat other t).sessions place = some s →
      g.sessions = h.sessions → t.bind HostSession.held ≠ some plan →
      ∃ t, h.sessions place = some t ∧ t.held = some plan := by
    intro g other t hg hsame ht
    unfold Host.seat at hg
    dsimp only at hg
    split at hg
    · rw [hg] at ht
      exact absurd hheld ht
    · exact ⟨s, hsame ▸ hg, hheld⟩
  cases a with
  | hello other clientBoot => exact .inl (hseat hs rfl (by simp))
  | closed other => exact .inl (hseat hs rfl (by simp))
  | process b =>
    cases b with
    | call operation env => exact .inl ⟨s, hs, hheld⟩
    | exit => cases hs
    | boot options opening id env => cases hs
  | request other request env =>
    cases hworking : h.working other with
    | none =>
      simp only [Host.step, hworking] at hs
      exact .inl ⟨s, hs, hheld⟩
    | some found =>
      obtain ⟨e, clientBoot, held⟩ := found
      obtain ⟨hup, -⟩ := working_iff.mp hworking
      cases held with
      | some plan =>
        simp only [Host.step, hworking] at hs
        exact .inl ⟨s, hs, hheld⟩
      | none =>
        simp only [Host.step, hworking] at hs ⊢
        rcases hdone : e.handle texts serverLimits clientBoot request env with ⟨handled, after⟩
        rw [hdone] at hs
        cases handled with
        | answered response => exact .inl ⟨s, hs, hheld⟩
        | holding given =>
          obtain ⟨rfl, scope, now, hplan⟩ := handle_holding hdone
          by_cases hsame : given = plan
          · subst hsame
            exact .inr ⟨after, scope, now, env, hup, rfl, hplan⟩
          · exact .inl (hseat hs rfl (by simpa using hsame))
  | resume other env =>
    cases hworking : h.working other with
    | none =>
      simp only [Host.step, hworking] at hs
      exact .inl ⟨s, hs, hheld⟩
    | some found =>
      obtain ⟨e, clientBoot, held⟩ := found
      cases held with
      | none =>
        simp only [Host.step, hworking] at hs
        exact .inl ⟨s, hs, hheld⟩
      | some given =>
        simp only [Host.step, hworking] at hs
        exact .inl (hseat hs rfl (by simp))

/-- Whatever a session has in hand is a plan that the engine has returned. -/
theorem held_planned (hl : HostLater texts serverLimits limits .start h) {s : HostSession}
    (hs : h.sessions place = some s) (hheld : s.held = some plan) : PlannedBefore limits h.process plan := by
  induction hl generalizing s with
  | refl => cases hs
  | @step g hg a ha hlimits ih =>
    have hstep : Later limits Process.Orderly g.process (g.step texts serverLimits a).2.process :=
      host_later (HostLater.refl.step a ha hlimits)
    rcases step_held hs hheld with ⟨t, ht, hin⟩ | ⟨e, scope, now, env, hup, hafter, hplan⟩
    · obtain ⟨planner, env, request, hactive, hrun, hplan, hlater⟩ := ih ht hin
      exact ⟨planner, env, request, hactive, hrun, hplan, hlater.trans hstep⟩
    · have hrun := host_process hg
      rw [hup] at hrun
      exact ⟨e, env, ⟨scope, none, now⟩, rfl, hrun, hplan, by rw [hafter]; exact .refl⟩

/-- **`wire_dispatch_current`**. -/
theorem wire_dispatch_current (hl : HostLater texts serverLimits limits .start h)
    (hworking : h.working place = some (e, ⟨clientBoot, some plan⟩)) :
    ∃ planner env request, request.policy = none ∧ planner.plan env request = .ok plan ∧
      Later limits Process.Orderly (.up planner) (.up e) ∧
      ∀ env' result, (e.dispatch env' plan).1 = .ok result →
        (h.step texts serverLimits (.resume place env')).1 = some (fromStatus Status.ok (dispatchText plan result)) ∧
        (ToldApart request.scope planner.store.state e.store.state → ∀ i ∈ result.intents, ∃ d plan',
          e.plan env request = .ok plan' ∧ d ∈ plan.decisions ∧ d ∈ plan'.decisions ∧
            d.disposition = .actionable ∧ i.idempotencyKey = d.idempotencyKey) := by
  obtain ⟨hup, hsession⟩ := working_iff.mp hworking
  obtain ⟨planner, env, request, hactive, hrun, hplan, hlater⟩ := held_planned hl hsession rfl
  rw [hup] at hlater
  refine ⟨planner, env, request, hactive, hplan, hlater, fun env' result hok => ⟨?_, fun hapart => ?_⟩⟩
  · simp only [Host.step, hworking]
    unfold Engine.performDispatch
    rcases hdone : e.dispatch env' plan with ⟨answer, after⟩
    rw [hdone] at hok
    dsimp only at hok
    rw [hok]
  · exact dispatch_replans hrun hplan hlater hapart hok

/-! ## Restarts -/

/-- A writable engine that came up behind an exit has a later epoch than every engine before it. -/
theorem rebooted_newer {old : Engine} {directory : Directory} {last : DurableState}
    (hrun : Run limits Process.Orderly (.up old))
    (hdown : Later limits Process.Orderly (.up old) (.down directory last))
    (hup : Later limits Process.Orderly (.down directory last) (.up e)) (hmode : e.store.readOnly = false) :
    old.live.epoch < e.live.epoch := by
  obtain ⟨w, hw, hsince⟩ := later_since hrun hdown
  have hinvariant : ∀ q, Later limits Process.Orderly (.down directory last) q → ∃ v, Kept limits q v ∧
      v.Sound limits ∧ old.live.epoch ≤ v.memory.lastEpoch ∧
      ∀ f, q = .up f → f.store.readOnly = false → old.live.epoch < f.live.epoch := by
    intro q hq
    induction hq with
    | refl => exact ⟨w, hw, hsince.sound, hsince.epoch, by simp⟩
    | @step q hq a ha hlimits ih =>
      obtain ⟨u, hu, hsound, hepoch, hnewer⟩ := ih
      obtain ⟨v, hv, hprogress⟩ := step_progress hu ha hlimits
      refine ⟨v, hv, hprogress.sound hsound, ?_, ?_⟩
      · exact hprogress.memory (P := fun st => old.live.epoch ≤ st.lastEpoch) hsound
          (fun hst _ _ _ => le_trans hst (le_lastEpoch_applyEvent _ _ _)) hepoch
      intro f hf hwritable
      cases q with
      | down dir memory =>
        cases a with
        | call operation env => cases hf
        | exit => cases hf
        | boot options opening id env =>
          cases hu with
          | down hrests =>
            exact lt_of_le_of_lt hepoch (hrests.boot_newer (hlimits options opening id env rfl) hf hwritable)
      | up t =>
        cases a with
        | exit => cases hf
        | boot options opening id env => exact hnewer f hf hwritable
        | call operation env =>
          have hcall : (t.call env operation).2 = f := Process.up.inj hf
          subst hcall
          rw [(call_frame t env operation).2]
          apply hnewer t rfl
          rw [← hwritable]
          exact (call_commits hu.consistent env operation).readOnly.symm
  obtain ⟨v, -, -, -, hnewer⟩ := hinvariant (.up e) hup
  exact hnewer e rfl hmode

/-- **`earlier_epochs_refused`**. -/
theorem earlier_epochs_refused {first stopped : Host} {old : Engine} {directory : Directory} {last : DurableState}
    (hl : HostLater texts serverLimits limits .start first) (hold : first.process = .up old)
    (hstopped : HostLater texts serverLimits limits first stopped) (hdown : stopped.process = .down directory last)
    (hrestarted : HostLater texts serverLimits limits stopped h) (hup : h.process = .up e)
    (hmode : e.store.readOnly = false) {request : Request} (hepoch : request.epoch = old.live.epoch) (env : CallEnv) :
    (h.step texts serverLimits (.request place request env)).2 = h ∧
      ∀ response, (h.step texts serverLimits (.request place request env)).1 = some response →
        response.code = .staleAuthority := by
  have hrun := host_process hl
  have hfirst := host_later hstopped
  have hsecond := host_later hrestarted
  rw [hold] at hrun hfirst
  rw [hdown] at hfirst hsecond
  rw [hup] at hsecond
  have hnewer := rebooted_newer hrun hfirst hsecond hmode
  have hrefused : ∀ clientBoot, ∃ status, e.refuses clientBoot request = some status ∧
      status.code = .staleAuthority := by
    intro clientBoot
    unfold Engine.refuses
    split
    · exact ⟨_, rfl, rfl⟩
    · rw [if_pos (by rw [hepoch]; exact ne_of_lt hnewer)]
      exact ⟨_, rfl, rfl⟩
  cases hworking : h.working place with
  | none => simp [Host.step, hworking]
  | some found =>
    obtain ⟨f, clientBoot, held⟩ := found
    obtain ⟨hsame, -⟩ := working_iff.mp hworking
    rw [hup, Process.up.injEq] at hsame
    subst hsame
    cases held with
    | some plan => simp [Host.step, hworking]
    | none =>
      obtain ⟨status, hstatus, hcode⟩ := hrefused clientBoot
      simp only [Host.step, hworking, Engine.handle, hstatus, Host.taken, Option.some.injEq]
      refine ⟨by rw [← hup], ?_⟩
      rintro response rfl
      exact hcode

end Hosts

/-! ## The sample -/

/-- Texts that show nothing. -/
def plainTexts : Renderers where
  classification _ := []
  plan _ := []
  attempt _ := []
  bootReport := []
  reason _ := []

/-- The sample engine, set up by its own process, and one session if any. -/
def sampleHost (count : Nat) (session : Option HostSession) : Host :=
  ⟨.up (sampleEngine 16 count), fun place => if place = 0 then session else none⟩

theorem HostLater.process {g h : Host} (hl : HostLater plainTexts {} {} g h) (a : Step) (ha : h.process.Orderly a)
    (hlimits : ∀ options opening id env, a = .boot options opening id env → options.limits = {}) :
    HostLater plainTexts {} {} g (h.step plainTexts {} (.process a)).2 := by
  refine hl.step (.process a) ha ?_
  rintro options opening id env ⟨⟩
  exact hlimits options opening id env rfl

theorem sampleHost_boots : HostLater plainTexts {} {} .start (sampleHost 2 none) := by
  have hboot := HostLater.refl.process (h := .start) (.boot {} {} FixedBytes.zero {}) trivial
    (by rintro options opening id env ⟨⟩; rfl)
  have hstep : (Host.start.step plainTexts {} (.process (.boot {} {} FixedBytes.zero {}))).2 = sampleHost 2 none := by
    show (⟨((Process.down {} {}).step (.boot {} {} FixedBytes.zero {})).2, fun _ => none⟩ : Host) = _
    rw [show (Process.down {} {}).step (.boot {} {} FixedBytes.zero {}) = (Status.ok, .up (sampleEngine 16 2)) from
      sample_boots 16]
    simp [sampleHost]
  rw [hstep] at hboot
  exact hboot

/-- The engine after an orderly call of its process. -/
theorem sampleHost_calls {n m : Nat} {operation : Operation}
    (hl : HostLater plainTexts {} {} .start (sampleHost n none))
    (hstep : (Process.up (sampleEngine 16 n)).step (.call operation {}) = (Status.ok, .up (sampleEngine 16 m))) :
    HostLater plainTexts {} {} .start (sampleHost m none) := by
  have hcall := hl.process (.call operation {}) (.inl rfl) (by simp)
  rw [show ((sampleHost n none).step plainTexts {} (.process (.call operation {}))).2 =
    ⟨((Process.up (sampleEngine 16 n)).step (.call operation {})).2, (sampleHost n none).sessions⟩ from rfl, hstep]
    at hcall
  exact hcall

theorem sampleHost_later : HostLater plainTexts {} {} .start (sampleHost 4 (some ⟨FixedBytes.zero, none⟩)) := by
  have hobserved := sampleHost_calls (sampleHost_calls sampleHost_boots (sample_intends 16)) (sample_observes 16)
  have hhello := hobserved.step (.hello 0 FixedBytes.zero) trivial (by simp)
  have hseated : ((sampleHost 4 none).step plainTexts {} (.hello 0 FixedBytes.zero)).2 =
      sampleHost 4 (some ⟨FixedBytes.zero, none⟩) := by
    simp only [Host.step, Host.seat, sampleHost, Host.mk.injEq, true_and]
    ext place
    by_cases hplace : place = 0 <;> simp [hplace]
  rw [hseated] at hhello
  exact hhello

theorem host_process_sample : Run {} Process.Orderly (sampleHost 4 (some ⟨FixedBytes.zero, none⟩)).process :=
  host_process sampleHost_later

/-- A request to dispatch whatever the plan of the sample scope is, at clock 1. -/
def sampleDispatch : Request where
  operation := .dispatch
  clientBoot := FixedBytes.zero
  epoch := 1
  body := encoded (putBytes sampleScope.text ++ putI64 1 ++ putBytes [])

/-- The body of a Dispatch request, as a client writes it. -/
theorem readCommand_dispatch (limits : RuntimeLimits) {scope : ScopeId} (hscope : scope.empty = false)
    (now : UnixMillis) {expected : Bytes}
    (hfits : encoded (putBytes scope.text ++ putI64 now ++ putBytes expected) ≠ []) :
    readCommand limits .dispatch (encoded (putBytes scope.text ++ putI64 now ++ putBytes expected)) =
      .ok (.dispatch scope now expected) := by
  obtain ⟨htotal, hlength, himage⟩ := encoded_ne_nil hfits
  have hexpected : expected.length ≤ kMaxCanonicalBytes := by
    simp only [Script.total_append, total_putBytes] at htotal
    simp only [Script.image_append, List.length_append, image_putBytes htotal.2, length_prefixed] at hlength
    omega
  have hfields : Reader.exactly (do return (← Read.bytes, ← Read.i64, ← Read.bytes))
      (encoded (putBytes scope.text ++ putI64 now ++ putBytes expected)) = some (scope.text, now, expected) := by
    rw [himage]
    simp only [Script.image_append, List.append_assoc]
    apply Reads.exactly
    refine Reads.bind (reads_text scope) ?_
    refine Reads.bind (reads_i64 now) ?_
    exact Reads.bind_end (reads_bytes hexpected) (Reads.pure _)
  unfold readCommand readBody
  dsimp only
  rw [hfields]
  show (validated "invalid scope identity" (StringId.tryParse scope.text)).bind
    (fun scope => .ok (Command.dispatch scope now expected)) = _
  rw [StringId.tryParse_text hscope]
  rfl

/-- The request leaves its session with the plan in hand. -/
theorem sample_held {plan : ReconciliationPlan}
    (hplan : (sampleEngine 16 4).plan {} ⟨sampleScope, none, 1⟩ = .ok plan) :
    ((sampleHost 4 (some ⟨FixedBytes.zero, none⟩)).step plainTexts {} (.request 0 sampleDispatch {})).2 =
      sampleHost 4 (some ⟨FixedBytes.zero, some plan⟩) := by
  have hread : readCommand {} sampleDispatch.operation sampleDispatch.body = .ok (.dispatch sampleScope 1 []) :=
    @readCommand_dispatch {} sampleScope (by decide) 1 [] (by decide)
  have hworking : (sampleHost 4 (some ⟨FixedBytes.zero, none⟩)).working 0 =
      some (sampleEngine 16 4, ⟨FixedBytes.zero, none⟩) := rfl
  have hadmits : (sampleEngine 16 4).refuses FixedBytes.zero sampleDispatch = none := by decide
  have hhandled : (sampleEngine 16 4).handle plainTexts {} FixedBytes.zero sampleDispatch {} =
      (.holding plan, sampleEngine 16 4) := by
    unfold Engine.handle
    rw [hadmits, hread]
    simp [Engine.perform, hplan]
  unfold Host.step
  dsimp only
  rw [hworking]
  dsimp only
  rw [hhandled]
  simp only [Host.taken, Host.seat, sampleHost, Host.mk.injEq, true_and]
  ext place
  by_cases hplace : place = 0 <;> simp [hplace]

/-- The sample request is answered with what its plan asks for. -/
theorem wire_dispatch_current_sample : ∃ plan result,
    HostLater plainTexts {} {} .start (sampleHost 4 (some ⟨FixedBytes.zero, some plan⟩)) ∧ result.intents ≠ [] ∧
    ((sampleHost 4 (some ⟨FixedBytes.zero, some plan⟩)).step plainTexts {} (.resume 0 {})).1 =
      some (fromStatus Status.ok (dispatchText plan result)) := by
  obtain ⟨plan, d, h⟩ := sample_planned
  have hresult := congrArg Prod.fst (h.dispatched (show ({} : CallEnv).faults = [] from rfl))
  have hheld := sampleHost_later.step (.request 0 sampleDispatch {}) (.inl rfl) (by simp)
  rw [sample_held h.made] at hheld
  obtain ⟨planner, env, request, -, -, -, hanswer⟩ :=
    @wire_dispatch_current _ _ _ _ (sampleEngine 16 4) 0 FixedBytes.zero plan hheld rfl
  exact ⟨plan, _, hheld, by simp, (hanswer {} _ hresult).1⟩

/-- The sample store, booted a second time. -/
def rebootedEngine : Engine :=
  Engine.on {} {} ⟨2, FixedBytes.zero⟩ 3 (told (sampleEvents.take 2) ++ told [.epochAdvance 2])
    (sampleEvents.take 2 ++ [.epochAdvance 2])

theorem sample_reboots (last : DurableState) : Process.step (.down (recorded {} {} (told (sampleEvents.take 2))
    (sampleEvents.take 2)).directory last) (.boot {} {} FixedBytes.zero {}) = (Status.ok, .up rebootedEngine) := by
  apply reboot_recorded (sample_reopens 2) rfl rfl rfl
  · rfl
  · decide
  · rfl
  · intro x hx
    rw [List.mem_singleton.mp hx]
    exact ⟨trivial, (brief_epoch 2).fits (sample_ample 16)⟩

/-- The host behind the restart, with a session that has said hello again. -/
def rebootedHost : Host := (⟨.up rebootedEngine, fun _ => none⟩ : Host).seat 0 (some ⟨FixedBytes.zero, none⟩)

/-- There, the sample request is out of date. -/
theorem earlier_epochs_refused_sample :
    (rebootedHost.step plainTexts {} (.request 0 sampleDispatch {})).2 = rebootedHost ∧
    ∀ response, (rebootedHost.step plainTexts {} (.request 0 sampleDispatch {})).1 = some response →
      response.code = .staleAuthority := by
  have hexit : (Process.up (sampleEngine 16 2)).step .exit = (Status.ok, .down (recorded {} {}
    (told (sampleEvents.take 2)) (sampleEvents.take 2)).directory (sampleEngine 16 2).store.state) := rfl
  have hstopped := HostLater.refl.process (h := sampleHost 2 none) .exit trivial (by simp)
  rw [show ((sampleHost 2 none).step plainTexts {} (.process .exit)).2 =
    ⟨((Process.up (sampleEngine 16 2)).step .exit).2, fun _ => none⟩ from rfl, hexit] at hstopped
  have hrestarted := HostLater.refl.process (h := ⟨.down (recorded {} {} (told (sampleEvents.take 2))
    (sampleEvents.take 2)).directory (sampleEngine 16 2).store.state, fun _ => none⟩) (.boot {} {} FixedBytes.zero {})
    trivial (by rintro options opening id env ⟨⟩; rfl)
  rw [show (Host.step plainTexts {} ⟨.down (recorded {} {} (told (sampleEvents.take 2))
      (sampleEvents.take 2)).directory (sampleEngine 16 2).store.state, fun _ => none⟩
      (.process (.boot {} {} FixedBytes.zero {}))).2 =
    ⟨(Process.step (.down (recorded {} {} (told (sampleEvents.take 2)) (sampleEvents.take 2)).directory
      (sampleEngine 16 2).store.state) (.boot {} {} FixedBytes.zero {})).2, fun _ => none⟩ from rfl, sample_reboots]
    at hrestarted
  have hhello := hrestarted.step (.hello 0 FixedBytes.zero) trivial (by simp)
  exact @earlier_epochs_refused plainTexts {} {} rebootedHost rebootedEngine 0 _ _ (sampleEngine 16 2) _ _
    sampleHost_boots rfl hstopped rfl hhello rfl rfl sampleDispatch rfl {}

end FabricReconciliation
