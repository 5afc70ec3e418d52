import FabricReconciliation.Records

/-!
# Planning (`engine.cpp:213-257`, `engine.cpp:473-775`)

`BuildPlanLocked` as a function of the durable state, the live incarnation, the limits, the request
and one clock reading: classify the scope, assess the authority of each drifting subject, and seal the
decisions into a plan. Work counters and statistics are left out.
-/

namespace FabricReconciliation

open Lib

/-- The live epoch and boot identity of one engine. -/
structure Incarnation where
  epoch : CoordinatorEpoch
  boot : BootId
deriving DecidableEq

/-- `FenceHoldsFor` (`engine.cpp:217`). -/
def fenceHoldsFor (s : DurableState) (scope : ScopeId) (subject : SubjectId) (epoch : CoordinatorEpoch) : Bool :=
  s.fences.values.any fun fence =>
    fence.scope = scope && (fence.subject.empty || fence.subject = subject) && decide (epoch < fence.fencedBelow)

/-- `BuildAuthority` (`engine.cpp:236`): bound to the active policy, whatever policy was planned under. -/
def buildAuthority (s : DurableState) (live : Incarnation) (evidence : ScopeEvidenceRef) : AuthorityVector where
  coordinatorEpoch := live.epoch
  boot := live.boot
  policyId := s.policy.id
  policyVersion := s.policy.version
  policyDigest := computePolicyDigest s.policy
  definition := evidence.definition
  intentGeneration := evidence.intentGeneration
  intent := evidence.intent
  intentDigest := evidence.intentDigest
  observation := evidence.observation
  observationGeneration := evidence.observationGeneration
  observationReporter := evidence.reporter
  observationDigest := evidence.observationDigest
  observationEpoch := evidence.receivedEpoch
  observationReceivedUnixMs := evidence.receivedUnixMs

/-- The committed intent of a scope, as a candidate list. -/
def intentCandidates (s : DurableState) (scope : ScopeId) : List (Option IntentDocument) :=
  match s.intents.find? scope with
  | none => []
  | some d => [some d]

/-- The retained observations of a scope, as a candidate list. -/
def observationCandidates (s : DurableState) (scope : ScopeId) : List (Option ObservationDocument) :=
  ((s.observations.find? scope).getD []).map some

/-- The input `BuildPlanLocked` hands to `ClassifyScope`. -/
def classificationInput (s : DurableState) (live : Incarnation) (scope : ScopeId)
    (policy : ReconciliationPolicy) (now : UnixMillis) : ClassificationInput where
  scope := scope
  intents := intentCandidates s scope
  observations := observationCandidates s scope
  committedIntentGeneration := match s.intents.find? scope with | none => 0 | some d => d.generation
  hasCommittedIntent := (s.intents.find? scope).isSome
  policy := some policy
  liveEpoch := live.epoch
  nowUnixMs := now

/-! ## One decision -/

/-- What the drift class alone says: action, disposition, reason and the explanation so far. -/
structure Proposal where
  action : ActionKind
  disposition : DecisionDisposition
  reason : ReasonCode
  explanation : Explanation

/-- A permitted action, or its refusal by policy. -/
def proposePermitted (permitted : Bool) (action : ActionKind) (forbidden : ReasonCode) (record : DriftRecord)
    (explanation : Explanation) : Proposal :=
  if permitted then ⟨action, .actionable, record.reason, explanation.add .actionEligible⟩
  else ⟨.none, .blocked, forbidden, explanation.add forbidden⟩

/-- The explanation of one delta of a mismatched subject. -/
def explainDelta (explanation : Explanation) (delta : AttributeDelta) : Explanation :=
  if delta.kind = .observeOnly then
    explanation.add .policyForbidsApplyMismatch (ascii "observe-only attribute " ++ delta.key.text)
  else if delta.kind ≠ .unmanaged then
    explanation.add .classifiedAttributeMismatch
      (delta.key.text ++ ascii " intended=" ++ delta.intended.render ++ ascii " observed=" ++ delta.observed.render)
  else explanation

/-- A mismatched subject: observe-only deltas veto the action. -/
def proposeMismatched (policy : ReconciliationPolicy) (record : DriftRecord) (explanation : Explanation) :
    Proposal :=
  let explained := record.deltas.foldl explainDelta explanation
  let observeOnly := record.deltas.any fun d => d.kind = .observeOnly
  let actionable := record.deltas.any fun d => d.kind ≠ .observeOnly && d.kind ≠ .unmanaged
  if !policy.permitApplyMismatched then
    ⟨.none, .blocked, .policyForbidsApplyMismatch, explained.add .policyForbidsApplyMismatch⟩
  else if actionable && !observeOnly then
    ⟨.applyDesired, .actionable, record.reason, explained.add .actionEligible⟩
  else if observeOnly then ⟨.none, .blocked, .policyForbidsApplyMismatch, explained⟩
  else ⟨.none, .alreadySatisfied, .classifiedAlreadyConverged, explained⟩

/-- The switch over the drift class (`engine.cpp:595-680`). -/
def propose (policy : ReconciliationPolicy) (record : DriftRecord) (explanation : Explanation) : Proposal :=
  match record.drift with
  | .alreadyConverged => ⟨.none, .alreadySatisfied, record.reason, explanation⟩
  | .missing =>
    proposePermitted policy.permitApplyMissing .applyDesired .policyForbidsApplyMissing record explanation
  | .unexpected =>
    proposePermitted policy.permitWithdrawUnexpected .withdrawSubject .policyForbidsWithdrawUnexpected record
      explanation
  | .mismatched => proposeMismatched policy record explanation
  | .staleObservation | .staleIntent | .unknown | .invalid =>
    ⟨.none, .indeterminate, record.reason, explanation.add .driftIsIndeterminate⟩
  | .conflict => ⟨.none, .conflicted, record.reason, explanation.add .driftIsConflicted⟩
  | .unsupported => ⟨.none, .unsupported, record.reason, explanation.add .subjectKindUnsupported⟩

/-- What every decision of one plan shares. -/
structure PlanBasis where
  limits : RuntimeLimits
  state : DurableState
  live : Incarnation
  policy : ReconciliationPolicy
  evidence : ScopeEvidenceRef
  intent : Option IntentDocument
  observation : Option ObservationDocument

namespace PlanBasis

variable (b : PlanBasis)

def authority : AuthorityVector := buildAuthority b.state b.live b.evidence

def liveAuthority : LiveAuthority :=
  ⟨b.live.epoch, b.live.boot, b.policy.id, b.policy.version, computePolicyDigest b.policy⟩

def fresh : Bool := decide (b.evidence.freshness = .fresh)

def assessment (record : DriftRecord) : AuthorityAssessment :=
  assessAuthority b.authority b.liveAuthority b.evidence.freshness.reasonOf b.fresh
    (fenceHoldsFor b.state record.scope record.subject b.live.epoch)

def desired (subject : SubjectId) : SubjectState :=
  match b.intent with
  | none => OrdMap.empty
  | some d => match d.subjects.find? subject with
    | none => OrdMap.empty
    | some declared => declared.desired

def expectedObserved (subject : SubjectId) : SubjectState :=
  match b.observation with
  | none => OrdMap.empty
  | some d => match d.subjects.find? subject with
    | none => OrdMap.empty
    | some seen => seen.observed

/-- The proposal, withdrawn when its authority is not proven. -/
def settled (record : DriftRecord) : Proposal :=
  let assessment := b.assessment record
  let explanation := (Explanation.withBound b.limits.maxExplanationSteps).add record.reason
  let assessed := if assessment.proven then explanation.add .authorityProven
    else explanation.add assessment.reason (renderAuthorityMask assessment.failedComponents)
  let proposal := propose b.policy record assessed
  if proposal.disposition = .actionable && !assessment.proven then
    { proposal with
      disposition := if fenceHoldsFor b.state record.scope record.subject b.live.epoch then .fenced else .blocked
      action := .none
      reason := assessment.reason }
  else proposal

/-- One turn of the decision loop. -/
def decision (record : DriftRecord) : Decision where
  scope := record.scope
  subject := record.subject
  drift := record.drift
  reason := (b.settled record).reason
  action := (b.settled record).action
  disposition := (b.settled record).disposition
  authority := b.authority
  idempotencyKey := computeIdempotencyKey record.scope record.subject (b.settled record).action b.authority
    (b.desired record.subject) (b.expectedObserved record.subject)
  explanation := (b.settled record).explanation
  evidence := record.evidence

end PlanBasis

/-- An actionable decision has proven authority. -/
theorem decision_proven {b : PlanBasis} {record : DriftRecord} (h : (b.decision record).disposition = .actionable) :
    (b.assessment record).proven = true := by
  have hwithdrawn : ∀ (proposal : Proposal) (proven fenced : Bool) (reason : ReasonCode),
      (if proposal.disposition = .actionable && !proven then
        { proposal with
          disposition := if fenced then .fenced else .blocked
          action := .none
          reason := reason }
      else proposal).disposition = .actionable → proven = true := by
    intro proposal proven fenced reason hdisposition
    by_contra hnot
    simp only [Bool.not_eq_true] at hnot
    subst hnot
    simp only [Bool.not_false, Bool.and_true, decide_eq_true_eq] at hdisposition
    by_cases hactionable : proposal.disposition = .actionable
    · rw [if_pos hactionable] at hdisposition
      cases fenced <;> simp at hdisposition
    · rw [if_neg hactionable] at hdisposition
      exact hactionable hdisposition
  exact hwithdrawn _ _ _ _ h

/-! ## The whole plan -/

/-- A verdict with its reason and explanation. -/
structure ScopeVerdict where
  verdict : ConvergenceVerdict
  reason : ReasonCode
  explanation : Explanation

def DecisionDisposition.isOpen : DecisionDisposition → Bool
  | indeterminate | conflicted | unsupported | invalid => true
  | _ => false

def DecisionDisposition.isBlocked : DecisionDisposition → Bool
  | blocked | fenced => true
  | _ => false

/-- The verdict ladder (`engine.cpp:730-770`). -/
def scopeVerdict (limits : RuntimeLimits) (evidence : ScopeEvidenceRef) (truncated : Bool)
    (decisions : List Decision) : ScopeVerdict :=
  let start := Explanation.withBound limits.maxExplanationSteps
  let count (value : DecisionDisposition) : Nat := decisions.countP fun d => d.disposition = value
  let number (n : Nat) : Bytes := ascii (toString n)
  if truncated then
    ⟨.searchLimitReached, .planTruncated,
      start.add .planActionLimitReached (ascii "decisions bounded at " ++ number limits.maxPlanActions.toNat)⟩
  else if !evidence.hasIntent then ⟨.indeterminate, .noIntentForScope, start.add .noIntentForScope⟩
  else if !evidence.hasObservation then
    ⟨.indeterminate, .noObservationForScope, start.add .noObservationForScope⟩
  else if evidence.freshness ≠ .fresh then
    ⟨.indeterminate, evidence.freshness.reasonOf,
      start.add evidence.freshness.reasonOf (ascii evidence.freshness.toText)⟩
  else if decisions.any fun d => d.disposition.isOpen then
    ⟨.indeterminate, .driftIsIndeterminate,
      start.add .driftIsIndeterminate (number (count .indeterminate) ++ ascii " indeterminate subjects")⟩
  else if decisions.any fun d => d.disposition = .actionable then
    ⟨.convergenceRequired, .actionEligible,
      start.add .actionEligible (number (count .actionable) ++ ascii " actions required")⟩
  else if decisions.any fun d => d.disposition.isBlocked then
    ⟨.provenBlocked, .driftIsConflicted,
      start.add .driftIsConflicted (ascii "no legal plan reaches the intent under the active policy")⟩
  else
    ⟨.convergedProven, .classifiedAlreadyConverged,
      start.add .classifiedAlreadyConverged (number decisions.length ++ ascii " subjects proven equal")⟩

/-- The plan over a basis and the classified records. The loop stops at `max_plan_actions`. -/
def assemblePlan (b : PlanBasis) (scope : ScopeId) (records : List DriftRecord) : ReconciliationPlan :=
  let decisions := (records.take b.limits.maxPlanActions.toNat).map b.decision
  let truncated := decide (b.limits.maxPlanActions.toNat < records.length)
  let verdict := scopeVerdict b.limits b.evidence truncated decisions
  ReconciliationPlan.sealed
    { scope := scope
      definition := b.evidence.definition
      epoch := b.live.epoch
      boot := b.live.boot
      policyId := b.policy.id
      policyVersion := b.policy.version
      policyDigest := computePolicyDigest b.policy
      intentGeneration := b.evidence.intentGeneration
      intent := b.evidence.intent
      intentDigest := b.evidence.intentDigest
      observation := b.evidence.observation
      observationGeneration := b.evidence.observationGeneration
      reporter := b.evidence.reporter
      observationDigest := b.evidence.observationDigest
      observationEpoch := b.evidence.receivedEpoch
      observationReceivedUnixMs := b.evidence.receivedUnixMs
      freshness := b.evidence.freshness
      verdict := verdict.verdict
      evidence := b.evidence.evidence
      truncated := truncated
      decisions := decisions
      scopeExplanation := verdict.explanation
      scopeReason := verdict.reason
      planDigest := FixedBytes.zero
      planId := [] }

/-- `BuildPlanLocked` (`engine.cpp:484`). `clock` is the reading used when the request carries none. -/
def buildPlan (limits : RuntimeLimits) (s : DurableState) (live : Incarnation) (request : PlanRequest)
    (clock : UnixMillis) : Except Status ReconciliationPlan :=
  if request.scope.empty then .error ⟨.rejected, .unsupportedInput, "plan requires a scope"⟩
  else if !s.hasPolicy then .error ⟨.preconditionFailed, .noIntentForScope, "store holds no policy"⟩
  else
    let policy := request.policy.getD s.policy
    let now := if request.nowUnixMs ≠ 0 then request.nowUnixMs else clock
    match classifyScope (classificationInput s live request.scope policy now) with
    | .error status => .error status
    | .ok report =>
      .ok (assemblePlan
        { limits := limits, state := s, live := live, policy := policy, evidence := report.evidence
          intent := s.intents.find? request.scope
          observation := (selectCurrentObservation (observationCandidates s request.scope)).selected }
        request.scope report.records)

/-- The basis of a plan. -/
def planBasis (limits : RuntimeLimits) (s : DurableState) (live : Incarnation) (request : PlanRequest)
    (evidence : ScopeEvidenceRef) : PlanBasis where
  limits := limits
  state := s
  live := live
  policy := request.policy.getD s.policy
  evidence := evidence
  intent := s.intents.find? request.scope
  observation := (selectCurrentObservation (observationCandidates s request.scope)).selected

theorem buildPlan_ok {limits : RuntimeLimits} {s : DurableState} {live : Incarnation} {request : PlanRequest}
    {clock : UnixMillis} {plan : ReconciliationPlan} (h : buildPlan limits s live request clock = .ok plan) :
    ∃ report, classifyScope (classificationInput s live request.scope (request.policy.getD s.policy)
        (if request.nowUnixMs ≠ 0 then request.nowUnixMs else clock)) = .ok report ∧
      plan = assemblePlan (planBasis limits s live request report.evidence) request.scope report.records := by
  unfold buildPlan at h
  split at h
  · simp at h
  split at h
  · simp at h
  simp only at h
  split at h
  · simp at h
  next report hreport =>
    rw [Except.ok.injEq] at h
    exact ⟨report, hreport, h.symm⟩

/-- A plan does not depend on the attempts and their outcomes. -/
theorem buildPlan_attempts (limits : RuntimeLimits) (s : DurableState) (sequence : RecordSequence)
    (attempts : OrdMap AttemptId AttemptRecord) (next : AttemptId) (outcomes : List ReconciliationOutcome)
    (live : Incarnation) (request : PlanRequest) (clock : UnixMillis) :
    buildPlan limits { s with sequence := sequence, attempts := attempts, nextAttempt := next, outcomes := outcomes } live
        request clock = buildPlan limits s live request clock := rfl

end FabricReconciliation
