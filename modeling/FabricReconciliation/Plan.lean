import FabricReconciliation.Authority
import FabricReconciliation.Drift

/-!
# Plans, decisions and explanations (`explain.hpp`, `plan.hpp`, `plan.cpp`)

The data of a reconciliation plan, its canonical content and the two digests computed from it: the
idempotency key of one action and the identifier of the whole plan.
-/

namespace FabricReconciliation

open Lib

/-! ## Explanations -/

/-- `ExplanationStep`. -/
structure ExplanationStep where
  code : ReasonCode
  detail : Bytes
deriving DecidableEq

/-- `Explanation`: an ordered list of steps, bounded by `maxSteps`. -/
structure Explanation where
  steps : List ExplanationStep := []
  maxSteps : UInt64 := 16
  truncated : Bool := false
deriving DecidableEq

namespace Explanation

/-- `Explanation(max_steps)`. -/
def withBound (maxSteps : UInt64) : Explanation := { maxSteps := if maxSteps = 0 then 1 else maxSteps }

/-- `Explanation::Add` (`explain.cpp:9`). -/
def add (e : Explanation) (code : ReasonCode) (detail : Bytes := []) : Explanation :=
  if e.maxSteps.toNat ≤ e.steps.length then { e with truncated := true }
  else { e with steps := e.steps ++ [⟨code, detail⟩] }

end Explanation

/-! ## Decisions and plans -/

/-- `ActionKind` (`plan.hpp:31`). -/
inductive ActionKind
  | none | applyDesired | withdrawSubject
deriving DecidableEq

instance : Enumeration ActionKind where
  table := [.none, .applyDesired, .withdrawSubject]
  complete a := by cases a <;> decide

/-- `DecisionDisposition` (`plan.hpp:43`). -/
inductive DecisionDisposition
  | invalid | actionable | blocked | conflicted | indeterminate | alreadySatisfied | unsupported | fenced
deriving DecidableEq

instance : Enumeration DecisionDisposition where
  table := [.invalid, .actionable, .blocked, .conflicted, .indeterminate, .alreadySatisfied,
    .unsupported, .fenced]
  complete a := by cases a <;> decide

/-- `ConvergenceVerdict` (`plan.hpp:86`). -/
inductive ConvergenceVerdict
  | invalid | convergedProven | convergenceRequired | provenBlocked | indeterminate | searchLimitReached
deriving DecidableEq

instance : Enumeration ConvergenceVerdict where
  table := [.invalid, .convergedProven, .convergenceRequired, .provenBlocked, .indeterminate,
    .searchLimitReached]
  complete a := by cases a <;> decide

/-- `Decision` (`plan.hpp:66`). -/
structure Decision where
  scope : ScopeId
  subject : SubjectId
  drift : DriftClass
  reason : ReasonCode
  action : ActionKind
  disposition : DecisionDisposition
  authority : AuthorityVector
  idempotencyKey : Digest
  explanation : Explanation
  evidence : EvidenceClass
deriving DecidableEq

/-- `ReconciliationPlan` (`plan.hpp:112`). -/
structure ReconciliationPlan where
  scope : ScopeId
  definition : DefinitionId
  epoch : CoordinatorEpoch
  boot : BootId
  policyId : PolicyId
  policyVersion : PolicyVersion
  policyDigest : Digest
  intentGeneration : IntentGeneration
  intent : IntentId
  intentDigest : Digest
  observation : ObservationId
  observationGeneration : ObservationGeneration
  reporter : ReporterId
  observationDigest : Digest
  observationEpoch : CoordinatorEpoch
  observationReceivedUnixMs : UnixMillis
  freshness : FreshnessVerdict
  verdict : ConvergenceVerdict
  evidence : EvidenceClass
  truncated : Bool
  decisions : List Decision
  scopeExplanation : Explanation
  scopeReason : ReasonCode
  planDigest : Digest
  planId : Bytes
deriving DecidableEq

/-- `ActionIntent` (`plan.hpp:180`). -/
structure ActionIntent where
  scope : ScopeId
  subject : SubjectId
  action : ActionKind
  desired : SubjectState
  expectedObserved : SubjectState
  authority : AuthorityVector
  idempotencyKey : Digest
  attempt : AttemptId
  epoch : CoordinatorEpoch
  boot : BootId
  issuedUnixMs : UnixMillis
deriving DecidableEq

/-- `PlanRequest` (`plan.hpp:166`); `policy = none` plans under the active policy. -/
structure PlanRequest where
  scope : ScopeId
  policy : Option ReconciliationPolicy
  nowUnixMs : UnixMillis
deriving DecidableEq

/-! ## Digests -/

def idempotencyScript (scope : ScopeId) (subject : SubjectId) (action : ActionKind)
    (authority : AuthorityVector) (desired expectedObserved : SubjectState) : Script :=
  putU16 kCanonicalSchemaVersion ++ (putBytes scope.text ++ (putBytes subject.text ++
  (putEnum action ++ (putU64 authority.intentGeneration ++ (putDigest authority.intentDigest ++
  (putU64 authority.observationGeneration ++ (putDigest authority.observationDigest ++
  (putBytes authority.definition.text ++ (putDigest (digestOfState desired) ++
  putDigest (digestOfState expectedObserved))))))))))

/-- `ComputeIdempotencyKey` (`plan.cpp:103`). -/
def computeIdempotencyKey (scope : ScopeId) (subject : SubjectId) (action : ActionKind)
    (authority : AuthorityVector) (desired expectedObserved : SubjectState) : Digest :=
  digestOf (idempotencyScript scope subject action authority desired expectedObserved)

def encodeExplanation (e : Explanation) : Script :=
  putCount e.steps.length ++ putEach (fun step => putReason step.code ++ putBytes step.detail) e.steps

def encodeDecision (d : Decision) : Script :=
  putBytes d.scope.text ++ (putBytes d.subject.text ++ (putEnum d.drift ++ (putReason d.reason ++
  (putEnum d.action ++ (putEnum d.disposition ++ (putDigest d.idempotencyKey ++
  (putEnum d.evidence ++ encodeExplanation d.explanation)))))))

/-- `EncodePlanContent` (`plan.cpp:10`). -/
def encodePlanContent (plan : ReconciliationPlan) : Script :=
  putU16 kCanonicalSchemaVersion ++ (putBytes plan.scope.text ++ (putBytes plan.definition.text ++
  (putU64 plan.epoch ++ (putDigest plan.policyDigest ++ (putU64 plan.policyVersion ++
  (putBytes plan.intent.text ++ (putU64 plan.intentGeneration ++ (putDigest plan.intentDigest ++
  (putBytes plan.observation.text ++ (putU64 plan.observationGeneration ++
  (putBytes plan.reporter.text ++ (putDigest plan.observationDigest ++ (putEnum plan.verdict ++
  (putEnum plan.evidence ++ (putBool plan.truncated ++ (putReason plan.scopeReason ++
  (encodeExplanation plan.scopeExplanation ++ (putCount plan.decisions.length ++
  putEach encodeDecision plan.decisions))))))))))))))))))

namespace ReconciliationPlan

/-- `MutationCount` (`plan.cpp:123`). -/
def mutationCount (plan : ReconciliationPlan) : Nat :=
  plan.decisions.countP fun d => d.disposition = .actionable

/-- `CountDisposition` (`plan.cpp:133`). -/
def countDisposition (plan : ReconciliationPlan) (value : DecisionDisposition) : Nat :=
  plan.decisions.countP fun d => d.disposition = value

/-- `Seal` (`plan.cpp:153`). -/
def sealed (plan : ReconciliationPlan) : ReconciliationPlan :=
  let digest := digestOf (encodePlanContent plan)
  { plan with planDigest := digest, planId := toHex digest.bytes }

end ReconciliationPlan

end FabricReconciliation
