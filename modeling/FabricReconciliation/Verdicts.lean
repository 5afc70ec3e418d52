import FabricReconciliation.Classifier
import FabricReconciliation.Guard
import FabricReconciliation.Streams

/-!
# What a plan's decisions and verdict rest on (`engine.cpp:541-775`)

`BuildPlanLocked` decides in five places: the selection, the freshness, the class, the policy gate and the
authority assessment, which may still withdraw the action at the end. The results put them together again.

* **`actionable_justified`** — the decisions are the first classifier records in subject order, and every
  actionable one has all that it takes: whatever policy and clock the request names;
* **`converged_iff_equal`** — `ConvergedProven` is exactly that the two documents are equal in what the policy
  manages, although the verdict is read off the dispositions; such a plan acts on nothing.
-/

namespace FabricReconciliation

open Lib

/-! ## One decision -/

/-- The policy permits the action that the class of a record calls for. -/
def Permitted (policy : ReconciliationPolicy) (record : DriftRecord) : Prop :=
  record.drift = .missing ∧ policy.permitApplyMissing = true ∨
  record.drift = .unexpected ∧ policy.permitWithdrawUnexpected = true ∨
  record.drift = .mismatched ∧ policy.permitApplyMismatched = true ∧
    (∃ delta ∈ record.deltas, delta.kind ≠ .observeOnly ∧ delta.kind ≠ .unmanaged) ∧
    ∀ delta ∈ record.deltas, delta.kind ≠ .observeOnly

section Proposals
variable {policy : ReconciliationPolicy} {record : DriftRecord} {explanation : Explanation}

theorem proposePermitted_disposition {permitted : Bool} {action : ActionKind} {forbidden : ReasonCode} :
    (proposePermitted permitted action forbidden record explanation).disposition =
      if permitted = true then .actionable else .blocked := by
  cases permitted <;> rfl

theorem proposeMismatched_disposition :
    (proposeMismatched policy record explanation).disposition =
      if policy.permitApplyMismatched = false then .blocked
      else if record.deltas.any (fun d => d.kind = .observeOnly) = true then .blocked
      else if record.deltas.any (fun d => d.kind ≠ .observeOnly && d.kind ≠ .unmanaged) = true then .actionable
      else .alreadySatisfied := by
  unfold proposeMismatched
  cases policy.permitApplyMismatched with
  | false => rfl
  | true =>
    cases hobserve : record.deltas.any fun d => d.kind = .observeOnly with
    | true => simp
    | false =>
      cases hact : record.deltas.any fun d => d.kind ≠ .observeOnly && d.kind ≠ .unmanaged with
      | true => simp
      | false => simp

/-- A proposal acts exactly when it is actionable. -/
theorem propose_none : (propose policy record explanation).action = .none ↔
    (propose policy record explanation).disposition ≠ .actionable := by
  have hpermitted : ∀ permitted action forbidden, action ≠ ActionKind.none →
      ((proposePermitted permitted action forbidden record explanation).action = .none ↔
        (proposePermitted permitted action forbidden record explanation).disposition ≠ .actionable) := by
    intro permitted action forbidden haction
    cases permitted <;> simp [proposePermitted, haction]
  unfold propose
  cases record.drift with
  | missing => exact hpermitted _ _ _ (by decide)
  | unexpected => exact hpermitted _ _ _ (by decide)
  | mismatched =>
    simp only [proposeMismatched]
    split
    · simp
    split
    · simp
    split <;> simp
  | _ => simp

/-- A proposal is actionable exactly when the policy permits the action. -/
theorem propose_actionable :
    (propose policy record explanation).disposition = .actionable ↔ Permitted policy record := by
  unfold propose Permitted
  cases hdrift : record.drift with
  | missing => simp [proposePermitted_disposition]
  | unexpected => simp [proposePermitted_disposition]
  | mismatched =>
    simp only [proposeMismatched_disposition]
    cases policy.permitApplyMismatched with
    | false => simp
    | true =>
      cases hobserve : record.deltas.any fun d => d.kind = .observeOnly with
      | true =>
        obtain ⟨delta, hdelta, hkind⟩ := List.any_eq_true.mp hobserve
        have hveto : ¬ ∀ delta ∈ record.deltas, delta.kind ≠ .observeOnly := fun h => h delta hdelta (by simpa using hkind)
        simp [hveto]
      | false =>
        have hnone : ∀ delta ∈ record.deltas, delta.kind ≠ .observeOnly := by simpa using hobserve
        have hiff : record.deltas.any (fun d => d.kind ≠ .observeOnly && d.kind ≠ .unmanaged) = true ↔
            ∃ delta ∈ record.deltas, delta.kind ≠ .observeOnly ∧ delta.kind ≠ .unmanaged := by simp
        cases hact : record.deltas.any fun d => d.kind ≠ .observeOnly && d.kind ≠ .unmanaged with
        | true => simpa using ⟨hiff.mp hact, hnone⟩
        | false =>
          have hempty : ¬ ∃ delta ∈ record.deltas, delta.kind ≠ .observeOnly ∧ delta.kind ≠ .unmanaged :=
            fun h => Bool.false_ne_true (hact.symm.trans (hiff.mpr h))
          simp [hempty]
  | _ => simp

/-- A proposal is satisfied for converged subjects, and for mismatched ones without any managed delta. -/
theorem propose_satisfied (h : (propose policy record explanation).disposition = .alreadySatisfied) :
    record.drift = .alreadyConverged ∨
      record.drift = .mismatched ∧ ∀ delta ∈ record.deltas, delta.kind = .unmanaged := by
  unfold propose at h
  cases hdrift : record.drift with
  | alreadyConverged => exact .inl rfl
  | mismatched =>
    rw [hdrift] at h
    simp only [proposeMismatched_disposition] at h
    split at h
    · simp at h
    split at h
    · simp at h
    next hobserve =>
      split at h
      · simp at h
      next hact =>
        refine .inr ⟨rfl, fun delta hdelta => ?_⟩
        simp only [List.any_eq_true, not_exists, not_and, Bool.and_eq_true, decide_eq_true_eq, not_not] at hobserve hact
        exact hact delta hdelta (hobserve delta hdelta)
  | missing =>
    simp only [hdrift, proposePermitted_disposition] at h
    split at h <;> simp at h
  | unexpected =>
    simp only [hdrift, proposePermitted_disposition] at h
    split at h <;> simp at h
  | _ => simp [hdrift] at h

end Proposals

namespace PlanBasis
variable {b : PlanBasis} {record : DriftRecord}

/-- The explanation that a proposal starts from. -/
def assessed (b : PlanBasis) (record : DriftRecord) : Explanation :=
  let explanation := (Explanation.withBound b.limits.maxExplanationSteps).add record.reason
  if (b.assessment record).proven then explanation.add .authorityProven
  else explanation.add (b.assessment record).reason (renderAuthorityMask (b.assessment record).failedComponents)

/-- A decision is the proposal, or its withdrawal when the authority is not proven. -/
theorem settled_cases (b : PlanBasis) (record : DriftRecord) :
    (b.settled record = propose b.policy record (b.assessed record) ∧
      ((b.settled record).disposition = .actionable → (b.assessment record).proven = true)) ∨
    (propose b.policy record (b.assessed record)).disposition = .actionable ∧
      (b.assessment record).proven = false ∧ (b.settled record).action = .none ∧
      ((b.settled record).disposition = .fenced ∨ (b.settled record).disposition = .blocked) := by
  have hsettled : b.settled record =
      if (propose b.policy record (b.assessed record)).disposition = .actionable && !(b.assessment record).proven then
        { propose b.policy record (b.assessed record) with
          disposition := if fenceHoldsFor b.state record.scope record.subject b.live.epoch then .fenced else .blocked
          action := .none
          reason := (b.assessment record).reason }
      else propose b.policy record (b.assessed record) := rfl
  by_cases hwithdrawn : ((propose b.policy record (b.assessed record)).disposition = .actionable &&
      !(b.assessment record).proven) = true
  · right
    rw [if_pos hwithdrawn] at hsettled
    simp only [Bool.and_eq_true, decide_eq_true_eq, Bool.not_eq_true'] at hwithdrawn
    rw [hsettled]
    refine ⟨hwithdrawn.1, hwithdrawn.2, rfl, ?_⟩
    cases fenceHoldsFor b.state record.scope record.subject b.live.epoch
    · exact .inr rfl
    · exact .inl rfl
  · left
    rw [if_neg hwithdrawn] at hsettled
    rw [hsettled]
    refine ⟨rfl, fun hactionable => ?_⟩
    by_contra hnot
    exact hwithdrawn (by simp [hactionable, hnot])

/-- **`decision_actionable`**: a decision acts exactly when the policy permits it and the authority is proven. -/
theorem decision_actionable : (b.decision record).disposition = .actionable ↔
    Permitted b.policy record ∧ (b.assessment record).proven = true := by
  change (b.settled record).disposition = .actionable ↔ _
  rcases b.settled_cases record with ⟨hsame, hproven⟩ | ⟨hproposed, hnot, -, hwithdrawn⟩
  · constructor
    · intro h
      exact ⟨propose_actionable.mp (hsame ▸ h), hproven h⟩
    · rintro ⟨hpermitted, -⟩
      rw [hsame]
      exact propose_actionable.mpr hpermitted
  · constructor
    · intro h
      rcases hwithdrawn with hfenced | hblocked
      · simp [h] at hfenced
      · simp [h] at hblocked
    · rintro ⟨-, hproven⟩
      simp [hnot] at hproven

/-- A settled proposal that acts is the one that was proposed, with its authority proven. -/
theorem settled_actionable (h : (b.decision record).disposition = .actionable) :
    b.settled record = propose b.policy record
      (((Explanation.withBound b.limits.maxExplanationSteps).add record.reason).add .authorityProven) := by
  have hproven := decision_proven h
  have hexplained : b.assessed record =
      ((Explanation.withBound b.limits.maxExplanationSteps).add record.reason).add .authorityProven := by
    rw [assessed, hproven]
    rfl
  rcases b.settled_cases record with ⟨hsame, -⟩ | ⟨-, hnot, -⟩
  · rw [hsame, hexplained]
  · rw [hproven] at hnot
    cases hnot

/-- What is done about a mismatch. -/
theorem mismatched_action (hdrift : record.drift = .mismatched) (h : (b.decision record).disposition = .actionable) :
    (b.decision record).action = .applyDesired := by
  change (b.settled record).disposition = .actionable at h
  change (b.settled record).action = .applyDesired
  rcases b.settled_cases record with ⟨hsame, -⟩ | ⟨-, -, -, hfenced | hblocked⟩
  · rw [hsame] at h ⊢
    unfold propose proposeMismatched at h ⊢
    rw [hdrift] at h ⊢
    simp only at h ⊢
    split at h
    · simp at h
    split at h
    next hpermitted hacts => rw [if_neg hpermitted, if_pos hacts]
    · split at h <;> simp at h
  · simp [h] at hfenced
  · simp [h] at hblocked

/-- A decision names an action exactly when it is actionable. -/
theorem decision_none : (b.decision record).action = .none ↔ (b.decision record).disposition ≠ .actionable := by
  change (b.settled record).action = .none ↔ (b.settled record).disposition ≠ .actionable
  rcases b.settled_cases record with ⟨hsame, -⟩ | ⟨-, -, hnone, hwithdrawn⟩
  · rw [hsame]
    exact propose_none
  · refine ⟨fun _ => ?_, fun _ => hnone⟩
    rcases hwithdrawn with hfenced | hblocked
    · simp [hfenced]
    · simp [hblocked]

/-- A satisfied decision is about a converged subject, or a mismatched one without any managed delta. -/
theorem decision_satisfied (h : (b.decision record).disposition = .alreadySatisfied) :
    record.drift = .alreadyConverged ∨
      record.drift = .mismatched ∧ ∀ delta ∈ record.deltas, delta.kind = .unmanaged := by
  change (b.settled record).disposition = .alreadySatisfied at h
  rcases b.settled_cases record with ⟨hsame, -⟩ | ⟨-, -, -, hfenced | hblocked⟩
  · exact propose_satisfied (hsame ▸ h)
  · simp [h] at hfenced
  · simp [h] at hblocked

theorem decision_converged (h : record.drift = .alreadyConverged) :
    (b.decision record).disposition = .alreadySatisfied := by
  have hproposed : (propose b.policy record (b.assessed record)).disposition = .alreadySatisfied := by
    simp [propose, h]
  change (b.settled record).disposition = .alreadySatisfied
  rcases b.settled_cases record with ⟨hsame, -⟩ | ⟨hactionable, -⟩
  · rw [hsame]
    exact hproposed
  · simp [hproposed] at hactionable

end PlanBasis

/-! ## What the planner compares -/

/-- The clock reading a request is planned at. -/
def PlanRequest.clock (request : PlanRequest) (env : CallEnv) : UnixMillis :=
  if request.nowUnixMs ≠ 0 then request.nowUnixMs else env.now

/-- The policy a request is planned under: the one it names, else the active one. -/
def PlanRequest.governing (request : PlanRequest) (s : DurableState) : ReconciliationPolicy :=
  request.policy.getD s.policy

/-- The classifier input of a request. -/
def PlanRequest.input (request : PlanRequest) (e : Engine) (env : CallEnv) : ClassificationInput :=
  classificationInput e.store.state e.live request.scope (request.governing e.store.state) (request.clock env)

/-- The request compares these two documents: the committed intent and the agreed, Fresh observation. -/
structure Compares (e : Engine) (env : CallEnv) (request : PlanRequest) (intent : IntentDocument)
    (observation : ObservationDocument) : Prop where
  committed : e.store.state.intents.find? request.scope = some intent
  agreed : (e.store.state.selection request.scope).conflicted = false
  selected : (e.store.state.selection request.scope).selected = some observation
  fresh : evaluateFreshness observation (request.governing e.store.state).freshness e.live.epoch
    (request.clock env) = .fresh

/-- A selected observation is not contested. -/
theorem selection_agreed {s : DurableState} {scope : ScopeId} {observation : ObservationDocument}
    (h : (s.selection scope).selected = some observation) :
    (s.selection scope).conflicted = false := by
  rcases selection_cases s scope with ⟨-, hnone⟩ | ⟨current, -, -, ⟨-, hnone⟩ | ⟨-, hsome⟩⟩
  · simp [hnone] at h
  · simp [hnone] at h
  · rw [hsome]

section Planning
variable {limits : RuntimeLimits} {e : Engine} {env : CallEnv} {request : PlanRequest} {plan : ReconciliationPlan}
  {intent : IntentDocument} {observation : ObservationDocument}

/-- One candidate is selected, none is not. -/
theorem intentCandidates_selected (s : DurableState) (scope : ScopeId) :
    (selectCurrentIntent (intentCandidates s scope)).selected = s.intents.find? scope ∧
      (selectCurrentIntent (intentCandidates s scope)).conflicted = false := by
  unfold intentCandidates
  cases s.intents.find? scope with
  | none => exact ⟨rfl, rfl⟩
  | some d => simp [selectCurrentIntent, selectCurrent]

/-- The merge loop is reached exactly when there is something to compare. -/
theorem merges_iff : Merges (request.input e env) (request.governing e.store.state) intent observation ↔
    Compares e env request intent observation := by
  obtain ⟨hselected, hclear⟩ := intentCandidates_selected e.store.state request.scope
  have hagreed : ¬ Contested IntentDocument.generation IntentDocument.digest
      (intentCandidates e.store.state request.scope) := by
    rw [← intent_conflicted, hclear]
    exact Bool.false_ne_true
  constructor
  · intro h
    refine ⟨hselected.symm.trans h.intended, ?_, h.observed, h.fresh⟩
    by_contra hconflict
    rw [Bool.not_eq_false] at hconflict
    exact h.settled (.inr (observation_conflicted.mp hconflict))
  · intro h
    refine ⟨?_, hselected.trans h.committed, ?_, h.selected, h.fresh⟩
    · rintro (hintents | hobservations)
      · exact hagreed hintents
      · exact Bool.false_ne_true (h.agreed.symm.trans (observation_conflicted.mpr hobservations))
    · -- the committed generation is that of the only candidate
      rintro ⟨-, hlt⟩
      have hsame : (request.input e env).committedIntentGeneration = intent.generation := by
        simp [PlanRequest.input, classificationInput, h.committed]
      rw [hsame] at hlt
      exact lt_irrefl _ hlt

/-- Where the classifier merges, the candidates that are not selected make no difference. -/
theorem classifyScope_merges {input : ClassificationInput} {policy : ReconciliationPolicy}
    (hpolicy : input.policy = some policy) (hscope : input.scope.empty = false)
    (hintents : ∀ d, some d ∈ input.intents → d.scope = input.scope)
    (hobservations : ∀ d, some d ∈ input.observations → d.scope = input.scope)
    (h : Merges input policy intent observation) : classifyScope input = .ok
      { scope := input.scope
        evidence := evidenceOf (some intent) (some observation) policy input.liveEpoch input.nowUnixMs
        records := (Join.walk intent.subjects.entries observation.subjects.entries).map
          (classifySubject input.scope policy (evidenceClassOf (some intent) (some observation)) intent observation) } := by
  have hclear : ((selectCurrentIntent input.intents).conflicted ||
      (selectCurrentObservation input.observations).conflicted) = false := by
    rw [← Bool.not_eq_true, Bool.or_eq_true]
    exact fun hc => h.settled (hc.imp intent_conflicted.mp observation_conflicted.mp)
  have hmerge := @classifyRecords_merge input policy _ _
    (evidenceOf (some intent) (some observation) policy input.liveEpoch input.nowUnixMs) intent observation hclear
    h.intended h.current rfl rfl h.fresh h.observed
  have hown : ∀ {α : Type} {scopeOf : α → ScopeId} {candidates : List (Option α)} {foreign : Option α → Bool},
      (∀ d, some d ∈ candidates → scopeOf d = input.scope) → foreign none = false →
      (∀ d, foreign (some d) = (scopeOf d != input.scope)) → ¬ candidates.any foreign = true := by
    intro α scopeOf candidates foreign hscopes hnone hsome hany
    obtain ⟨c, hc, hforeign⟩ := List.any_eq_true.mp hany
    cases c with
    | none => exact Bool.false_ne_true (hnone.symm.trans hforeign)
    | some d =>
      rw [hsome, hscopes d hc] at hforeign
      simp at hforeign
  unfold classifyScope
  rw [hpolicy]
  dsimp only
  rw [if_neg (by simp [hscope]), if_neg (hown hintents rfl fun _ => rfl), if_neg (hown hobservations rfl fun _ => rfl),
    h.intended, h.observed, hmerge]
  rfl

/-- The basis of the request's plan. -/
abbrev PlanRequest.basis (request : PlanRequest) (e : Engine) (evidence : ScopeEvidenceRef) : PlanBasis :=
  planBasis e.options.limits e.store.state e.live request evidence

/-- What a plan is assembled from. -/
theorem plan_report (hplan : e.plan env request = .ok plan) :
    ∃ report, classifyScope (request.input e env) = .ok report ∧
      plan = assemblePlan (request.basis e report.evidence) request.scope report.records :=
  buildPlan_ok hplan

/-- What a request that compares two documents is answered with. -/
theorem plan_of_compares (hhas : e.store.state.hasPolicy = true) (hscope : request.scope.empty = false)
    (hintent : intent.scope = request.scope)
    (hobservations : ∀ d ∈ e.store.state.stream request.scope, d.scope = request.scope)
    (h : Compares e env request intent observation) : e.plan env request = .ok (assemblePlan
      (request.basis e (evidenceOf (some intent) (some observation) (request.governing e.store.state) e.live.epoch
        (request.clock env))) request.scope
      ((Join.walk intent.subjects.entries observation.subjects.entries).map (classifySubject request.scope
        (request.governing e.store.state) (evidenceClassOf (some intent) (some observation)) intent observation))) := by
  have hreport := @classifyScope_merges intent observation (request.input e env) _ rfl hscope
    (by
      intro d hd
      have hd : some d ∈ intentCandidates e.store.state request.scope := hd
      unfold intentCandidates at hd
      rw [h.committed] at hd
      have hsame : d = intent := by simpa using hd
      rw [hsame]
      exact hintent)
    (by
      intro d hd
      have hd : some d ∈ observationCandidates e.store.state request.scope := hd
      exact hobservations d (by simpa [observationCandidates, DurableState.stream] using hd))
    (merges_iff.mpr h)
  unfold Engine.plan buildPlan
  rw [if_neg (by simp [hscope]), if_neg (by simp [hhas])]
  dsimp only
  rw [show classifyScope (classificationInput e.store.state e.live request.scope
    (request.policy.getD e.store.state.policy) (if request.nowUnixMs ≠ 0 then request.nowUnixMs else env.now)) = _
      from hreport]
  rfl

/-- The records of a report ascend strictly by subject and are of its scope. -/
theorem classifyScope_ascending {input : ClassificationInput} {report : ClassificationReport}
    (h : classifyScope input = .ok report) :
    (report.records.Pairwise fun x y => x.subject < y.subject) ∧
      ∀ record ∈ report.records, record.scope = input.scope := by
  obtain ⟨policy, hpolicy, -⟩ := classifyScope_ok h
  rcases classifyScope_records hpolicy h with ⟨intent, observation, -, hrecords⟩ | ⟨-, subjects, drift, reason, hsorted, -, hrecords⟩
  · rw [hrecords]
    refine ⟨classified_merge.ascending, ?_⟩
    intro record hrecord
    obtain ⟨position, -, rfl⟩ := List.mem_map.mp hrecord
    exact classifySubject_scope position
  · rw [hrecords]
    refine ⟨List.pairwise_map.mpr hsorted, ?_⟩
    intro record hrecord
    obtain ⟨subject, -, rfl⟩ := List.mem_map.mp hrecord
    rfl

/-- Why a decision may act. -/
structure Justified (e : Engine) (env : CallEnv) (request : PlanRequest) (plan : ReconciliationPlan) (d : Decision)
    (intent : IntentDocument) (observation : ObservationDocument) : Prop where
  digest : plan.policyDigest = computePolicyDigest e.store.state.policy
  permitted : d.drift = .missing ∧ (request.governing e.store.state).permitApplyMissing = true ∨
    d.drift = .unexpected ∧ (request.governing e.store.state).permitWithdrawUnexpected = true ∨
    d.drift = .mismatched ∧ (request.governing e.store.state).permitApplyMismatched = true
  compares : Compares e env request intent observation
  committed : 0 < intent.generation
  live : observation.receivedEpoch = e.live.epoch
  unfenced : ∀ id f, e.store.state.fences.find? id = some f → f.covers request.scope d.subject e.live.epoch = false
  missing : d.drift = .missing →
    (request.governing e.store.state).freshness.requireCompleteCoverageForAbsence = false ∨
      observation.complete = true ∧ observation.authoritativeAbsence = true
  unexpected : d.drift = .unexpected → intent.complete = true
  mismatched : d.drift = .mismatched → ∃ declared seen, intent.subjects.find? d.subject = some declared ∧
    observation.subjects.find? d.subject = some seen ∧
    ¬ Gap (Managed (request.governing e.store.state)) declared seen ∧
    ∀ delta ∈ (walkSubject (request.governing e.store.state) declared seen).deltas, delta.kind ≠ .observeOnly

/-- What each class says of the documents it was read off. -/
theorem subjectClass_missing {managed : AttributeKey → Prop} {policy : ReconciliationPolicy} {subject : SubjectId}
    (h : subjectClass managed policy intent observation subject = some .missing) :
    policy.freshness.requireCompleteCoverageForAbsence = false ∨
      observation.complete = true ∧ observation.authoritativeAbsence = true := by
  unfold subjectClass at h
  split at h
  · simp at h
  · split at h
    next hallowed => exact hallowed
    · simp at h
  · split at h <;> simp at h
  · split at h
    · simp at h
    split at h
    · simp at h
    split at h <;> simp at h

theorem subjectClass_unexpected {managed : AttributeKey → Prop} {policy : ReconciliationPolicy} {subject : SubjectId}
    (h : subjectClass managed policy intent observation subject = some .unexpected) : intent.complete = true := by
  unfold subjectClass at h
  split at h
  · simp at h
  · split at h <;> simp at h
  · split at h
    next hcomplete => exact hcomplete
    · simp at h
  · split at h
    · simp at h
    split at h
    · simp at h
    split at h <;> simp at h

theorem subjectClass_mismatched {managed : AttributeKey → Prop} {policy : ReconciliationPolicy} {subject : SubjectId}
    (h : subjectClass managed policy intent observation subject = some .mismatched) :
    ∃ declared seen, intent.subjects.find? subject = some declared ∧
      observation.subjects.find? subject = some seen ∧ ¬ Malformed managed declared seen ∧
      ¬ Gap managed declared seen ∧ Differs managed declared seen := by
  unfold subjectClass at h
  split at h
  · simp at h
  · split at h <;> simp at h
  · split at h <;> simp at h
  next declared seen hdeclared hseen =>
    split at h
    · simp at h
    next hformed =>
      split at h
      · simp at h
      next hcovered =>
        split at h
        next hdiffers => exact ⟨declared, seen, hdeclared, hseen, hformed, hcovered, hdiffers⟩
        · simp at h

/-- The record of a merged subject, with the deltas of its walk where both documents name it. -/
theorem merged_record {policy : ReconciliationPolicy} {scope : ScopeId} {evidence : EvidenceClass}
    {record : DriftRecord} (h : record ∈ (Join.walk intent.subjects.entries observation.subjects.entries).map
      (classifySubject scope policy evidence intent observation)) :
    subjectClass (Managed policy) policy intent observation record.subject = some record.drift ∧
      ∀ declared seen, intent.subjects.find? record.subject = some declared →
        observation.subjects.find? record.subject = some seen →
        record.deltas = (walkSubject policy declared seen).deltas := by
  refine ⟨(classified_merge.classes _ _).mp ⟨record, h, rfl, rfl⟩, ?_⟩
  obtain ⟨position, hposition, rfl⟩ := List.mem_map.mp h
  rw [classifySubject_subject]
  intro declared seen hdeclared hseen
  have hat := Join.mem_walk.mp hposition
  rw [hdeclared, hseen] at hat
  simp only [Join.at?, Option.some.injEq] at hat
  rw [← hat, classifySubject_deltas]

/-- A permitted record is one of the merge: the other classes never act. -/
theorem permitted_merges {report : ClassificationReport} {record : DriftRecord}
    (hreport : classifyScope (request.input e env) = .ok report) (hrecord : record ∈ report.records)
    (hpermitted : Permitted (request.governing e.store.state) record) :
    ∃ intent observation, Compares e env request intent observation ∧
      record ∈ (Join.walk intent.subjects.entries observation.subjects.entries).map
        (classifySubject request.scope (request.governing e.store.state) report.evidence.evidence intent
          observation) := by
  rcases classifyScope_records rfl hreport with
    ⟨intent, observation, hmerges, hrecords⟩ | ⟨-, subjects, drift, reason, -, hunsettled, hrecords⟩
  · exact ⟨intent, observation, merges_iff.mp hmerges, hrecords ▸ hrecord⟩
  · rw [hrecords] at hrecord
    obtain ⟨subject, -, rfl⟩ := List.mem_map.mp hrecord
    rcases hpermitted with ⟨hdrift, -⟩ | ⟨hdrift, -⟩ | ⟨hdrift, -⟩
    all_goals
      change drift = _ at hdrift
      subst hdrift
      simp [DriftClass.unsettled] at hunsettled

/-- The evidence of a request that compares two documents is theirs. -/
theorem Compares.evidence {report : ClassificationReport} (h : Compares e env request intent observation)
    (hreport : classifyScope (request.input e env) = .ok report) :
    report.evidence = evidenceOf (some intent) (some observation) (request.governing e.store.state) e.live.epoch
      (request.clock env) := by
  obtain ⟨policy, hpolicy, hevidence, -⟩ := classifyScope_ok hreport
  have hsame : policy = request.governing e.store.state := (Option.some.inj hpolicy).symm
  have hintent : (selectCurrentIntent (request.input e env).intents).selected = some intent :=
    (intentCandidates_selected e.store.state request.scope).1.trans h.committed
  have hobservation : (selectCurrentObservation (request.input e env).observations).selected = some observation :=
    h.selected
  rw [hevidence, hintent, hobservation, hsame]
  rfl

/-- Sealing a plan sets its digest and its identifier only. -/
theorem assemblePlan_policyDigest (b : PlanBasis) (scope : ScopeId) (records : List DriftRecord) :
    (assemblePlan b scope records).policyDigest = computePolicyDigest b.policy := rfl

theorem assemblePlan_decisions (b : PlanBasis) (scope : ScopeId) (records : List DriftRecord) :
    (assemblePlan b scope records).decisions = (records.take b.limits.maxPlanActions.toNat).map b.decision := rfl

theorem assemblePlan_verdict (b : PlanBasis) (scope : ScopeId) (records : List DriftRecord) :
    (assemblePlan b scope records).verdict = (scopeVerdict b.limits b.evidence
      (decide (b.limits.maxPlanActions.toNat < records.length))
      (assemblePlan b scope records).decisions).verdict := rfl

/-- The authority of a decision in terms of the state the plan was built on. -/
structure PlanBasis.Binds (b : PlanBasis) (record : DriftRecord) : Prop where
  policyIdSet : b.state.policy.id.empty = false
  policyId : b.state.policy.id = b.policy.id
  policyVersion : b.state.policy.version = b.policy.version
  policyDigest : computePolicyDigest b.state.policy = computePolicyDigest b.policy
  definition : b.evidence.definition.empty = false
  intentGeneration : b.evidence.intentGeneration ≠ 0
  intent : b.evidence.intent.empty = false
  observation : b.evidence.observation.empty = false
  observationGeneration : b.evidence.observationGeneration ≠ 0
  reporter : b.evidence.reporter.empty = false
  epoch : b.evidence.receivedEpoch = b.live.epoch
  fresh : b.evidence.freshness = .fresh
  unfenced : fenceHoldsFor b.state record.scope record.subject b.live.epoch = false

/-- The epoch and the boot identity always bind: both vectors carry the live ones. -/
theorem PlanBasis.proven_iff {b : PlanBasis} {record : DriftRecord} :
    (b.assessment record).proven = true ↔ b.Binds record := by
  refine assessAuthority_proven.trans ⟨fun h => ?_, fun h => ?_⟩
  · exact ⟨h.policyIdSet, h.policyId, h.policyVersion, h.policyDigest, h.definition, h.intentGeneration, h.intent,
      h.observation, h.observationGeneration, h.observationReporter, h.observationEpoch, of_decide_eq_true h.fresh,
      h.unfenced⟩
  · exact ⟨rfl, rfl, h.policyIdSet, h.policyId, h.policyVersion, h.policyDigest, h.definition, h.intentGeneration,
      h.intent, h.observation, h.observationGeneration, h.reporter, h.epoch, decide_eq_true h.fresh, h.unfenced⟩

/-- **`actionable_justified`**: the decisions are the first classifier records in subject order, a decision
names an action exactly when it is actionable, and every actionable one is justified. -/
theorem actionable_justified (hplan : e.plan env request = .ok plan) :
    (∃ report, classifyScope (request.input e env) = .ok report ∧
      (report.records.Pairwise fun x y => x.subject < y.subject) ∧
      plan.decisions.map (fun d => (d.scope, d.subject, d.drift)) =
        (report.records.take e.options.limits.maxPlanActions.toNat).map fun r => (r.scope, r.subject, r.drift)) ∧
    ∀ d ∈ plan.decisions, (d.action = .none ↔ d.disposition ≠ .actionable) ∧
      (d.disposition = .actionable → ∃ intent observation, Justified e env request plan d intent observation) := by
  obtain ⟨report, hreport, rfl⟩ := plan_report hplan
  obtain ⟨hsorted, hscopes⟩ := classifyScope_ascending hreport
  refine ⟨⟨report, hreport, hsorted, ?_⟩, ?_⟩
  · rw [assemblePlan_decisions, List.map_map]
    rfl
  intro d hd
  rw [assemblePlan_decisions] at hd
  obtain ⟨record, hrecord, rfl⟩ := List.mem_map.mp hd
  refine ⟨PlanBasis.decision_none, fun hactionable => ?_⟩
  obtain ⟨hpermitted, hproven⟩ := PlanBasis.decision_actionable.mp hactionable
  have hin : record ∈ report.records := List.mem_of_mem_take hrecord
  obtain ⟨intent, observation, hcompares, hmerged⟩ := permitted_merges hreport hin hpermitted
  obtain ⟨hclass, hdeltas⟩ := merged_record hmerged
  have hbinds := PlanBasis.proven_iff.mp hproven
  have hevidence := hcompares.evidence hreport
  have hscope : record.scope = request.scope := hscopes record hin
  refine ⟨intent, observation, ?_, ?_, hcompares, ?_, ?_, ?_, ?_, ?_, ?_⟩
  · rw [assemblePlan_policyDigest]
    exact hbinds.policyDigest.symm
  · exact hpermitted.imp id (Or.imp id fun h => ⟨h.1, h.2.1⟩)
  · have hset : report.evidence.intentGeneration ≠ 0 := hbinds.intentGeneration
    rw [hevidence] at hset
    exact UInt64.pos_iff_ne_zero.mpr hset
  · have hlive : report.evidence.receivedEpoch = e.live.epoch := hbinds.epoch
    rw [hevidence] at hlive
    exact hlive
  · intro id f hf
    have hnone := hbinds.unfenced
    rw [hscope] at hnone
    by_contra hcovers
    rw [Bool.not_eq_false] at hcovers
    have hholds := fenceHoldsFor_iff.mpr ⟨id, f, hf, hcovers⟩
    exact Bool.false_ne_true (hnone.symm.trans hholds)
  · intro hdrift
    change record.drift = _ at hdrift
    rw [hdrift] at hclass
    exact subjectClass_missing hclass
  · intro hdrift
    change record.drift = _ at hdrift
    rw [hdrift] at hclass
    exact subjectClass_unexpected hclass
  · intro hdrift
    change record.drift = _ at hdrift
    rw [hdrift] at hclass
    obtain ⟨declared, seen, hdeclared, hseen, -, hcovered, -⟩ := subjectClass_mismatched hclass
    refine ⟨declared, seen, hdeclared, hseen, hcovered, ?_⟩
    rcases hpermitted with ⟨hother, -⟩ | ⟨hother, -⟩ | ⟨-, -, -, hveto⟩
    · simp [hdrift] at hother
    · simp [hdrift] at hother
    · rw [hdeltas declared seen hdeclared hseen] at hveto
      exact hveto

/-- What is classified of the subject that the sample declares and no report shows. -/
def sampleRecord : DriftRecord :=
  classifySubject sampleScope defaultPolicy (evidenceClassOf (some committedIntent.withKeyIds)
    (some stampedReport.withKeyIds)) committedIntent.withKeyIds stampedReport.withKeyIds
    (.left sampleSubject ⟨sampleSubject, true, OrdMap.empty⟩)

/-- What the plan of the sample rests on. -/
def sampleBasis : PlanBasis :=
  PlanRequest.basis ⟨sampleScope, none, 1⟩ (sampleEngine 16 4)
    (evidenceOf (some committedIntent.withKeyIds) (some stampedReport.withKeyIds) defaultPolicy 1 1)

theorem sample_compares : Compares (sampleEngine 16 4) {} ⟨sampleScope, none, 1⟩ committedIntent.withKeyIds
    stampedReport.withKeyIds := by
  have hselected : ((sampleEngine 16 4).store.state.selection sampleScope).selected = some stampedReport.withKeyIds :=
    sample_selected 16
  exact ⟨rfl, selection_agreed hselected, hselected, by decide⟩

theorem sample_plan : (sampleEngine 16 4).plan {} ⟨sampleScope, none, 1⟩ =
    .ok (assemblePlan sampleBasis sampleScope [sampleRecord]) := by
  have hstream : (sampleEngine 16 4).store.state.stream sampleScope = [stampedReport.withKeyIds] := by
    have hkept : (sampleEngine 16 4).store.state.observations.find? sampleScope =
        some (keepLast 8 [stampedReport.withKeyIds]) := rfl
    rw [DurableState.stream, hkept, keepLast_of_le (by decide)]
    rfl
  have hplan := plan_of_compares rfl rfl rfl
    (by
      intro d hd
      rw [hstream] at hd
      rw [List.mem_singleton.mp hd]
      rfl)
    sample_compares
  exact hplan

theorem sample_binds : sampleBasis.Binds sampleRecord where
  policyIdSet := rfl
  policyId := rfl
  policyVersion := rfl
  policyDigest := rfl
  definition := rfl
  intentGeneration := by decide
  intent := rfl
  observation := rfl
  observationGeneration := by decide
  reporter := rfl
  epoch := rfl
  fresh := by decide
  unfenced := rfl

theorem sample_actionable : (sampleBasis.decision sampleRecord).disposition = .actionable := by
  apply PlanBasis.decision_actionable.mpr
  exact ⟨.inl ⟨rfl, rfl⟩, PlanBasis.proven_iff.mpr sample_binds⟩

theorem actionable_justified_sample : ∃ e plan, sampleObserved = .up e ∧
    e.plan {} ⟨sampleScope, none, 1⟩ = .ok plan ∧ ∃ d ∈ plan.decisions, d.disposition = .actionable ∧
      ∃ intent observation, Justified e {} ⟨sampleScope, none, 1⟩ plan d intent observation := by
  have hd : sampleBasis.decision sampleRecord ∈ (assemblePlan sampleBasis sampleScope [sampleRecord]).decisions :=
    List.mem_singleton_self _
  exact ⟨sampleEngine 16 4, _, sampleObserved_eq, sample_plan, _, hd, sample_actionable,
    ((actionable_justified sample_plan).2 _ hd).2 sample_actionable⟩

/-! ## The verdict -/

/-- The bound on the decisions is reported first. -/
theorem scopeVerdict_limit {evidence : ScopeEvidenceRef} {truncated : Bool} {decisions : List Decision} :
    (scopeVerdict limits evidence truncated decisions).verdict = .searchLimitReached ↔ truncated = true := by
  unfold scopeVerdict
  cases truncated with
  | true => simp
  | false =>
    simp only [Bool.false_eq_true, if_false, iff_false]
    split
    · simp
    split
    · simp
    split
    · simp
    split
    · simp
    split
    · simp
    split <;> simp

/-- The verdict is `ConvergedProven` at the end of the ladder only. -/
theorem scopeVerdict_converged {evidence : ScopeEvidenceRef} {truncated : Bool} {decisions : List Decision} :
    (scopeVerdict limits evidence truncated decisions).verdict = .convergedProven ↔
      truncated = false ∧ evidence.hasIntent = true ∧ evidence.hasObservation = true ∧
        evidence.freshness = .fresh ∧ ∀ d ∈ decisions, d.disposition = .alreadySatisfied := by
  have hcases : ∀ x : DecisionDisposition,
      x = .alreadySatisfied ↔ x.isOpen = false ∧ x ≠ .actionable ∧ x.isBlocked = false := by
    intro x
    cases x <;> simp [DecisionDisposition.isOpen, DecisionDisposition.isBlocked]
  unfold scopeVerdict
  simp only [hcases]
  cases truncated with
  | true => simp
  | false =>
    cases evidence.hasIntent with
    | false => simp
    | true =>
      cases evidence.hasObservation with
      | false => simp
      | true =>
        by_cases hfresh : evidence.freshness = .fresh
        · simp only [hfresh, Bool.not_true, Bool.false_eq_true, if_false, ne_eq, not_true, true_and]
          constructor
          · intro h
            split at h
            · simp at h
            next hopen =>
              split at h
              · simp at h
              next hact =>
                split at h
                · simp at h
                next hblocked =>
                  simp only [List.any_eq_true, not_exists, not_and, decide_eq_true_eq, Bool.not_eq_true] at hopen hact hblocked
                  exact fun d hd => ⟨hopen d hd, hact d hd, hblocked d hd⟩
          · intro h
            rw [if_neg, if_neg, if_neg]
            · simpa using fun d hd => (h d hd).2.2
            · simpa using fun d hd => (h d hd).2.1
            · simpa using fun d hd => (h d hd).1
        · simp [hfresh]

/-- The verdict is `ConvergenceRequired` when something is to be done and nothing is open. -/
theorem scopeVerdict_required {evidence : ScopeEvidenceRef} {truncated : Bool} {decisions : List Decision}
    (htruncated : truncated = false) (hintent : evidence.hasIntent = true) (hobservation : evidence.hasObservation = true)
    (hfresh : evidence.freshness = .fresh) (hclosed : ∀ d ∈ decisions, d.disposition.isOpen = false)
    (hacts : ∃ d ∈ decisions, d.disposition = .actionable) :
    (scopeVerdict limits evidence truncated decisions).verdict = .convergenceRequired := by
  have hopen : ¬ (decisions.any fun d => d.disposition.isOpen) = true := by simpa using hclosed
  have hany : (decisions.any fun d => d.disposition = .actionable) = true := by simpa using hacts
  unfold scopeVerdict
  simp only
  rw [if_neg (by simp [htruncated]), if_neg (by simp [hintent]), if_neg (by simp [hobservation]),
    if_neg (by simp [hfresh]), if_neg hopen, if_pos hany]

/-- The two documents name the same subjects, with the same managed attributes. -/
structure Equal (managed : AttributeKey → Prop) (intent : IntentDocument) (observation : ObservationDocument) :
    Prop where
  subjects : ∀ subject, (intent.subjects.find? subject).isSome = (observation.subjects.find? subject).isSome
  attributes : ∀ subject declared seen, intent.subjects.find? subject = some declared →
    observation.subjects.find? subject = some seen →
    ∀ key, managed key → declared.desired.find? key = seen.observed.find? key

/-- Documents are equal exactly when every subject of theirs is converged. -/
theorem equal_iff {managed : AttributeKey → Prop} {policy : ReconciliationPolicy}
    (hvalid : ∀ subject declared key v, intent.subjects.find? subject = some declared →
      declared.desired.find? key = some v → v.isValid = true) :
    (∀ subject drift, subjectClass managed policy intent observation subject = some drift →
      drift = .alreadyConverged) ↔ Equal managed intent observation := by
  constructor
  · intro h
    refine ⟨fun subject => ?_, fun subject declared seen hdeclared hseen key hkey => ?_⟩
    · have hclass := h subject
      unfold subjectClass at hclass
      cases hdeclared : intent.subjects.find? subject with
      | none =>
        cases hseen : observation.subjects.find? subject with
        | none => rfl
        | some seen =>
          rw [hdeclared, hseen] at hclass
          have hone := hclass _ rfl
          split at hone <;> simp at hone
      | some declared =>
        cases hseen : observation.subjects.find? subject with
        | none =>
          rw [hdeclared, hseen] at hclass
          have hone := hclass _ rfl
          split at hone <;> simp at hone
        | some seen => rfl
    · have hclass := h subject
      unfold subjectClass at hclass
      rw [hdeclared, hseen] at hclass
      have hone := hclass _ rfl
      split at hone
      · simp at hone
      split at hone
      · simp at hone
      split at hone
      · simp at hone
      next hdiffers =>
        by_contra hne
        exact hdiffers ⟨key, hkey, hne⟩
  · intro h subject drift hclass
    unfold subjectClass at hclass
    have hsubjects := h.subjects subject
    cases hdeclared : intent.subjects.find? subject with
    | none =>
      cases hseen : observation.subjects.find? subject with
      | none => simp [hdeclared, hseen] at hclass
      | some seen => simp [hdeclared, hseen] at hsubjects
    | some declared =>
      cases hseen : observation.subjects.find? subject with
      | none => simp [hdeclared, hseen] at hsubjects
      | some seen =>
        have hsame := h.attributes subject declared seen hdeclared hseen
        have hformed : ¬ Malformed managed declared seen := by
          rintro ⟨key, intended, observed, hkey, hleft, hright, hinvalid⟩
          have hvalues : intended = observed :=
            Option.some.inj (hleft.symm.trans ((hsame key hkey).trans hright))
          have hgood := hvalid subject declared key intended hdeclared hleft
          rw [← hvalues, hgood] at hinvalid
          simp at hinvalid
        have hcovered : ¬ Gap managed declared seen := by
          rintro ⟨key, hkey, ⟨⟨v, hleft⟩, hright, -⟩ | ⟨hleft, ⟨v, hright⟩, -⟩⟩
          · simp [hsame key hkey, hright] at hleft
          · simp [← hsame key hkey, hleft] at hright
        have hequal : ¬ Differs managed declared seen := by
          rintro ⟨key, hkey, hne⟩
          exact hne (hsame key hkey)
        simp only [hdeclared, hseen, if_neg hformed, if_neg hcovered, if_neg hequal, Option.some.injEq] at hclass
        exact hclass.symm

/-- The evidence is complete exactly when there is something to compare. -/
theorem compares_iff {report : ClassificationReport} (hreport : classifyScope (request.input e env) = .ok report) :
    report.evidence.hasIntent = true ∧ report.evidence.hasObservation = true ∧ report.evidence.freshness = .fresh ↔
      ∃ intent observation, Compares e env request intent observation := by
  constructor
  · rintro ⟨hintent, hobservation, hfresh⟩
    obtain ⟨policy, hpolicy, hevidence, -⟩ := classifyScope_ok hreport
    have hsame : policy = request.governing e.store.state := (Option.some.inj hpolicy).symm
    rw [hevidence, evidenceOf_hasIntent] at hintent
    rw [hevidence, evidenceOf_hasObservation] at hobservation
    obtain ⟨intent, hselected⟩ := Option.isSome_iff_exists.mp hintent
    obtain ⟨observation, hobserved⟩ := Option.isSome_iff_exists.mp hobservation
    rw [hevidence, hobserved, evidenceOf_freshness, hsame] at hfresh
    exact ⟨intent, observation, (intentCandidates_selected e.store.state request.scope).1.symm.trans hselected,
      selection_agreed hobserved, hobserved, hfresh⟩
  · rintro ⟨intent, observation, h⟩
    rw [h.evidence hreport]
    exact ⟨rfl, rfl, h.fresh⟩

/-- The values of a committed intent are valid. -/
theorem committed_valid (h : Consistent limits e) {scope : ScopeId}
    (hcommitted : e.store.state.intents.find? scope = some intent) :
    ∀ subject declared key v, intent.subjects.find? subject = some declared →
      declared.desired.find? key = some v → v.isValid = true := by
  intro subject declared key v hdeclared hv
  obtain ⟨hok, -, -⟩ := h.tables.intents _ (OrdMap.find?_eq_some_iff.mp hcommitted)
  exact (hok.subjects.states _ (OrdMap.find?_eq_some_iff.mp hdeclared)).values _ (OrdMap.find?_eq_some_iff.mp hv)

/-- A merged record whose decision is satisfied is converged: a mismatched one has a managed delta. -/
theorem merged_satisfied {policy : ReconciliationPolicy} {scope : ScopeId} {evidence : EvidenceClass}
    {b : PlanBasis} {record : DriftRecord}
    (h : record ∈ (Join.walk intent.subjects.entries observation.subjects.entries).map
      (classifySubject scope policy evidence intent observation)) :
    (b.decision record).disposition = .alreadySatisfied ↔ record.drift = .alreadyConverged := by
  refine ⟨fun hsatisfied => ?_, PlanBasis.decision_converged⟩
  rcases PlanBasis.decision_satisfied hsatisfied with hconverged | ⟨hdrift, hunmanaged⟩
  · exact hconverged
  · exfalso
    obtain ⟨hclass, hdeltas⟩ := merged_record h
    rw [hdrift] at hclass
    obtain ⟨declared, seen, hdeclared, hseen, hformed, hcovered, hdiffers⟩ := subjectClass_mismatched hclass
    have hactionable := (walkSubject_differs hformed hcovered).mpr hdiffers
    obtain ⟨delta, hdelta, hkind⟩ := List.any_eq_true.mp hactionable
    rw [← hdeltas declared seen hdeclared hseen] at hdelta
    simp [hunmanaged delta hdelta] at hkind

/-- The report of a request that compares two documents is their merge. -/
theorem Compares.records {report : ClassificationReport} (h : Compares e env request intent observation)
    (hreport : classifyScope (request.input e env) = .ok report) :
    report.records = (Join.walk intent.subjects.entries observation.subjects.entries).map
      (classifySubject request.scope (request.governing e.store.state) report.evidence.evidence intent
        observation) := by
  rcases classifyScope_records rfl hreport with ⟨intent', observation', hmerges, hrecords⟩ | ⟨hnone, -⟩
  · obtain ⟨rfl, rfl⟩ := (merges_iff.mpr h).unique hmerges
    exact hrecords
  · exact absurd (merges_iff.mpr h) (hnone _ _)

/-- The verdict compares the documents, as `IsAttributeUnmanaged` manages their attributes. -/
theorem plan_converged (h : Consistent limits e) (hplan : e.plan env request = .ok plan) :
    plan.verdict = .convergedProven ↔ plan.truncated = false ∧ ∃ intent observation,
      Compares e env request intent observation ∧
        Equal (Managed (request.governing e.store.state)) intent observation := by
  obtain ⟨report, hreport, rfl⟩ := plan_report hplan
  have hverdict : (assemblePlan (request.basis e report.evidence) request.scope report.records).verdict =
      (scopeVerdict e.options.limits report.evidence
        (assemblePlan (request.basis e report.evidence) request.scope report.records).truncated
        (assemblePlan (request.basis e report.evidence) request.scope report.records).decisions).verdict := rfl
  have htruncated : (assemblePlan (request.basis e report.evidence) request.scope report.records).truncated =
      decide (e.options.limits.maxPlanActions.toNat < report.records.length) := rfl
  rw [hverdict, scopeVerdict_converged, assemblePlan_decisions]
  refine and_congr_right fun hwhole => ?_
  rw [htruncated, decide_eq_false_iff_not, not_lt] at hwhole
  have hall : (report.records.take e.options.limits.maxPlanActions.toNat).map (request.basis e report.evidence).decision =
      report.records.map (request.basis e report.evidence).decision := by rw [List.take_of_length_le hwhole]
  change report.evidence.hasIntent = true ∧ report.evidence.hasObservation = true ∧ report.evidence.freshness = .fresh ∧
    (∀ d ∈ (report.records.take e.options.limits.maxPlanActions.toNat).map (request.basis e report.evidence).decision,
      d.disposition = .alreadySatisfied) ↔ _
  rw [hall]
  -- every decision is satisfied exactly when every subject is converged
  have hsatisfied : ∀ {intent observation}, Compares e env request intent observation →
      ((∀ d ∈ report.records.map (request.basis e report.evidence).decision, d.disposition = .alreadySatisfied) ↔
        Equal (Managed (request.governing e.store.state)) intent observation) := by
    intro intent observation hcompares
    rw [← equal_iff (committed_valid h hcompares.committed), hcompares.records hreport]
    constructor
    · intro hdecisions subject drift hclass
      obtain ⟨record, hrecord, rfl, rfl⟩ := (classified_merge.classes subject drift).mpr hclass
      exact (merged_satisfied hrecord).mp (hdecisions _ (List.mem_map_of_mem hrecord))
    · intro hclasses d hd
      obtain ⟨record, hrecord, rfl⟩ := List.mem_map.mp hd
      exact (merged_satisfied hrecord).mpr (hclasses _ _ (merged_record hrecord).1)
  constructor
  · rintro ⟨hintent, hobservation, hfresh, hdecisions⟩
    obtain ⟨intent, observation, hcompares⟩ := (compares_iff hreport).mp ⟨hintent, hobservation, hfresh⟩
    exact ⟨intent, observation, hcompares, (hsatisfied hcompares).mp hdecisions⟩
  · rintro ⟨intent, observation, hcompares, hequal⟩
    obtain ⟨hintent, hobservation, hfresh⟩ := (compares_iff hreport).mpr ⟨intent, observation, hcompares⟩
    exact ⟨hintent, hobservation, hfresh, (hsatisfied hcompares).mpr hequal⟩

/-- A plan without actions issues nothing, in whatever engine it is dispatched. -/
theorem dispatch_idle (f : Engine) (env : CallEnv) (hidle : ∀ d ∈ plan.decisions, d.disposition ≠ .actionable) :
    (f.dispatch env plan).2.store.state.attempts = f.store.state.attempts ∧
      ∀ answer, (f.dispatch env plan).1 = .ok answer → answer.intents = [] := by
  have hloop : ∀ (now : UnixMillis) (document : IntentDocument) (decisions : List Decision) (s : DurableStore)
      (result : DispatchResult), (∀ d ∈ decisions, d.disposition ≠ .actionable) →
      Engine.dispatchLoop f.live now document decisions s result = (.ok result, s) := by
    intro now document decisions
    induction decisions with
    | nil => intro s result _; rfl
    | cons d rest ih =>
      intro s result hall
      unfold Engine.dispatchLoop
      rw [if_pos (hall d (by simp))]
      exact ih s result fun d' hd' => hall d' (List.mem_cons_of_mem _ hd')
  unfold Engine.dispatch
  cases f.admitPlan plan with
  | error status => simp
  | ok document =>
    simp only [hloop env.now document plan.decisions (f.under env).store {} hidle]
    refine ⟨?_, by simp⟩
    obtain ⟨-, -, -, -, -, -, -, hattempts, -⟩ := tables_eq_iff.mp (maybeCompact_state (f.withStore (f.under env).store) env).1
    exact hattempts

/-- **`converged_iff_equal`**: `ConvergedProven` means equal and equal means `ConvergedProven`; such a plan acts on
nothing. -/
theorem converged_iff_equal {allowed : Process → Step → Prop} (hrun : Run limits allowed (.up e))
    (hcanonical : PolicyOk limits (request.governing e.store.state)) (hplan : e.plan env request = .ok plan) :
    (plan.verdict = .convergedProven ↔ plan.truncated = false ∧ ∃ intent observation,
      Compares e env request intent observation ∧
        Equal (fun key => key ∉ (request.governing e.store.state).unmanagedAttributes) intent observation) ∧
    (plan.verdict = .convergedProven → (∀ d ∈ plan.decisions, d.disposition ≠ .actionable) ∧
      ∀ f env', (Engine.dispatch f env' plan).2.store.state.attempts = f.store.state.attempts ∧
        ∀ answer, (Engine.dispatch f env' plan).1 = .ok answer → answer.intents = []) ∧
    (plan.verdict = .searchLimitReached ↔ ∃ report, classifyScope (request.input e env) = .ok report ∧
      limits.maxPlanActions.toNat < report.records.length) := by
  have hconsistent := (run_tracked hrun).consistent
  refine ⟨hcanonical.managed ▸ plan_converged hconsistent hplan, fun hverdict => ?_, ?_⟩
  · have hidle : ∀ d ∈ plan.decisions, d.disposition ≠ .actionable := by
      obtain ⟨report, hreport, rfl⟩ := plan_report hplan
      obtain ⟨-, -, -, -, hsatisfied⟩ := scopeVerdict_converged.mp hverdict
      intro d hd
      simp [hsatisfied d hd]
    exact ⟨hidle, fun f env' => dispatch_idle f env' hidle⟩
  · obtain ⟨report, hreport, rfl⟩ := plan_report hplan
    have hverdict : (assemblePlan (request.basis e report.evidence) request.scope report.records).verdict =
        .searchLimitReached ↔ decide (e.options.limits.maxPlanActions.toNat < report.records.length) = true :=
      scopeVerdict_limit
    rw [hverdict, decide_eq_true_eq, hconsistent.options]
    constructor
    · exact fun hlt => ⟨report, hreport, hlt⟩
    · rintro ⟨report', hreport', hlt⟩
      rw [hreport, Except.ok.injEq] at hreport'
      exact hreport' ▸ hlt

end Planning

/-- A report that covers neither the scope nor the attributes of the one subject it names. -/
def samplePartial : ObservationSubmission :=
  { sampleReport 1 with
    complete := false
    authoritativeAbsence := false
    subjects := OrdMap.empty.insert sampleSubject ⟨sampleSubject, false, OrdMap.empty⟩ }

def sampleConverged : Process := sampleIntended.after (.call (.recordObservationAt samplePartial 1) {})

/-- The engine that has taken the partial report. -/
def convergedEngine : Engine :=
  Engine.on {} {} ⟨1, FixedBytes.zero⟩ 2
    (told (sampleEvents.take 3 ++ [.observationCommit (samplePartial.document 1 1)]))
    (sampleEvents.take 3 ++ [.observationCommit (samplePartial.document 1 1)])

theorem sampleConverged_eq : sampleConverged = .up convergedEngine := by
  have hreported : (sampleEngine 16 3).recordObservationAt {} samplePartial 1 =
      (Status.ok, some ⟨false, samplePartial.document 1 1⟩, convergedEngine) := by
    apply recordObservationAt_on rfl
    · rfl
    · rfl
    · rfl
    · simp
    · exact (brief_observation (d := samplePartial.document 1 1) (by decide) (by decide)).fits (sample_ample 16)
    · exact .inr (show (2 : UInt64) < 8192 by decide)
  rw [sampleConverged, sampleIntended_eq]
  simp only [Process.after, Process.step, Engine.call, hreported]

theorem sampleConverged_run : Run {} (fun _ _ => True) sampleConverged := by
  rw [sampleConverged]
  exact (sampleIntended_allowed trivial trivial).after trivial (by simp)

theorem converged_stream : convergedEngine.store.state.stream sampleScope = [(samplePartial.document 1 1).withKeyIds] := by
  have hkept : convergedEngine.store.state.observations.find? sampleScope =
      some (keepLast 8 [(samplePartial.document 1 1).withKeyIds]) := rfl
  rw [DurableState.stream, hkept, keepLast_of_le (by decide)]
  rfl

theorem converged_compares : Compares convergedEngine {} ⟨sampleScope, none, 1⟩ committedIntent.withKeyIds
    (samplePartial.document 1 1).withKeyIds := by
  have hselected : (convergedEngine.store.state.selection sampleScope).selected =
      some (samplePartial.document 1 1).withKeyIds := by
    have hcandidates : observationCandidates convergedEngine.store.state sampleScope =
        (convergedEngine.store.state.stream sampleScope).map some := rfl
    rw [DurableState.selection, hcandidates, converged_stream]
    simp [selectCurrentObservation, selectCurrent]
  exact ⟨rfl, selection_agreed hselected, hselected, by decide⟩

theorem sample_converged : ∃ plan, convergedEngine.plan {} ⟨sampleScope, none, 1⟩ = .ok plan ∧
    plan.verdict = .convergedProven := by
  have hrun := sampleConverged_run
  rw [sampleConverged_eq] at hrun
  have hplan := plan_of_compares rfl rfl rfl
    (by
      intro d hd
      rw [converged_stream] at hd
      rw [List.mem_singleton.mp hd]
      rfl)
    converged_compares
  have hdeclared : ∀ subject, committedIntent.withKeyIds.subjects.find? subject =
      if subject = sampleSubject then some ⟨sampleSubject, true, OrdMap.empty⟩ else none := fun _ => rfl
  have hseen : ∀ subject, (samplePartial.document 1 1).withKeyIds.subjects.find? subject =
      if subject = sampleSubject then some ⟨sampleSubject, false, OrdMap.empty⟩ else none := fun _ => rfl
  refine ⟨_, hplan, (plan_converged (run_tracked hrun).consistent hplan).mpr ⟨rfl, _, _, converged_compares, ?_, ?_⟩⟩
  · intro subject
    rw [hdeclared, hseen]
    split <;> rfl
  · intro subject declared seen hintended hobserved key _
    rw [hdeclared] at hintended
    rw [hseen] at hobserved
    split at hintended
    next hsame =>
      rw [if_pos hsame] at hobserved
      rw [← Option.some.inj hintended, ← Option.some.inj hobserved]
      rfl
    · simp at hintended

theorem converged_iff_equal_sample : ∃ e plan, sampleConverged = .up e ∧
    e.plan {} ⟨sampleScope, none, 1⟩ = .ok plan ∧ plan.truncated = false ∧ ∃ intent observation,
      Compares e {} ⟨sampleScope, none, 1⟩ intent observation ∧
        Equal (fun key => key ∉ defaultPolicy.unmanagedAttributes) intent observation := by
  obtain ⟨plan, hplan, hverdict⟩ := sample_converged
  have hrun := sampleConverged_run
  rw [sampleConverged_eq] at hrun
  have hgoverning : PlanRequest.governing ⟨sampleScope, none, 1⟩ convergedEngine.store.state = defaultPolicy := rfl
  have hequal := (converged_iff_equal hrun (hgoverning ▸ defaultPolicy_ok) hplan).1.mp hverdict
  rw [hgoverning] at hequal
  exact ⟨_, plan, sampleConverged_eq, hplan, hequal⟩

end FabricReconciliation
