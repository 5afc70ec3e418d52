import FabricReconciliation.Restart
import FabricReconciliation.Verdicts

/-!
# Reading a store without writing it (`engine.cpp:97-145`, `drift.cpp:266-281`)

A read-only boot advances no epoch: its live epoch is the last one of the store. What the process of that
epoch observed therefore still passes for current, although the process is gone. Every earlier
observation is foreign, as after a writable boot.

* **`read_only_liveness`** — nothing persisted counts as live exactly when no retained observation bears
  the store's last epoch;
* **`read_only_revives`** — a store whose writer observed a scope is planned on as if the writer were up.
-/

namespace FabricReconciliation

open Lib

/-- No retained observation was received under the last epoch. -/
def Unwitnessed (s : DurableState) : Prop :=
  ∀ scope documents, s.observations.find? scope = some documents → ∀ d ∈ documents, d.receivedEpoch ≠ s.lastEpoch

/-- Under the policy no persisted observation is fresh, and no plan builds on one. -/
structure NotLive (policy : ReconciliationPolicy) (e : Engine) : Prop where
  stale : ∀ scope documents, e.store.state.observations.find? scope = some documents →
    ∀ d ∈ documents, ∀ now, evaluateFreshness d policy.freshness e.live.epoch now ≠ .fresh
  plan : ∀ env request plan, request.policy.getD e.store.state.policy = policy → e.plan env request = .ok plan →
    (∀ d ∈ plan.decisions, d.disposition ≠ .actionable) ∧
      plan.verdict ≠ .convergedProven ∧ plan.verdict ≠ .convergenceRequired

/-! ## Freshness and the verdict -/

section Freshness

variable {d : ObservationDocument} {policy : FreshnessPolicy} {epoch : CoordinatorEpoch}

/-- An observation of another epoch is never fresh under a policy that binds the epoch. -/
theorem evaluateFreshness_foreign (hpolicy : policy.requireCurrentEpoch = true) (h : d.receivedEpoch ≠ epoch)
    (now : UnixMillis) : evaluateFreshness d policy epoch now = .foreignEpoch := by
  unfold evaluateFreshness
  rw [if_pos (by simp [hpolicy, h])]

/-- An observation of the live epoch is fresh at the moment it was received. -/
theorem evaluateFreshness_received (h : d.receivedEpoch = epoch) :
    evaluateFreshness d policy epoch d.receivedUnixMs = .fresh := by
  unfold evaluateFreshness
  rw [if_neg (by simp [h])]
  split
  next hage =>
    have hnow : ¬ policy.maxObservationAgeMs < d.receivedUnixMs - d.receivedUnixMs := by
      rw [Int64.sub_self]
      exact fun hback => Int64.lt_irrefl (Int64.lt_trans hage hback)
    rw [if_neg Int64.lt_irrefl, if_neg hnow]
  next => rfl

/-- A verdict about convergence rests on fresh evidence. -/
theorem scopeVerdict_fresh {limits : RuntimeLimits} {evidence : ScopeEvidenceRef} {truncated : Bool}
    {decisions : List Decision}
    (h : (scopeVerdict limits evidence truncated decisions).verdict = .convergedProven ∨
      (scopeVerdict limits evidence truncated decisions).verdict = .convergenceRequired) :
    evidence.freshness = .fresh := by
  unfold scopeVerdict at h
  simp only at h
  split at h
  · simp at h
  split at h
  · simp at h
  split at h
  · simp at h
  split at h
  · simp at h
  next hfresh => simpa using hfresh

/-- The evidence of a report is fresh only if a candidate is: without one its freshness is `Invalid`. -/
theorem classifyScope_fresh {input : ClassificationInput} {report : ClassificationReport}
    (h : classifyScope input = .ok report) (hfresh : report.evidence.freshness = .fresh) :
    ∃ policy d, input.policy = some policy ∧ some d ∈ input.observations ∧
      evaluateFreshness d policy.freshness input.liveEpoch input.nowUnixMs = .fresh := by
  obtain ⟨policy, hpolicy, hevidence, -⟩ := classifyScope_ok h
  rw [hevidence] at hfresh
  cases hselected : (selectCurrentObservation input.observations).selected with
  | none =>
    rw [hselected] at hfresh
    cases hintent : (selectCurrentIntent input.intents).selected <;> simp [evidenceOf, hintent] at hfresh
  | some d =>
    refine ⟨policy, d, hpolicy, selectCurrent_mem hselected, ?_⟩
    rw [hselected] at hfresh
    simpa [evidenceOf] using hfresh

end Freshness

/-! ## A read-only engine -/

section ReadOnly

variable {e later : Engine} {policy : ReconciliationPolicy}

/-- A read-only engine refuses every call that would change it. -/
theorem call_read_only (h : e.store.readOnly = true) (env : CallEnv) (operation : Operation) :
    (e.call env operation).2 = e := by
  cases operation with
  | putPolicy policy allow => simp [Engine.call, Engine.putPolicy, Engine.admitPolicy, h]
  | commitIntent document => simp [Engine.call, Engine.commitIntent, Engine.admitIntent, h]
  | recordObservationAt submission stamp =>
    simp [Engine.call, Engine.recordObservationAt, Engine.admitObservation, h]
  | plan request => rfl
  | dispatch plan => simp [Engine.call, Engine.dispatch, Engine.admitPlan, h]
  | complete request => simp [Engine.call, Engine.complete, Engine.admitCompletion, h]
  | verify evidence => simp [Engine.call, Engine.verify, Engine.admitVerification, h]
  | putFence fence => simp [Engine.call, Engine.putFence, h]
  | clearFence fence => simp [Engine.call, Engine.clearFence, h]
  | compact => simp [Engine.call, Engine.compact, h]

theorem Calls.read_only {allowed : Engine → Operation → CallEnv → Prop} (h : Calls allowed e later)
    (hro : e.store.readOnly = true) : later = e := by
  induction h with
  | refl => rfl
  | call h operation env ha ih =>
    subst ih
    exact call_read_only hro env operation

/-- A store opened read-only says so. -/
theorem openFiles_read_only {limits : RuntimeLimits} {create created : Bool} {env : DurableStore.OpenEnv}
    {dir dir' : Directory} {s : DurableStore} {report : DurableStore.StoreOpenReport}
    (h : DurableStore.openFiles limits create true created env dir = (dir', .ok (s, report))) : s.readOnly = true := by
  have hfinish : ∀ cleaned snapshot,
      DurableStore.openFiles.finish limits create true created env cleaned snapshot = (dir', .ok (s, report)) →
      s.readOnly = true := by
    intro cleaned snapshot hfinish
    unfold DurableStore.openFiles.finish at hfinish
    simp only at hfinish
    split at hfinish
    · simp at hfinish
    split at hfinish
    · simp at hfinish
    simp only [Prod.mk.injEq, Except.ok.injEq] at hfinish
    rw [← hfinish.2.1]
  unfold DurableStore.openFiles at h
  simp only at h
  split at h
  · split at h
    · simp at h
    · exact hfinish _ _ h
  · exact hfinish _ _ h

/-- A read-only boot leaves the tables alone and takes their last epoch for its own. -/
theorem boot_read_only {dir : Directory} {last : DurableState} {options : EngineOptions}
    {opening : DurableStore.OpenEnv} {id : BootId} {env : CallEnv} (hro : options.readOnly = true)
    (h : (Process.down dir last).after (.boot options opening id env) = .up e) :
    e.store.readOnly = true ∧ e.live.epoch = e.store.state.lastEpoch := by
  simp only [Process.after, Process.step, Process.boot, hro] at h
  split at h
  · simp at h
  next dir' s report hopen =>
    simp only [Engine.start, hro, if_true, Process.up.injEq] at h
    rw [← h]
    refine ⟨?_, rfl⟩
    unfold DurableStore.open at hopen
    split at hopen
    · split at hopen
      · simp at hopen
      · exact openFiles_read_only hopen
    · exact openFiles_read_only hopen

/-- Where nothing bears the live epoch, nothing is fresh and nothing is planned on. -/
theorem notLive_of_foreign (hpolicy : policy.freshness.requireCurrentEpoch = true)
    (h : ∀ scope documents, e.store.state.observations.find? scope = some documents →
      ∀ d ∈ documents, d.receivedEpoch ≠ e.live.epoch) : NotLive policy e := by
  have hcandidate : ∀ scope d, some d ∈ observationCandidates e.store.state scope → d.receivedEpoch ≠ e.live.epoch := by
    intro scope d hd
    obtain ⟨seen, hmem, heq⟩ := List.mem_map.mp hd
    rw [Option.some.injEq] at heq
    subst heq
    cases hfind : e.store.state.observations.find? scope with
    | none => simp [hfind] at hmem
    | some documents => exact h scope documents hfind seen (by simpa [hfind] using hmem)
  constructor
  · intro scope documents hfind d hd now
    rw [evaluateFreshness_foreign hpolicy (h scope documents hfind d hd)]
    simp
  · intro env request plan hrequest hplan
    obtain ⟨report, hreport, rfl⟩ := buildPlan_ok hplan
    have hstale : report.evidence.freshness ≠ .fresh := by
      intro hfresh
      obtain ⟨policy', d, hpolicy', hd, hevaluated⟩ := classifyScope_fresh hreport hfresh
      simp only [classificationInput, Option.some.injEq] at hpolicy' hd hevaluated
      rw [← hpolicy', hrequest, evaluateFreshness_foreign hpolicy (hcandidate _ d hd)] at hevaluated
      simp at hevaluated
    refine ⟨?_, fun hverdict => hstale (scopeVerdict_fresh (.inl hverdict)),
      fun hverdict => hstale (scopeVerdict_fresh (.inr hverdict))⟩
    intro d hd hactionable
    obtain ⟨record, -, rfl⟩ := List.mem_map.mp hd
    have hproven := assessAuthority_proven.mp (decision_proven hactionable)
    exact hstale (of_decide_eq_true hproven.fresh)

/-- **`read_only_liveness`**: for every directory and every policy that binds the epoch, an engine opened
read-only takes nothing persisted for live, whatever calls follow, exactly when no retained observation
bears the last epoch of the store. -/
theorem read_only_liveness {dir : Directory} {last : DurableState} {options : EngineOptions}
    {opening : DurableStore.OpenEnv} {id : BootId} {env : CallEnv} (hro : options.readOnly = true)
    (hboot : (Process.down dir last).after (.boot options opening id env) = .up e)
    (hpolicy : policy.freshness.requireCurrentEpoch = true) :
    (∀ later, Calls (fun _ _ _ => True) e later → NotLive policy later) ↔ Unwitnessed e.store.state := by
  obtain ⟨hstore, hepoch⟩ := boot_read_only hro hboot
  constructor
  · intro hlive scope documents hfind d hd hsame
    have hstale := (hlive e .refl).stale scope documents hfind d hd d.receivedUnixMs
    exact hstale (evaluateFreshness_received (hsame.trans hepoch.symm))
  · intro hunwitnessed later hlater
    rw [hlater.read_only hstore]
    refine notLive_of_foreign hpolicy ?_
    rw [hepoch]
    exact hunwitnessed

/-- The request gets a plan with the property. -/
def Engine.plans (e : Engine) (env : CallEnv) (request : PlanRequest) (P : ReconciliationPlan → Bool) : Bool :=
  match e.plan env request with
  | .ok plan => P plan
  | .error _ => false

theorem Engine.plans_iff {env : CallEnv} {request : PlanRequest} {P : ReconciliationPlan → Bool} :
    e.plans env request P = true ↔ ∃ plan, e.plan env request = .ok plan ∧ P plan = true := by
  unfold Engine.plans
  cases e.plan env request with
  | ok plan => simp
  | error status => simp

theorem Process.after_exit (p : Process) : ∃ dir last, p.after .exit = .down dir last := by
  cases p with
  | up e => exact ⟨_, _, rfl⟩
  | down dir last => exact ⟨dir, last, rfl⟩

theorem sample_reopens (count : Nat) : Reopens {} (sampleEvents.take count) := by
  apply reopens_of_brief (sample_ample 16)
  · intro e he
    exact @sampleEvents_ok 16 (by decide) e (List.mem_of_mem_take he)
  · intro e he
    exact sampleEvents_brief e (List.mem_of_mem_take he)
  · have hlength : (sampleEvents.take count).length ≤ sampleEvents.length := by simp
    exact le_trans hlength (by decide)

/-- The sample store, opened read-only. -/
theorem sample_reopened (count : Nat) : ((Process.up (sampleEngine 16 count)).after .exit).after
    (.boot { readOnly := true } {} FixedBytes.zero {}) = .up ⟨{ readOnly := true },
      recordedAs true {} {} (told (sampleEvents.take count)) (sampleEvents.take count),
      ⟨(tablesAfter {} FixedBytes.zero (sampleEvents.take count)).lastEpoch, FixedBytes.zero⟩,
      UInt64.ofNat (sampleEvents.take count).length⟩ := by
  have hexit : (Process.up (sampleEngine 16 count)).after .exit =
      .down (recorded {} {} (told (sampleEvents.take count)) (sampleEvents.take count)).directory
        (sampleEngine 16 count).store.state := rfl
  rw [hexit, Process.after]
  exact congrArg Prod.snd (@reopen_recorded {} _ _ { readOnly := true } {} FixedBytes.zero (sample_reopens count) rfl {} _)

/-! ## A plan of the sample -/

/-- What `Dispatch` compares of a plan. -/
structure BoundTo (plan : ReconciliationPlan) (policy : Digest) (evidence : ScopeEvidenceRef) : Prop where
  policy : plan.policyDigest = policy
  intent : plan.intentGeneration = evidence.intentGeneration ∧ plan.intentDigest = evidence.intentDigest
  observation : plan.observation = evidence.observation ∧ plan.observationGeneration = evidence.observationGeneration ∧
    plan.observationDigest = evidence.observationDigest

theorem assemblePlan_bound (b : PlanBasis) (scope : ScopeId) (records : List DriftRecord) :
    BoundTo (assemblePlan b scope records) (computePolicyDigest b.policy) b.evidence :=
  ⟨rfl, ⟨rfl, rfl⟩, rfl, rfl, rfl⟩

/-- A plan under the policy of the store is admitted where it was made. -/
theorem admitPlan_planned {e : Engine} {env : CallEnv} {request : PlanRequest} {plan : ReconciliationPlan}
    {intent : IntentDocument} {observation : ObservationDocument} (hplan : e.plan env request = .ok plan)
    (hwritable : e.store.readOnly = false) (hpolicy : request.policy = none)
    (hintent : e.store.state.intents.find? request.scope = some intent)
    (hobservation : (selectCurrentObservation (observationCandidates e.store.state request.scope)).selected =
      some observation) : e.admitPlan plan = .ok intent := by
  have hhas : e.store.state.hasPolicy = true := by
    unfold Engine.plan buildPlan at hplan
    split at hplan
    · simp at hplan
    split at hplan
    · simp at hplan
    next hhas => simpa using hhas
  obtain ⟨report, hreport, hmade⟩ := buildPlan_ok hplan
  obtain ⟨policy, -, hevidence, -⟩ := classifyScope_ok hreport
  have hcurrent : (selectCurrentIntent (intentCandidates e.store.state request.scope)).selected = some intent := by
    rw [intentCandidates, hintent]
    simp [selectCurrentIntent, selectCurrent]
  obtain ⟨epoch, now, hrests⟩ : ∃ epoch now, report.evidence =
      evidenceOf (selectCurrentIntent (intentCandidates e.store.state request.scope)).selected
        (selectCurrentObservation (observationCandidates e.store.state request.scope)).selected policy epoch now :=
    ⟨_, _, hevidence⟩
  rw [hcurrent, hobservation] at hrests
  have hbound := assemblePlan_bound (planBasis e.options.limits e.store.state e.live request report.evidence)
    request.scope report.records
  rw [← hmade, show (planBasis e.options.limits e.store.state e.live request report.evidence).evidence =
    evidenceOf (some intent) (some observation) policy epoch now from hrests] at hbound
  have hgoverning : (planBasis e.options.limits e.store.state e.live request report.evidence).policy =
      e.store.state.policy := by
    rw [planBasis, hpolicy]
    rfl
  rw [hgoverning] at hbound
  have hscope : plan.scope = request.scope := by
    rw [hmade]
    rfl
  have hlive : plan.epoch = e.live.epoch ∧ plan.boot = e.live.boot := by
    rw [hmade]
    exact ⟨rfl, rfl⟩
  unfold Engine.admitPlan
  simp only [hscope, hintent, hobservation]
  rw [if_neg (by simp [hwritable]), if_neg (by simp [hlive.1, hlive.2]), if_neg (by simp [hhas]),
    if_neg (by simp [hbound.policy]), if_neg (by simp [hbound.intent, evidenceOf]),
    if_neg (by simp [hbound.observation, evidenceOf])]

theorem sample_settled : sampleBasis.settled sampleRecord =
    ⟨.applyDesired, .actionable, sampleRecord.reason,
      (((Explanation.withBound 32).add sampleRecord.reason).add .authorityProven).add .actionEligible⟩ := by
  rw [PlanBasis.settled_actionable sample_actionable]
  rfl

/-- What is decided about the missing subject of the sample. -/
def sampleDecision : Decision where
  scope := sampleScope
  subject := sampleSubject
  drift := .missing
  reason := sampleRecord.reason
  action := .applyDesired
  disposition := .actionable
  authority := sampleBasis.authority
  idempotencyKey := computeIdempotencyKey sampleScope sampleSubject .applyDesired sampleBasis.authority
    (sampleBasis.desired sampleSubject) (sampleBasis.expectedObserved sampleSubject)
  explanation := (((Explanation.withBound 32).add sampleRecord.reason).add .authorityProven).add .actionEligible
  evidence := sampleRecord.evidence

theorem sample_decision : sampleBasis.decision sampleRecord = sampleDecision := by
  rw [PlanBasis.decision, sample_settled]
  rfl

theorem sample_decisions : (assemblePlan sampleBasis sampleScope [sampleRecord]).decisions =
    [sampleBasis.decision sampleRecord] := rfl

theorem sample_verdict : (assemblePlan sampleBasis sampleScope [sampleRecord]).verdict = .convergenceRequired := by
  rw [assemblePlan_verdict, sample_decisions]
  apply scopeVerdict_required rfl rfl rfl
  · decide
  · simp [sample_actionable, DecisionDisposition.isOpen]
  · exact ⟨_, List.mem_singleton_self _, sample_actionable⟩

/-- The plan is within the bound of its encoding. -/
theorem sample_encodes : encoded (encodePlanContent (assemblePlan sampleBasis sampleScope [sampleRecord])) ≠ [] := by
  have hdecisions : ([sampleRecord].take sampleBasis.limits.maxPlanActions.toNat).map sampleBasis.decision =
      [sampleDecision] := by
    rw [← sample_decision]
    rfl
  unfold assemblePlan
  rw [hdecisions]
  decide +kernel

/-- The plan of the sample and its decision. -/
structure SamplePlanned (plan : ReconciliationPlan) (d : Decision) : Prop where
  made : (sampleEngine 16 4).plan {} ⟨sampleScope, none, 1⟩ = .ok plan
  verdict : plan.verdict = .convergenceRequired
  encodes : encoded (encodePlanContent plan) ≠ []
  decisions : plan.decisions = [d]
  scope : d.scope = sampleScope
  subject : d.subject = sampleSubject
  disposition : d.disposition = .actionable
  action : d.action = .applyDesired
  generation : d.authority.observationGeneration = 1

theorem sample_planned : ∃ plan d, SamplePlanned plan d :=
  ⟨_, sampleDecision, sample_plan, sample_verdict, sample_encodes, by rw [sample_decisions, sample_decision],
    rfl, rfl, rfl, rfl, rfl⟩

theorem sampleEngine_run : Run {} Process.Orderly (.up (sampleEngine 16 4)) := by
  rw [← sampleObserved_eq]
  exact sampleObserved_allowed trivial (.inl rfl) (.inl rfl)

theorem SamplePlanned.targets {plan : ReconciliationPlan} {d : Decision} (h : SamplePlanned plan d) :
    plan.scope = sampleScope := by
  obtain ⟨report, -, hmade⟩ := buildPlan_ok h.made
  rw [hmade]
  rfl

theorem SamplePlanned.admitted {plan : ReconciliationPlan} {d : Decision} (h : SamplePlanned plan d) :
    (sampleEngine 16 4).admitPlan plan = .ok committedIntent.withKeyIds :=
  admitPlan_planned h.made rfl rfl rfl (sample_selected 16)

/-- The attempt that the decision gets when it is dispatched at the clock reading. -/
def plannedAttempt (d : Decision) (now : UnixMillis) : AttemptRecord := Engine.newAttempt ⟨1, FixedBytes.zero⟩ now 1 d

/-- The engine of the sample after these records have followed the report. -/
def sampleWith (es : List Event) : Engine :=
  Engine.on {} {} ⟨1, FixedBytes.zero⟩ 2 (told (sampleEvents.take 4 ++ es)) (sampleEvents.take 4 ++ es)

/-- There is room for more records. -/
theorem sampleWith_undue {es : List Event} {more n : Nat} (hcount : es.length + more = n)
    (hroom : UInt64.ofNat (4 + n) - 2 < 8192) : Undue {} 2 ((sampleEvents.take 4 ++ es).length + more) := by
  rw [List.length_append, Nat.add_assoc, hcount]
  exact .inr hroom

theorem SamplePlanned.attempt_ok {plan : ReconciliationPlan} {d : Decision} (h : SamplePlanned plan d) (now : UnixMillis)
    (next : AttemptId) : AttemptOk {} (Engine.newAttempt ⟨1, FixedBytes.zero⟩ now next d) := by
  refine newAttempt_ok (by decide) ?_ _ _ _
  rw [h.scope, h.subject]
  exact ⟨rfl, rfl⟩

theorem SamplePlanned.record_ok {plan : ReconciliationPlan} {d : Decision} (h : SamplePlanned plan d) {a : AttemptRecord}
    (hid : a.id ≠ 0) (hstate : a.state ≠ .invalid) (hshort : a.transitions.length ≤ 4) (hscope : a.scope = d.scope)
    (hsubject : a.subject = d.subject) : AttemptOk {} a := by
  refine ⟨hid, hstate, le_trans hshort (by decide), ?_, ?_⟩
  · rw [hscope, h.scope]
    rfl
  · rw [hsubject, h.subject]
    rfl

theorem newAttempt_fits (now : UnixMillis) (next : AttemptId) (d : Decision) :
    (Event.attemptIssued (Engine.newAttempt ⟨1, FixedBytes.zero⟩ now next d)).Fits {} :=
  (brief_issued (by simp [Engine.newAttempt])).fits (sample_ample 16)

/-- Its dispatch issues the one attempt. -/
theorem SamplePlanned.dispatched {plan : ReconciliationPlan} {d : Decision} (h : SamplePlanned plan d) {env : CallEnv}
    (hfaults : env.faults = []) : (sampleEngine 16 4).dispatch env plan =
      (.ok ⟨[Engine.actionIntent committedIntent.withKeyIds (plannedAttempt d env.now)], 0, 0⟩,
        sampleWith [.attemptIssued (plannedAttempt d env.now)]) := by
  have hopen : fenceHoldsFor (tablesAfter {} FixedBytes.zero (sampleEvents.take 4)) d.scope d.subject 1 = false := rfl
  have hnew : Engine.reusable (tablesAfter {} FixedBytes.zero (sampleEvents.take 4)) 1 d.idempotencyKey = none := rfl
  have hissued : plannedAttempt d env.now = Engine.newAttempt ⟨1, FixedBytes.zero⟩ env.now
      (tablesAfter {} FixedBytes.zero (sampleEvents.take 4)).nextAttempt d := rfl
  have hundue : Undue {} 2 ((sampleEvents.take 4).length + 1) := .inr (show (3 : UInt64) < 8192 by decide)
  rw [sampleWith, told_append]
  exact dispatch_recorded hfaults h.admitted h.decisions h.disposition hopen hnew hissued (h.attempt_ok _ _)
    (newAttempt_fits _ _ _) hundue

/-- The states differ in their attempts and outcomes only. -/
def OnlyAttempts (s t : DurableState) : Prop :=
  ∃ sequence attempts next outcomes,
    t = { s with sequence := sequence, attempts := attempts, nextAttempt := next, outcomes := outcomes }

def Event.aboutAttempt : Event → Bool
  | .attemptIssued _ | .attemptTransition _ | .outcomeCommit _ => true
  | _ => false

theorem OnlyAttempts.event {limits : RuntimeLimits} {s t : DurableState} (h : OnlyAttempts s t) {e : Event}
    (he : e.aboutAttempt = true) : OnlyAttempts s (applyEvent limits t e) := by
  obtain ⟨sequence, attempts, next, outcomes, rfl⟩ := h
  cases e with
  | attemptIssued a => exact ⟨_, _, _, _, rfl⟩
  | attemptTransition a => exact ⟨_, _, _, _, rfl⟩
  | outcomeCommit o => exact ⟨_, _, _, _, rfl⟩
  | policyPut policy => simp [Event.aboutAttempt] at he
  | intentCommit d => simp [Event.aboutAttempt] at he
  | observationCommit d => simp [Event.aboutAttempt] at he
  | fencePut f => simp [Event.aboutAttempt] at he
  | fenceClear f => simp [Event.aboutAttempt] at he
  | epochAdvance epoch => simp [Event.aboutAttempt] at he

theorem OnlyAttempts.events {limits : RuntimeLimits} {s t : DurableState} (h : OnlyAttempts s t) {es : List Event}
    (hes : es.all Event.aboutAttempt = true) : OnlyAttempts s (es.foldl (applyEvent limits) t) := by
  induction es generalizing t with
  | nil => exact h
  | cons e rest ih =>
    rw [List.all_cons, Bool.and_eq_true] at hes
    exact ih (h.event hes.1) hes.2

theorem OnlyAttempts.numbered {s t : DurableState} (h : OnlyAttempts s t) (before after : RecordSequence) :
    OnlyAttempts { s with sequence := before } { t with sequence := after } := by
  obtain ⟨sequence, attempts, next, outcomes, rfl⟩ := h
  exact ⟨after, attempts, next, outcomes, rfl⟩

theorem tablesAfter_attempts {es : List Event} (hes : es.all Event.aboutAttempt = true) :
    OnlyAttempts (tablesAfter {} FixedBytes.zero (sampleEvents.take 4))
      (tablesAfter {} FixedBytes.zero (sampleEvents.take 4 ++ es)) := by
  rw [tablesAfter, tablesAfter, List.foldl_append]
  exact OnlyAttempts.events ⟨_, _, _, _, rfl⟩ hes

theorem sampleWith_attempts {es : List Event} (hes : es.all Event.aboutAttempt = true) :
    OnlyAttempts (sampleEngine 16 4).store.state (sampleWith es).store.state :=
  (tablesAfter_attempts hes).numbered _ _

/-- Such records do not change the plan. -/
theorem sampleWith_plan {es : List Event} (hes : es.all Event.aboutAttempt = true) (env : CallEnv)
    (request : PlanRequest) : (sampleWith es).plan env request = (sampleEngine 16 4).plan env request := by
  obtain ⟨sequence, attempts, next, outcomes, hstate⟩ := sampleWith_attempts hes
  unfold Engine.plan
  rw [hstate]
  exact buildPlan_attempts _ _ _ _ _ _ _ _ _

theorem SamplePlanned.admitted_with {plan : ReconciliationPlan} {d : Decision} (h : SamplePlanned plan d)
    {es : List Event} (hes : es.all Event.aboutAttempt = true) :
    (sampleWith es).admitPlan plan = .ok committedIntent.withKeyIds := by
  have hplan := (sampleWith_plan hes _ _).trans h.made
  obtain ⟨sequence, attempts, next, outcomes, hstate⟩ := sampleWith_attempts hes
  apply admitPlan_planned hplan rfl rfl
  · rw [hstate]
    rfl
  · rw [hstate]
    exact sample_selected 16

theorem sample_replanned (env : CallEnv) (request : PlanRequest) :
    (sampleEngine 16 5).plan env request = (sampleEngine 16 4).plan env request :=
  @sampleWith_plan [.attemptIssued sampleAttempt] rfl env request

theorem SamplePlanned.admitted_later {plan : ReconciliationPlan} {d : Decision} (h : SamplePlanned plan d) :
    (sampleEngine 16 5).admitPlan plan = .ok committedIntent.withKeyIds :=
  @SamplePlanned.admitted_with _ _ h [.attemptIssued sampleAttempt] rfl

/-- The plan is acted on after another dispatch, too. -/
theorem SamplePlanned.dispatched_later {plan : ReconciliationPlan} {d : Decision} (h : SamplePlanned plan d) :
    ∃ a, ((sampleEngine 16 5).dispatch {} plan).1.map DispatchResult.intents =
      .ok [Engine.actionIntent committedIntent.withKeyIds a] := by
  have hopen : fenceHoldsFor (sampleEngine 16 5).store.state d.scope d.subject 1 = false := rfl
  cases hnew : Engine.reusable (sampleEngine 16 5).store.state 1 d.idempotencyKey with
  | some existing =>
    have hloop : Engine.dispatchLoop ⟨1, FixedBytes.zero⟩ 0 committedIntent.withKeyIds [d]
        ((sampleEngine 16 5).under {}).store {} =
          (.ok ⟨[Engine.actionIntent committedIntent.withKeyIds existing], 0, 1⟩, ((sampleEngine 16 5).under {}).store) := by
      have hopen : fenceHoldsFor ((sampleEngine 16 5).under {}).store.state d.scope d.subject 1 = false := hopen
      have hnew : Engine.reusable ((sampleEngine 16 5).under {}).store.state 1 d.idempotencyKey = some existing := hnew
      rw [Engine.dispatchLoop, if_neg (by simp [h.disposition]), if_neg (by simp [hopen]), hnew]
      rfl
    refine ⟨existing, ?_⟩
    unfold Engine.dispatch
    rw [h.admitted_later, h.decisions]
    simp only [show (sampleEngine 16 5).live = ⟨1, FixedBytes.zero⟩ from rfl, hloop]
    rfl
  | none =>
    have hundue : Undue {} 2 (sampleEvents.length + 1) := .inr (show (4 : UInt64) < 8192 by decide)
    have hdone : (sampleEngine 16 5).dispatch {} plan = _ := dispatch_recorded rfl h.admitted_later h.decisions
      h.disposition hopen hnew rfl (h.attempt_ok _ _) (newAttempt_fits _ _ _) hundue
    exact ⟨_, congrArg (fun x => x.1.map DispatchResult.intents) hdone⟩

/-! ## Read-only samples -/

/-- Two stores opened read-only: one that was only booted, and one whose writer observed the sample scope. -/
theorem read_only_samples :
    ((sampleStart.after .exit).after (.boot { readOnly := true } {} FixedBytes.zero {})).runs
        (fun e => e.live.epoch = 1 && e.store.state.observations.entries.isEmpty) = true ∧
      ((sampleObserved.after .exit).after (.boot { readOnly := true } {} FixedBytes.zero {})).runs
        (fun e => e.store.state.policy.freshness.requireCurrentEpoch &&
          e.plans {} ⟨sampleScope, none, 1⟩ fun plan =>
            decide (plan.verdict = .convergenceRequired) &&
              plan.decisions.any fun d => d.disposition = .actionable) = true := by
  rw [sampleStart_eq, sampleObserved_eq, sample_reopened, sample_reopened]
  refine ⟨by decide, ?_⟩
  obtain ⟨plan, d, h⟩ := sample_planned
  apply Process.runs_iff.mpr
  refine ⟨_, rfl, ?_⟩
  rw [Bool.and_eq_true]
  refine ⟨rfl, Engine.plans_iff.mpr ⟨plan, h.made, ?_⟩⟩
  rw [h.verdict, h.decisions]
  simp [h.disposition]

/-- Nothing passes for live in a store that was only booted. -/
theorem read_only_liveness_unobserved :
    ∃ e, (sampleStart.after .exit).after (.boot { readOnly := true } {} FixedBytes.zero {}) = .up e ∧
      NotLive defaultPolicy e := by
  obtain ⟨e, he, hfacts⟩ := Process.runs_iff.mp read_only_samples.1
  refine ⟨e, he, ?_⟩
  simp only [Bool.and_eq_true, decide_eq_true_eq, List.isEmpty_iff] at hfacts
  obtain ⟨dir, last, hexit⟩ := sampleStart.after_exit
  rw [hexit] at he
  refine (read_only_liveness rfl he rfl).mpr ?_ e .refl
  intro scope documents hfind
  have hentries := OrdMap.find?_eq_some_iff.mp hfind
  rw [hfacts.2] at hentries
  simp at hentries

/-- **`read_only_revives`**: the writer observed the scope and exited; the engine that opens the store
read-only proposes an action on what the writer saw. -/
theorem read_only_revives :
    Run {} (fun _ _ => True) (sampleObserved.after .exit) ∧
      ∃ e, (sampleObserved.after .exit).after (.boot { readOnly := true } {} FixedBytes.zero {}) = .up e ∧
        e.store.state.policy.freshness.requireCurrentEpoch = true ∧
        (∃ plan, e.plan {} ⟨sampleScope, none, 1⟩ = .ok plan ∧ plan.verdict = .convergenceRequired ∧
          ∃ d ∈ plan.decisions, d.disposition = .actionable) ∧
        ¬ NotLive e.store.state.policy e := by
  refine ⟨(sampleObserved_allowed trivial trivial trivial).after trivial (by simp), ?_⟩
  obtain ⟨e, he, hfacts⟩ := Process.runs_iff.mp read_only_samples.2
  rw [Bool.and_eq_true] at hfacts
  obtain ⟨plan, hplan, hverdict⟩ := Engine.plans_iff.mp hfacts.2
  simp only [Bool.and_eq_true, decide_eq_true_eq, List.any_eq_true] at hverdict
  refine ⟨e, he, hfacts.1, ⟨plan, hplan, hverdict⟩, ?_⟩
  intro hlive
  exact (hlive.plan {} _ plan rfl hplan).2.2 hverdict.1

end ReadOnly

end FabricReconciliation
