import FabricReconciliation.Verdicts

/-!
# Coverage and observe-only settings in a plan (`policy.hpp:57-59`, `policy.hpp:70-73`, `engine.cpp:626-768`)

Two settings of the policy promise more than the planner does. `require_complete_coverage_for_convergence_proof`
is stored, encoded and digested but never read; `observe_only_attributes` is consulted in one of the four
branches of the attribute walk. The results say when the plan keeps the promise all the same.

* **`coverage_proof_iff`** — a convergence proof rests on complete coverage only where the coverage is complete
  anyway (`partial_report_converges`);
* **`observe_only_iff`** — a difference on an observe-only attribute stops the action only when it is one of value:
  an attribute that is missing, or of another kind, is acted on (`observe_only_acted_on`).
-/

namespace FabricReconciliation

open Lib

section Planning
variable {limits : RuntimeLimits} {allowed : Process → Step → Prop} {e : Engine} {env : CallEnv}
  {request : PlanRequest} {plan : ReconciliationPlan} {intent : IntentDocument} {observation : ObservationDocument}

/-- The subjects of two documents in order. -/
def jointSubjects (intent : IntentDocument) (observation : ObservationDocument) : List SubjectId :=
  sortUnique (intent.subjects.entries.map Prod.fst ++ observation.subjects.entries.map Prod.fst)

/-- The merge loop visits the subjects of both documents in order. -/
theorem merged_subjects {policy : ReconciliationPolicy} {scope : ScopeId} {evidence : EvidenceClass} :
    ((Join.walk intent.subjects.entries observation.subjects.entries).map
      (classifySubject scope policy evidence intent observation)).map DriftRecord.subject =
        jointSubjects intent observation := by
  have hsorted : (((Join.walk intent.subjects.entries observation.subjects.entries).map
      (classifySubject scope policy evidence intent observation)).map DriftRecord.subject).Pairwise (· < ·) :=
    List.pairwise_map.mpr classified_merge.ascending
  rw [← sortUnique_of_sorted hsorted, jointSubjects]
  refine sortUnique_congr fun subject => ?_
  rw [List.mem_append, OrdMap.mem_keys_iff, OrdMap.mem_keys_iff]
  constructor
  · intro h
    obtain ⟨record, hrecord, rfl⟩ := List.mem_map.mp h
    have hclass := (merged_record hrecord).1
    unfold subjectClass at hclass
    cases hdeclared : intent.subjects.find? record.subject with
    | some declared => exact .inl rfl
    | none =>
      cases hseen : observation.subjects.find? record.subject with
      | some seen => exact .inr rfl
      | none => simp [hdeclared, hseen] at hclass
  · intro h
    obtain ⟨position, hat⟩ : ∃ position, Join.at? subject (intent.subjects.find? subject)
        (observation.subjects.find? subject) = some position := by
      cases hdeclared : intent.subjects.find? subject with
      | some declared =>
        cases hseen : observation.subjects.find? subject with
        | some seen => exact ⟨_, rfl⟩
        | none => exact ⟨_, rfl⟩
      | none =>
        cases hseen : observation.subjects.find? subject with
        | some seen => exact ⟨_, rfl⟩
        | none => simp [hdeclared, hseen] at h
    have hkey := Join.at?_key hat
    subst hkey
    rw [List.map_map]
    exact List.mem_map.mpr ⟨position, Join.mem_walk.mpr hat, classifySubject_subject position⟩

/-- Equal documents have as many joint subjects as either of them. -/
theorem Equal.length {managed : AttributeKey → Prop} (h : Equal managed intent observation) :
    (jointSubjects intent observation).length = intent.subjects.size := by
  have hkeys : jointSubjects intent observation = intent.subjects.entries.map Prod.fst := by
    have hsorted : (intent.subjects.entries.map Prod.fst).Pairwise (· < ·) :=
      List.pairwise_map.mpr intent.subjects.sorted
    rw [← sortUnique_of_sorted hsorted, jointSubjects]
    refine sortUnique_congr fun subject => ?_
    rw [List.mem_append, OrdMap.mem_keys_iff, OrdMap.mem_keys_iff, h.subjects subject, or_self]
  rw [hkeys, List.length_map]
  rfl

/-- The converged requests: what is compared is equal, and fits into one plan. -/
structure Converged (limits : RuntimeLimits) (e : Engine) (env : CallEnv) (request : PlanRequest)
    (intent : IntentDocument) (observation : ObservationDocument) : Prop where
  compares : Compares e env request intent observation
  equal : Equal (Managed (request.governing e.store.state)) intent observation
  bounded : intent.subjects.size ≤ limits.maxPlanActions.toNat

/-- The verdict in terms of the documents alone. -/
theorem converged_iff (h : Consistent limits e) (hplan : e.plan env request = .ok plan) :
    plan.verdict = .convergedProven ↔ ∃ intent observation, Converged limits e env request intent observation := by
  rw [plan_converged h hplan]
  have hbound : ∀ {intent observation}, Compares e env request intent observation →
      Equal (Managed (request.governing e.store.state)) intent observation →
      (plan.truncated = false ↔ intent.subjects.size ≤ limits.maxPlanActions.toNat) := by
    intro intent observation hcompares hequal
    obtain ⟨report, hreport, rfl⟩ := plan_report hplan
    have hlength : report.records.length = intent.subjects.size := by
      rw [← hequal.length, ← @merged_subjects intent observation (request.governing e.store.state) request.scope
        report.evidence.evidence, ← hcompares.records hreport, List.length_map]
    change decide (e.options.limits.maxPlanActions.toNat < report.records.length) = false ↔ _
    rw [h.options, hlength, decide_eq_false_iff_not, not_lt]
  constructor
  · rintro ⟨hwhole, intent, observation, hcompares, hequal⟩
    exact ⟨intent, observation, hcompares, hequal, (hbound hcompares hequal).mp hwhole⟩
  · rintro ⟨intent, observation, hcompares, hequal, hbounded⟩
    exact ⟨(hbound hcompares hequal).mpr hbounded, intent, observation, hcompares, hequal⟩

/-! ## Convergence and coverage -/

/-- The selected observation covers the scope and every subject it names. -/
def Covered (e : Engine) (scope : ScopeId) : Prop :=
  ∃ observation, (e.store.state.selection scope).selected = some observation ∧ observation.complete = true ∧
    ∀ subject seen, observation.subjects.find? subject = some seen → seen.completeAttributes = true

/-- **`coverage_proof_iff`**: a convergence proof rests on complete coverage exactly when the coverage is complete
anyway, or nothing converges: the flag that asks for it decides nothing. -/
theorem coverage_proof_iff (hrun : Run limits allowed (.up e)) (hplan : e.plan env request = .ok plan) :
    ((request.governing e.store.state).requireCompleteCoverageForConvergenceProof = true →
        plan.verdict = .convergedProven → Covered e request.scope) ↔
      (request.governing e.store.state).requireCompleteCoverageForConvergenceProof = false ∨
        Covered e request.scope ∨ ¬ ∃ intent observation, Converged limits e env request intent observation := by
  rw [converged_iff (run_tracked hrun).consistent hplan]
  constructor
  · intro h
    by_cases hcovered : Covered e request.scope
    · exact .inr (.inl hcovered)
    · cases hflag : (request.governing e.store.state).requireCompleteCoverageForConvergenceProof with
      | false => exact .inl rfl
      | true => exact .inr (.inr fun hconverged => hcovered (h hflag hconverged))
  · rintro (hflag | hcovered | hnot) hset hconverged
    · simp [hflag] at hset
    · exact hcovered
    · exact absurd hconverged hnot

/-- The verdict of the partial report: the flag is set, nothing is covered, convergence is proven. -/
theorem coverage_proof_iff_partial : ∃ e plan, sampleConverged = .up e ∧ e.plan {} ⟨sampleScope, none, 1⟩ = .ok plan ∧
    (((PlanRequest.governing ⟨sampleScope, none, 1⟩ e.store.state).requireCompleteCoverageForConvergenceProof = true →
        plan.verdict = .convergedProven → Covered e sampleScope) ↔
      (PlanRequest.governing ⟨sampleScope, none, 1⟩ e.store.state).requireCompleteCoverageForConvergenceProof = false ∨
        Covered e sampleScope ∨
          ¬ ∃ intent observation, Converged {} e {} ⟨sampleScope, none, 1⟩ intent observation) := by
  obtain ⟨plan, hplan, -⟩ := sample_converged
  have hrun := sampleConverged_run
  rw [sampleConverged_eq] at hrun
  exact ⟨_, plan, sampleConverged_eq, hplan, coverage_proof_iff hrun hplan⟩

/-- **`partial_report_converges`**: a report that covers neither the scope nor the attributes of its one subject
proves convergence under a policy that demands complete coverage for the proof. -/
theorem partial_report_converges : Run {} (fun _ _ => True) sampleConverged ∧
    ∃ e plan, sampleConverged = .up e ∧ e.plan {} ⟨sampleScope, none, 1⟩ = .ok plan ∧
      e.store.state.policy.requireCompleteCoverageForConvergenceProof = true ∧
      plan.verdict = .convergedProven ∧ ¬ Covered e sampleScope := by
  obtain ⟨plan, hplan, hverdict⟩ := sample_converged
  refine ⟨sampleConverged_run, _, plan, sampleConverged_eq, hplan, rfl, hverdict, ?_⟩
  rintro ⟨observation, hselected, hcomplete, -⟩
  rw [← Option.some.inj (converged_compares.selected.symm.trans hselected)] at hcomplete
  exact absurd hcomplete (by decide)

/-! ## Observe-only attributes -/

/-- Everything but an observe-only attribute lets a mismatched subject of both documents be acted on. -/
structure Eligible (limits : RuntimeLimits) (e : Engine) (env : CallEnv) (request : PlanRequest)
    (intent : IntentDocument) (observation : ObservationDocument) (subject : SubjectId)
    (declared seen : SubjectEntry) : Prop where
  fresh : evaluateFreshness observation (request.governing e.store.state).freshness e.live.epoch
    (request.clock env) = .fresh
  permitted : (request.governing e.store.state).permitApplyMismatched = true
  covered : ¬ Gap (fun key => key ∉ (request.governing e.store.state).unmanagedAttributes) declared seen
  policyId : e.store.state.policy.id = (request.governing e.store.state).id
  policyVersion : e.store.state.policy.version = (request.governing e.store.state).version
  policyDigest : computePolicyDigest e.store.state.policy = computePolicyDigest (request.governing e.store.state)
  intentGeneration : intent.generation ≠ 0
  observationGeneration : observation.generation ≠ 0
  epoch : observation.receivedEpoch = e.live.epoch
  unfenced : fenceHoldsFor e.store.state request.scope subject e.live.epoch = false
  listed : subject ∈ (jointSubjects intent observation).take limits.maxPlanActions.toNat

/-- Some observe-only attribute has two different values of one kind. -/
def Vetoed (policy : ReconciliationPolicy) (declared seen : SubjectEntry) : Prop :=
  ∃ key intended observed, key ∈ policy.observeOnlyAttributes ∧ key ∉ policy.unmanagedAttributes ∧
    declared.desired.find? key = some intended ∧ seen.observed.find? key = some observed ∧
    intended.comparableWith observed = true ∧ intended ≠ observed

/-- The record of a subject that both documents name. -/
theorem joint_record {report : ClassificationReport} {subject : SubjectId}
    (hcompares : Compares e env request intent observation)
    (hreport : classifyScope (request.input e env) = .ok report)
    (hlisted : subject ∈ (jointSubjects intent observation).take limits.maxPlanActions.toNat) :
    ∃ record ∈ report.records.take limits.maxPlanActions.toNat, record.subject = subject := by
  have hsubjects : report.records.map DriftRecord.subject = jointSubjects intent observation := by
    rw [hcompares.records hreport]
    exact merged_subjects
  rw [← hsubjects, ← List.map_take] at hlisted
  obtain ⟨record, hrecord, rfl⟩ := List.mem_map.mp hlisted
  exact ⟨record, hrecord, rfl⟩

/-- The deltas of an observe-only kind are the vetoes. -/
theorem vetoed_iff {policy : ReconciliationPolicy} {declared seen : SubjectEntry} (hcanonical : PolicyOk limits policy)
    (hformed : ¬ Malformed (Managed policy) declared seen) :
    (∃ delta, Reported policy declared seen delta ∧ delta.kind = .observeOnly) ↔ Vetoed policy declared seen := by
  constructor
  · rintro ⟨delta, hreported, hkind⟩
    cases hreported with
    | @observeOnly key intended observed hmanaged hleft hright hvalid hvalid' hkinds hdiffer hobserve =>
      rw [hcanonical.managed] at hmanaged
      exact ⟨key, intended, observed, hcanonical.observeOnly_iff.mp hobserve, hmanaged, hleft, hright, hkinds, hdiffer⟩
    | _ => simp at hkind
  · rintro ⟨key, intended, observed, hobserve, hmanaged, hleft, hright, hkinds, hdiffer⟩
    have hkept : Managed policy key := by
      rw [hcanonical.managed]
      exact hmanaged
    have hvalid : intended.isValid = true := by
      by_contra hinvalid
      exact hformed ⟨key, intended, observed, hkept, hleft, hright, .inl (by simpa using hinvalid)⟩
    have hvalid' : observed.isValid = true := by
      by_contra hinvalid
      exact hformed ⟨key, intended, observed, hkept, hleft, hright, .inr (by simpa using hinvalid)⟩
    exact ⟨_, .observeOnly hkept hleft hright hvalid hvalid' hkinds hdiffer (hcanonical.observeOnly_iff.mpr hobserve), rfl⟩

/-- The selected observation of a scope is a valid document. -/
theorem selected_valid (h : Consistent limits e) {scope : ScopeId}
    (hselected : (e.store.state.selection scope).selected = some observation) : ObservationOk limits observation := by
  have hmem : some observation ∈ observationCandidates e.store.state scope := selectCurrent_mem hselected
  unfold observationCandidates at hmem
  obtain ⟨d, hd, hsame⟩ := List.mem_map.mp hmem
  rw [Option.some.injEq] at hsame
  subst hsame
  cases hfind : e.store.state.observations.find? scope with
  | none => simp [hfind] at hd
  | some documents =>
    rw [hfind] at hd
    exact (h.tables.observations _ (OrdMap.find?_eq_some_iff.mp hfind) _ hd).1

/-- The authority of an eligible subject is proven. -/
theorem Eligible.proven {report : ClassificationReport} {record : DriftRecord} {declared seen : SubjectEntry}
    (h : Eligible limits e env request intent observation record.subject declared seen)
    (hconsistent : Consistent limits e) (hcanonical : PolicyOk limits (request.governing e.store.state))
    (hcompares : Compares e env request intent observation)
    (hreport : classifyScope (request.input e env) = .ok report) (hscope : record.scope = request.scope) :
    ((request.basis e report.evidence).assessment record).proven = true := by
  obtain ⟨hintent, -, -⟩ := hconsistent.tables.intents _ (OrdMap.find?_eq_some_iff.mp hcompares.committed)
  have hobservation := selected_valid hconsistent hcompares.selected
  have hevidence := hcompares.evidence hreport
  refine PlanBasis.proven_iff.mpr ?_
  rw [hevidence]
  refine ⟨?_, h.policyId, h.policyVersion, h.policyDigest, hintent.definition, h.intentGeneration, hintent.intent,
    hobservation.observation, h.observationGeneration, hobservation.reporter, h.epoch, h.fresh, ?_⟩
  · change e.store.state.policy.id.empty = false
    rw [h.policyId]
    exact hcanonical.id
  · rw [hscope]
    exact h.unfenced

/-- Where a subject of both documents differs, it is left alone exactly when an observe-only attribute vetoes the
action, or the subject is not eligible for one. -/
theorem differing_idle_iff {subject : SubjectId} {declared seen : SubjectEntry} {key : AttributeKey}
    (hconsistent : Consistent limits e) (hcanonical : PolicyOk limits (request.governing e.store.state))
    (hplan : e.plan env request = .ok plan) (hintent : e.store.state.intents.find? request.scope = some intent)
    (hobservation : (e.store.state.selection request.scope).selected = some observation)
    (hdeclared : intent.subjects.find? subject = some declared)
    (hseen : observation.subjects.find? subject = some seen)
    (hmanaged : key ∉ (request.governing e.store.state).unmanagedAttributes)
    (hdiffer : declared.desired.find? key ≠ seen.observed.find? key) :
    (∀ d ∈ plan.decisions, d.subject = subject → d.disposition ≠ .actionable) ↔
      Vetoed (request.governing e.store.state) declared seen ∨
        ¬ Eligible limits e env request intent observation subject declared seen := by
  obtain ⟨report, hreport, rfl⟩ := plan_report hplan
  rw [assemblePlan_decisions]
  have hlimit : (request.basis e report.evidence).limits = limits := hconsistent.options
  rw [hlimit]
  have hobserved := selected_valid hconsistent hobservation
  have hformed : ¬ Malformed (Managed (request.governing e.store.state)) declared seen := by
    rintro ⟨k, intended, observed, -, hleft, hright, hinvalid | hinvalid⟩
    · simp [committed_valid hconsistent hintent subject declared k intended hdeclared hleft] at hinvalid
    · have hvalue := (hobserved.subjects.states _ (OrdMap.find?_eq_some_iff.mp hseen)).values _
        (OrdMap.find?_eq_some_iff.mp hright)
      simp [hvalue] at hinvalid
  have hveto := @vetoed_iff limits _ declared seen hcanonical hformed
  constructor
  · intro hidle
    by_contra hnot
    rw [not_or, not_not] at hnot
    obtain ⟨hfree, heligible⟩ := hnot
    have hcompares : Compares e env request intent observation :=
      ⟨hintent, selection_agreed hobservation, hobservation, heligible.fresh⟩
    obtain ⟨record, hrecord, rfl⟩ := joint_record hcompares hreport heligible.listed
    have hin : record ∈ report.records := List.mem_of_mem_take hrecord
    have hmerged := hin
    rw [hcompares.records hreport] at hmerged
    obtain ⟨hclass, hdeltas⟩ := merged_record hmerged
    have hcovered : ¬ Gap (Managed (request.governing e.store.state)) declared seen := by
      rw [hcanonical.managed]
      exact heligible.covered
    have hdiffers : Differs (Managed (request.governing e.store.state)) declared seen := by
      rw [hcanonical.managed]
      exact ⟨key, hmanaged, hdiffer⟩
    simp only [subjectClass, hdeclared, hseen, if_neg hformed, if_neg hcovered, if_pos hdiffers,
      Option.some.injEq] at hclass
    -- the difference is reported, and not as an observe-only one
    have hnone : ∀ delta ∈ record.deltas, delta.kind ≠ .observeOnly := by
      intro delta hdelta hkind
      rw [hdeltas declared seen hdeclared hseen, mem_walkSubject_deltas] at hdelta
      exact hfree (hveto.mp ⟨delta, hdelta, hkind⟩)
    obtain ⟨delta, hdelta, hkind⟩ := List.any_eq_true.mp ((walkSubject_differs hformed hcovered).mpr hdiffers)
    rw [← hdeltas declared seen hdeclared hseen] at hdelta
    refine hidle _ (List.mem_map_of_mem hrecord) rfl (PlanBasis.decision_actionable.mpr ⟨?_, ?_⟩)
    · exact .inr (.inr ⟨hclass.symm, heligible.permitted,
        ⟨delta, hdelta, hnone delta hdelta, by simpa using hkind⟩, hnone⟩)
    · exact heligible.proven hconsistent hcanonical hcompares hreport ((classifyScope_ascending hreport).2 record hin)
  · rintro hleft d hd rfl hactionable
    obtain ⟨record, hrecord, rfl⟩ := List.mem_map.mp hd
    obtain ⟨hpermitted, hproven⟩ := PlanBasis.decision_actionable.mp hactionable
    have hin : record ∈ report.records := List.mem_of_mem_take hrecord
    obtain ⟨intent', observation', hcompares, hmerged⟩ := permitted_merges hreport hin hpermitted
    have hsameIntent : intent' = intent := Option.some.inj (hcompares.committed.symm.trans hintent)
    have hsameObservation : observation' = observation :=
      Option.some.inj (hcompares.selected.symm.trans hobservation)
    subst hsameIntent hsameObservation
    change intent'.subjects.find? record.subject = some declared at hdeclared
    change observation'.subjects.find? record.subject = some seen at hseen
    obtain ⟨hclass, hdeltas⟩ := merged_record hmerged
    have hmismatched : record.drift = .mismatched ∧
        (request.governing e.store.state).permitApplyMismatched = true ∧
        ∀ delta ∈ record.deltas, delta.kind ≠ .observeOnly := by
      rcases hpermitted with ⟨hdrift, -⟩ | ⟨hdrift, -⟩ | ⟨hdrift, hpermit, -, hnone⟩
      · rw [hdrift] at hclass
        simp only [subjectClass, hdeclared, hseen, Option.some.injEq] at hclass
        split at hclass
        · simp at hclass
        split at hclass
        · simp at hclass
        split at hclass <;> simp at hclass
      · rw [hdrift] at hclass
        simp only [subjectClass, hdeclared, hseen, Option.some.injEq] at hclass
        split at hclass
        · simp at hclass
        split at hclass
        · simp at hclass
        split at hclass <;> simp at hclass
      · exact ⟨hdrift, hpermit, hnone⟩
    obtain ⟨hdrift, hpermit, hnone⟩ := hmismatched
    rcases hleft with hvetoed | hineligible
    · obtain ⟨delta, hdelta, hkind⟩ := hveto.mpr hvetoed
      rw [← mem_walkSubject_deltas, ← hdeltas declared seen hdeclared hseen] at hdelta
      exact hnone delta hdelta hkind
    · refine hineligible ?_
      rw [hdrift] at hclass
      obtain ⟨declared', seen', hdeclared', hseen', -, hcovered, -⟩ := subjectClass_mismatched hclass
      have hbinds := PlanBasis.proven_iff.mp hproven
      rw [hcompares.evidence hreport] at hbinds
      have hunfenced := hbinds.unfenced
      rw [(classifyScope_ascending hreport).2 record hin] at hunfenced
      refine ⟨hcompares.fresh, hpermit, ?_, hbinds.policyId, hbinds.policyVersion, hbinds.policyDigest,
        hbinds.intentGeneration, hbinds.observationGeneration, hbinds.epoch, hunfenced, ?_⟩
      · rw [hdeclared, Option.some.injEq] at hdeclared'
        rw [hseen, Option.some.injEq] at hseen'
        rw [hdeclared', hseen', ← hcanonical.managed]
        exact hcovered
      · have hsubjects : report.records.map DriftRecord.subject = jointSubjects intent' observation' := by
          rw [hcompares.records hreport]
          exact merged_subjects
        rw [← hsubjects, ← List.map_take]
        exact List.mem_map_of_mem hrecord

/-- The subject differs on some managed observe-only attribute, in any way. -/
def DiffersObserveOnly (policy : ReconciliationPolicy) (declared seen : SubjectEntry) : Prop :=
  ∃ key ∈ policy.observeOnlyAttributes, key ∉ policy.unmanagedAttributes ∧
    declared.desired.find? key ≠ seen.observed.find? key

/-- **`observe_only_iff`**: a subject that differs on an observe-only attribute is left alone exactly when some such
attribute has two different values of one kind, or the subject is not eligible. Differences by presence or by kind
do not protect it. -/
theorem observe_only_iff {subject : SubjectId} {declared seen : SubjectEntry}
    (hrun : Run limits allowed (.up e)) (hcanonical : PolicyOk limits (request.governing e.store.state))
    (hplan : e.plan env request = .ok plan) (hintent : e.store.state.intents.find? request.scope = some intent)
    (hobservation : (e.store.state.selection request.scope).selected = some observation)
    (hdeclared : intent.subjects.find? subject = some declared)
    (hseen : observation.subjects.find? subject = some seen) :
    (DiffersObserveOnly (request.governing e.store.state) declared seen →
        ∀ d ∈ plan.decisions, d.subject = subject → d.disposition ≠ .actionable) ↔
      ¬ DiffersObserveOnly (request.governing e.store.state) declared seen ∨
        Vetoed (request.governing e.store.state) declared seen ∨
          ¬ Eligible limits e env request intent observation subject declared seen := by
  have hconsistent := (run_tracked hrun).consistent
  by_cases hdiffers : DiffersObserveOnly (request.governing e.store.state) declared seen
  · obtain ⟨key, -, hmanaged, hdiffer⟩ := id hdiffers
    have hidle := differing_idle_iff hconsistent hcanonical hplan hintent hobservation hdeclared hseen hmanaged hdiffer
    exact ⟨fun h => .inr (hidle.mp (h hdiffers)), fun h _ => hidle.mpr (h.resolve_left fun hnot => hnot hdiffers)⟩
  · exact ⟨fun _ => .inl hdiffers, fun _ h => absurd h hdiffers⟩

end Planning

/-- The attribute `k`. -/
def sampleKey : AttributeKey := ⟨[0x6b], valid_k⟩

/-- The default policy, but `k` is compared and never acted on. -/
def sampleObserveOnly : ReconciliationPolicy :=
  { defaultPolicy with version := 2, observeOnlyAttributes := [sampleKey] }

/-- The subject is to have `k`, and is seen with all of its attributes but without `k`. -/
def sampleWithKey : IntentDocument :=
  { sampleIntent with
    subjects := OrdMap.empty.insert sampleSubject ⟨sampleSubject, true, OrdMap.empty.insert sampleKey (.boolean true)⟩ }

def sampleWithoutKey : ObservationSubmission :=
  { sampleReport 1 with subjects := OrdMap.empty.insert sampleSubject ⟨sampleSubject, true, OrdMap.empty⟩ }

def sampleObservedOnly : Process :=
  ((sampleStart.after (.call (.putPolicy sampleObserveOnly false) {})).after
    (.call (.commitIntent sampleWithKey) {})).after (.call (.recordObservationAt sampleWithoutKey 1) {})

theorem sampleObserveOnly_ok : PolicyOk {} sampleObserveOnly := by
  constructor <;> simp [sampleObserveOnly, defaultPolicy]
  · decide
  · decide
  · decide

theorem sampleObservedOnly_run : Run {} (fun _ _ => True) sampleObservedOnly := by
  rw [sampleObservedOnly]
  have hstart : Run {} (fun _ _ => True) sampleStart := sampleStart_allowed trivial
  have hpolicy := hstart.after (a := .call (.putPolicy sampleObserveOnly false) {}) trivial (by simp)
  have hintent := hpolicy.after (a := .call (.commitIntent sampleWithKey) {}) trivial (by simp)
  exact hintent.after trivial (by simp)

/-- The intent for `k` as it is recorded. -/
def keyedIntent : IntentDocument := { sampleWithKey with digest := computeIntentDigest sampleWithKey }

/-- The records of an intent for `k` and of a report on the subject. -/
def keyedEvents (es : List Event) (submission : ObservationSubmission) : List Event :=
  es ++ [.intentCommit keyedIntent] ++ [.observationCommit (submission.document 1 1)]

/-- The engine that has taken them after some other records. -/
def keyedEngine (es : List Event) (submission : ObservationSubmission) : Engine :=
  Engine.on {} {} ⟨1, FixedBytes.zero⟩ 2 (told (keyedEvents es submission)) (keyedEvents es submission)

section Keyed

variable {es : List Event} {submission : ObservationSubmission}

theorem keyedIntent_fits : (Event.intentCommit keyedIntent).Fits {} := by
  have hsubjects : (encodeSubjects keyedIntent.subjects).Total ∧
      (encodeSubjects keyedIntent.subjects).image.length ≤ 1000 := by
    decide
  exact (brief_intent hsubjects.1 hsubjects.2).fits (sample_ample 16)

/-- A first intent and a first report for the scope. -/
theorem keyed_recorded (hintents : (tablesAfter {} FixedBytes.zero es).intents.find? sampleScope = none)
    (hstream : (tablesAfter {} FixedBytes.zero es).observations.find? sampleScope = none)
    (hscope : submission.scope = sampleScope) (hvalid : (validateSubmission submission {}).code = .ok)
    (hsubjects : (encodeSubjects submission.subjects).Total ∧
      (encodeSubjects submission.subjects).image.length ≤ 1000)
    (hroom : Undue {} 2 (es.length + 1)) (hroom' : Undue {} 2 (es.length + 1 + 1)) :
    ((Process.up (Engine.on {} {} ⟨1, FixedBytes.zero⟩ 2 (told es) es)).after (.call (.commitIntent sampleWithKey) {})).after
      (.call (.recordObservationAt submission 1) {}) = .up (keyedEngine es submission) := by
  have hfits : (Event.observationCommit (submission.document 1 1)).Fits {} :=
    (brief_observation (d := submission.document 1 1) hsubjects.1 hsubjects.2).fits (sample_ample 16)
  have hintends : (Process.up (Engine.on {} {} ⟨1, FixedBytes.zero⟩ 2 (told es) es)).step
      (.call (.commitIntent sampleWithKey) {}) =
        (Status.ok, .up (Engine.on {} {} ⟨1, FixedBytes.zero⟩ 2 (told (es ++ [.intentCommit keyedIntent]))
          (es ++ [.intentCommit keyedIntent]))) := by
    rw [told_append]
    exact commitIntent_recorded rfl rfl hintents keyedIntent_fits hroom
  have hreported : (Engine.on {} {} ⟨1, FixedBytes.zero⟩ 2 (told (es ++ [.intentCommit keyedIntent]))
      (es ++ [.intentCommit keyedIntent])).recordObservationAt {} submission 1 =
        (Status.ok, some ⟨false, submission.document 1 1⟩, keyedEngine es submission) := by
    have hempty : (tablesAfter {} FixedBytes.zero (es ++ [.intentCommit keyedIntent])).observations.find?
        submission.scope = none := by
      rw [tablesAfter, List.foldl_append, hscope]
      exact hstream
    rw [keyedEngine, keyedEvents, told_append (es ++ [Event.intentCommit keyedIntent])]
    apply recordObservationAt_on rfl
    · exact hvalid
    · rfl
    · rw [hempty]
      rfl
    · simp
    · exact hfits
    · simpa using hroom'
  have hintended : (Process.up (Engine.on {} {} ⟨1, FixedBytes.zero⟩ 2 (told es) es)).after
      (.call (.commitIntent sampleWithKey) {}) =
        .up (Engine.on {} {} ⟨1, FixedBytes.zero⟩ 2 (told (es ++ [.intentCommit keyedIntent]))
          (es ++ [.intentCommit keyedIntent])) := congrArg Prod.snd hintends
  rw [hintended]
  simp only [Process.after, Process.step, Engine.call, hreported]

theorem keyed_committed :
    (keyedEngine es submission).store.state.intents.find? sampleScope = some keyedIntent.withKeyIds := by
  show (tablesAfter {} FixedBytes.zero (keyedEvents es submission)).intents.find? sampleScope = _
  rw [tablesAfter, keyedEvents, List.foldl_append, List.foldl_append]
  exact OrdMap.find?_insert_self ..

theorem keyed_stream (hstream : (tablesAfter {} FixedBytes.zero es).observations.find? sampleScope = none)
    (hscope : submission.scope = sampleScope) : (keyedEngine es submission).store.state.observations.find? sampleScope =
      some [(submission.document 1 1).withKeyIds] := by
  have hnone : (applyEvent {} (tablesAfter {} FixedBytes.zero es) (.intentCommit keyedIntent)).observations.find?
      submission.scope = none := by
    rw [hscope]
    exact hstream
  show (tablesAfter {} FixedBytes.zero (keyedEvents es submission)).observations.find? sampleScope = _
  rw [tablesAfter, keyedEvents, List.foldl_append, List.foldl_append]
  show ((applyEvent {} (tablesAfter {} FixedBytes.zero es) (.intentCommit keyedIntent)).observations.insert
    submission.scope (keepLast 8 (((applyEvent {} (tablesAfter {} FixedBytes.zero es)
      (.intentCommit keyedIntent)).observations.find? submission.scope).getD [] ++ _))).find? sampleScope = _
  rw [hnone, hscope, OrdMap.find?_insert_self, keepLast_of_le (by simp)]
  rfl

theorem keyed_selected (hstream : (tablesAfter {} FixedBytes.zero es).observations.find? sampleScope = none)
    (hscope : submission.scope = sampleScope) :
    ((keyedEngine es submission).store.state.selection sampleScope).selected =
      some (submission.document 1 1).withKeyIds := by
  rw [DurableState.selection, observationCandidates, keyed_stream hstream hscope]
  simp [selectCurrentObservation, selectCurrent]

/-- The two documents are compared. -/
theorem keyed_plans (hstream : (tablesAfter {} FixedBytes.zero es).observations.find? sampleScope = none)
    (hscope : submission.scope = sampleScope) (hhas : (tablesAfter {} FixedBytes.zero es).hasPolicy = true)
    (hfresh : evaluateFreshness (submission.document 1 1).withKeyIds
      (tablesAfter {} FixedBytes.zero es).policy.freshness 1 1 = .fresh) :
    ∃ b, b.evidence = evidenceOf (some keyedIntent.withKeyIds) (some (submission.document 1 1).withKeyIds)
        (tablesAfter {} FixedBytes.zero es).policy 1 1 ∧
      (keyedEngine es submission).plan {} ⟨sampleScope, none, 1⟩ = .ok (assemblePlan b sampleScope
        ((Join.walk keyedIntent.withKeyIds.subjects.entries (submission.document 1 1).withKeyIds.subjects.entries).map
          (classifySubject sampleScope (tablesAfter {} FixedBytes.zero es).policy
            (evidenceClassOf (some keyedIntent.withKeyIds) (some (submission.document 1 1).withKeyIds))
            keyedIntent.withKeyIds (submission.document 1 1).withKeyIds))) := by
  have htables : (keyedEngine es submission).store.state.hasPolicy = (tablesAfter {} FixedBytes.zero es).hasPolicy ∧
      (keyedEngine es submission).store.state.policy = (tablesAfter {} FixedBytes.zero es).policy := by
    simp only [keyedEngine, Engine.on, recorded, tablesAfter, keyedEvents, List.foldl_append]
    exact ⟨rfl, rfl⟩
  have hgoverning : PlanRequest.governing ⟨sampleScope, none, 1⟩ (keyedEngine es submission).store.state =
      (tablesAfter {} FixedBytes.zero es).policy := htables.2
  have hcompares : Compares (keyedEngine es submission) {} ⟨sampleScope, none, 1⟩ keyedIntent.withKeyIds
      (submission.document 1 1).withKeyIds := by
    refine ⟨keyed_committed, selection_agreed (keyed_selected hstream hscope), keyed_selected hstream hscope, ?_⟩
    rw [hgoverning]
    exact hfresh
  have hplan := plan_of_compares (htables.1.trans hhas) rfl rfl
    (by
      intro d hd
      rw [DurableState.stream, keyed_stream hstream hscope] at hd
      rw [List.mem_singleton.mp hd]
      exact hscope)
    hcompares
  rw [hgoverning] at hplan
  exact ⟨_, rfl, hplan⟩

end Keyed

/-- The policy is put before the intent for `k`. -/
def observedOnlyEvents : List Event := sampleEvents.take 2 ++ [.policyPut sampleObserveOnly]

theorem sampleObservedOnly_eq : sampleObservedOnly = .up (keyedEngine observedOnlyEvents sampleWithoutKey) := by
  have hshort : 0 < (Event.policyPut sampleObserveOnly).script.image.length ∧
      (Event.policyPut sampleObserveOnly).script.image.length ≤ 2000 := by
    decide
  have hput : (Process.up (sampleEngine 16 2)).step (.call (.putPolicy sampleObserveOnly false) {}) =
      (Status.ok, .up (Engine.on {} {} ⟨1, FixedBytes.zero⟩ 2 (told observedOnlyEvents) observedOnlyEvents)) := by
    apply putPolicy_recorded
    · rfl
    · exact sampleObserveOnly_ok
    · show (1 : UInt64) < 2
      decide
    · have htotal : (Event.policyPut sampleObserveOnly).script.Total := total_policyScript sampleObserveOnly
      exact (brief_of_image htotal hshort.1 hshort.2).fits (sample_ample 16)
  have hafter : (Process.up (sampleEngine 16 2)).after (.call (.putPolicy sampleObserveOnly false) {}) =
      .up (Engine.on {} {} ⟨1, FixedBytes.zero⟩ 2 (told observedOnlyEvents) observedOnlyEvents) := congrArg Prod.snd hput
  rw [sampleObservedOnly, sampleStart_eq, hafter]
  apply keyed_recorded
  · rfl
  · rfl
  · rfl
  · rfl
  · decide
  · exact .inr (show (2 : UInt64) < 8192 by decide)
  · exact .inr (show (3 : UInt64) < 8192 by decide)

/-- What the sample compares: the two documents name the subject, with and without `k`. -/
theorem sampleObservedOnly_facts : ∃ e plan intent observation declared seen, sampleObservedOnly = .up e ∧
    PlanRequest.governing ⟨sampleScope, none, 1⟩ e.store.state = sampleObserveOnly ∧
    e.plan {} ⟨sampleScope, none, 1⟩ = .ok plan ∧ e.store.state.intents.find? sampleScope = some intent ∧
    (e.store.state.selection sampleScope).selected = some observation ∧
    intent.subjects.find? sampleSubject = some declared ∧ observation.subjects.find? sampleSubject = some seen ∧
    declared.desired.find? sampleKey = some (.boolean true) ∧ seen.observed.find? sampleKey = none ∧
    ∃ d ∈ plan.decisions, d.subject = sampleSubject ∧ d.disposition = .actionable := by
  have hrun := sampleObservedOnly_run
  rw [sampleObservedOnly_eq] at hrun
  have hfresh : evaluateFreshness (sampleWithoutKey.document 1 1).withKeyIds sampleObserveOnly.freshness 1 1 = .fresh := by
    decide
  obtain ⟨b, -, hplan⟩ := @keyed_plans observedOnlyEvents sampleWithoutKey rfl rfl rfl hfresh
  have hdeclared : keyedIntent.withKeyIds.subjects.find? sampleSubject =
      some ⟨sampleSubject, true, OrdMap.empty.insert sampleKey (.boolean true)⟩ := rfl
  have hseen : (sampleWithoutKey.document 1 1).withKeyIds.subjects.find? sampleSubject =
      some ⟨sampleSubject, true, OrdMap.empty⟩ := rfl
  have hgoverning : PlanRequest.governing ⟨sampleScope, none, 1⟩
      (keyedEngine observedOnlyEvents sampleWithoutKey).store.state = sampleObserveOnly := rfl
  refine ⟨_, _, keyedIntent.withKeyIds, (sampleWithoutKey.document 1 1).withKeyIds, _, _, sampleObservedOnly_eq,
    hgoverning, hplan, keyed_committed, keyed_selected rfl rfl, hdeclared, hseen, rfl, rfl, ?_⟩
  by_contra hidle
  push Not at hidle
  have hcanonical := sampleObserveOnly_ok
  have hmanaged : sampleKey ∉ sampleObserveOnly.unmanagedAttributes := by simp [sampleObserveOnly, defaultPolicy]
  rw [← hgoverning] at hcanonical hmanaged
  have hwhy := (differing_idle_iff (run_tracked hrun).consistent hcanonical hplan keyed_committed
    (keyed_selected rfl rfl) hdeclared hseen hmanaged (by decide)).mp hidle
  rcases hwhy with ⟨key, intended, observed, -, -, -, hobserved, -⟩ | hineligible
  · -- nothing is observed of the subject
    cases hobserved
  · refine hineligible ⟨hfresh, rfl, ?_, rfl, rfl, rfl, by decide, by decide, rfl, rfl, by decide⟩
    rintro ⟨key, -, ⟨-, -, hpartial⟩ | ⟨-, -, hpartial⟩⟩ <;> cases hpartial

theorem observe_only_iff_sample : ∃ e plan intent observation declared seen, sampleObservedOnly = .up e ∧
    e.plan {} ⟨sampleScope, none, 1⟩ = .ok plan ∧
    ((DiffersObserveOnly sampleObserveOnly declared seen →
        ∀ d ∈ plan.decisions, d.subject = sampleSubject → d.disposition ≠ .actionable) ↔
      ¬ DiffersObserveOnly sampleObserveOnly declared seen ∨ Vetoed sampleObserveOnly declared seen ∨
        ¬ Eligible {} e {} ⟨sampleScope, none, 1⟩ intent observation sampleSubject declared seen) := by
  obtain ⟨e, plan, intent, observation, declared, seen, he, hpolicy, hplan, hintent, hobservation, hdeclared, hseen,
    -⟩ := sampleObservedOnly_facts
  have hrun := sampleObservedOnly_run
  rw [he] at hrun
  have hiff := observe_only_iff hrun (hpolicy ▸ sampleObserveOnly_ok) hplan hintent hobservation hdeclared hseen
  rw [hpolicy] at hiff
  exact ⟨e, plan, intent, observation, declared, seen, he, hplan, hiff⟩

/-- **`observe_only_acted_on`**: an attribute that the policy only observes is missing, and the subject is acted on. -/
theorem observe_only_acted_on : Run {} (fun _ _ => True) sampleObservedOnly ∧
    ∃ e plan intent observation declared seen, sampleObservedOnly = .up e ∧ PolicyOk {} e.store.state.policy ∧
      e.plan {} ⟨sampleScope, none, 1⟩ = .ok plan ∧ e.store.state.intents.find? sampleScope = some intent ∧
      (e.store.state.selection sampleScope).selected = some observation ∧
      intent.subjects.find? sampleSubject = some declared ∧ observation.subjects.find? sampleSubject = some seen ∧
      DiffersObserveOnly e.store.state.policy declared seen ∧
      ∃ d ∈ plan.decisions, d.subject = sampleSubject ∧ d.disposition = .actionable := by
  obtain ⟨e, plan, intent, observation, declared, seen, he, hpolicy, hplan, hintent, hobservation, hdeclared, hseen,
    hkey, hmissing, hacts⟩ := sampleObservedOnly_facts
  change e.store.state.policy = sampleObserveOnly at hpolicy
  refine ⟨sampleObservedOnly_run, e, plan, intent, observation, declared, seen, he, hpolicy ▸ sampleObserveOnly_ok, hplan,
    hintent, hobservation, hdeclared, hseen, ?_, hacts⟩
  rw [hpolicy]
  exact ⟨sampleKey, by simp [sampleObserveOnly], by simp [sampleObserveOnly, defaultPolicy], by simp [hkey, hmissing]⟩

end FabricReconciliation
