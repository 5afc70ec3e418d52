import FabricReconciliation.Redispatch
import FabricReconciliation.Verdicts

/-!
# Plans in later states (`engine.cpp:473-825`)

Other clients act between a plan and its dispatch. `Dispatch` compares four things of the plan with the state it finds:
the incarnation, the digest of the policy, generation and digest of the intent, and the observation that is selected.

* **`policyImage_injective`** — what is hashed of a stored policy determines it;
* **`admitted_iff`** — a plan is admitted exactly while policy, intent and selected observation are those it was made
  on; otherwise it is answered with StaleAuthority and nothing changes;
* **`dispatch_replans`** — what a dispatch acts on is, decision by decision, in the plan that the same request returns
  at that moment;
* **`plan_dispatches`** — in the state that it was made in, a plan is served in full and nothing in it is fenced.
-/

namespace FabricReconciliation

open Lib

attribute [ext] Incarnation

/-! ## What the digests determine -/

/-- The bytes `ComputePolicyDigest` hashes. -/
def policyImage (policy : ReconciliationPolicy) : Bytes := (fill kMaxCanonicalBytes (policyContent policy)).1

/-- The hashed bytes of a stored policy are its content, and determine it. -/
theorem policyImage_injective {limits : RuntimeLimits} {a b : ReconciliationPolicy} (ha : PolicyOk limits a)
    (hb : PolicyOk limits b) (hfa : encodePolicy a ≠ []) (hfb : encodePolicy b ≠ [])
    (h : policyImage a = policyImage b) : a = b := by
  have himage : ∀ {p : ReconciliationPolicy}, encodePolicy p ≠ [] → policyImage p = (policyContent p).image := by
    intro p hp
    obtain ⟨htotal, hfit, -⟩ := encoded_ne_nil hp
    rw [policyScript, Script.image_append, List.length_append] at hfit
    rw [policyScript, Script.total_append] at htotal
    unfold policyImage
    rw [fill_eq htotal.1 (by omega)]
  have hdigest : computePolicyDigest a = computePolicyDigest b := by
    show sha256Of (policyImage a) = sha256Of (policyImage b)
    rw [h]
  rw [himage hfa, himage hfb] at h
  have hencoded : encodePolicy a = encodePolicy b := by
    rw [encodePolicy, encodePolicy, (encoded_ne_nil hfa).2.2, (encoded_ne_nil hfb).2.2, policyScript, policyScript,
      Script.image_append, Script.image_append, h, hdigest]
  have hread := decodePolicyExact_encoded ha hfa
  rw [hencoded, decodePolicyExact_encoded hb hfb] at hread
  exact (Option.some.inj hread).symm

/-- SHA-256 tells the policies of the two states apart, and the observations that they select for the scope. -/
structure ToldApart (scope : ScopeId) (s t : DurableState) : Prop where
  policies : ¬ Collides (policyImage s.policy) (policyImage t.policy)
  observations : ∀ x y, (s.selection scope).selected = some x → (t.selection scope).selected = some y →
    ¬ Collides (observationImage x) (observationImage y)

/-- What the plan of a scope is made on is the same in both states. -/
structure SameBasis (scope : ScopeId) (s t : DurableState) : Prop where
  policy : t.policy = s.policy
  intent : t.intents.find? scope = s.intents.find? scope
  selected : (t.selection scope).selected = (s.selection scope).selected

/-- What `BuildPlanLocked` gathers of the scope. -/
def PlanRequest.evidence (request : PlanRequest) (e : Engine) (env : CallEnv) : ScopeEvidenceRef :=
  evidenceOf (e.store.state.intents.find? request.scope) (e.store.state.selection request.scope).selected
    (request.governing e.store.state) e.live.epoch (request.clock env)

section Planning

variable {limits : RuntimeLimits} {planner e : Engine} {env env' : CallEnv} {request : PlanRequest}
  {plan : ReconciliationPlan} {intent : IntentDocument} {observation : ObservationDocument} {result : DispatchResult}

/-- Observations are stored valid and encodable. -/
theorem kept_observation (h : Tracked limits (.up e)) {scope : ScopeId} {d : ObservationDocument}
    (hd : d ∈ e.store.state.stream scope) :
    (ObservationOk limits d ∧ d.withKeyIds = d ∧ d.scope = scope) ∧ encodeObservation d ≠ [] := by
  unfold DurableState.stream at hd
  cases hfind : e.store.state.observations.find? scope with
  | none => simp [hfind] at hd
  | some documents =>
    have hmem : d ∈ documents := by simpa [hfind] using hd
    have hentry := OrdMap.find?_eq_some_iff.mp hfind
    exact ⟨h.consistent.tables.observations _ hentry d hmem, h.stamped.entries.observations _ hentry d hmem⟩

/-- Two stored observations of one digest. -/
theorem observation_of_digest (hp : Tracked limits (.up planner)) (he : Tracked limits (.up e)) {scope scope' : ScopeId}
    {x y : ObservationDocument} (hx : x ∈ planner.store.state.stream scope) (hy : y ∈ e.store.state.stream scope')
    (hapart : ¬ Collides (observationImage x) (observationImage y)) (hdigest : y.digest = x.digest) : y = x := by
  obtain ⟨⟨hok, hkeys, -⟩, hfits⟩ := kept_observation hp hx
  obtain ⟨⟨hok', hkeys', -⟩, hfits'⟩ := kept_observation he hy
  rw [hok.digest, hok'.digest] at hdigest
  have himage := (sha256Of_eq_iff.mp hdigest.symm).resolve_right hapart
  exact (observationImage_injective hok hok' hkeys hkeys' hfits hfits' himage).symm

/-- Two stored policies of one digest. -/
theorem policy_of_digest (hp : Tracked limits (.up planner)) (he : Tracked limits (.up e))
    (hhas : planner.store.state.hasPolicy = true) (hhas' : e.store.state.hasPolicy = true)
    (hapart : ¬ Collides (policyImage planner.store.state.policy) (policyImage e.store.state.policy))
    (hdigest : computePolicyDigest planner.store.state.policy = computePolicyDigest e.store.state.policy) :
    e.store.state.policy = planner.store.state.policy := by
  have himage := (sha256Of_eq_iff.mp hdigest).resolve_right hapart
  exact (policyImage_injective (hp.consistent.tables.policy hhas) (he.consistent.tables.policy hhas')
    (hp.stamped.entries.policy hhas) (he.stamped.entries.policy hhas') himage).symm

/-- A plan carries what it was made on. -/
theorem plan_bound (hplan : planner.plan env request = .ok plan) :
    planner.store.state.hasPolicy = true ∧ plan.scope = request.scope ∧ plan.epoch = planner.live.epoch ∧
      plan.boot = planner.live.boot ∧
      BoundTo plan (computePolicyDigest (request.governing planner.store.state)) (request.evidence planner env) := by
  have hhas : planner.store.state.hasPolicy = true := by
    unfold Engine.plan buildPlan at hplan
    split at hplan
    · simp at hplan
    split at hplan
    · simp at hplan
    next hhas => simpa using hhas
  obtain ⟨report, hreport, rfl⟩ := plan_report hplan
  obtain ⟨policy, hpolicy, hevidence, -⟩ := classifyScope_ok hreport
  have hsame : policy = request.governing planner.store.state := (Option.some.inj hpolicy).symm
  have hintent : (selectCurrentIntent (request.input planner env).intents).selected =
      planner.store.state.intents.find? request.scope := (intentCandidates_selected planner.store.state request.scope).1
  have hreported : report.evidence = request.evidence planner env := by
    rw [hevidence, hsame, hintent]
    rfl
  refine ⟨hhas, rfl, rfl, rfl, ?_⟩
  rw [← hreported]
  exact assemblePlan_bound (request.basis planner report.evidence) request.scope report.records

/-! ## When a plan is admitted -/

/-- The re-checks of `Dispatch`, one after the other. -/
theorem admitPlan_eq (hmode : e.store.readOnly = false) (hlive : plan.epoch = e.live.epoch ∧ plan.boot = e.live.boot)
    (hhas : e.store.state.hasPolicy = true) :
    (∃ committed, e.admitPlan plan = .ok committed) ∨
      ∃ status, e.admitPlan plan = .error status ∧ status.code = .staleAuthority := by
  unfold Engine.admitPlan
  dsimp only
  rw [if_neg (by simp [hmode]), if_neg (by simp [hlive]), if_neg (by simp [hhas])]
  split
  · exact .inr ⟨_, rfl, rfl⟩
  split
  · exact .inr ⟨_, rfl, rfl⟩
  split
  · exact .inr ⟨_, rfl, rfl⟩
  split
  · exact .inr ⟨_, rfl, rfl⟩
  split
  · exact .inr ⟨_, rfl, rfl⟩
  · exact .inl ⟨_, rfl⟩

/-- What an admitted plan of an intent was made on is still there. -/
theorem admitted_basis (hrun : Run limits Process.Orderly (.up planner)) (hplan : planner.plan env request = .ok plan)
    (hlater : Later limits Process.Orderly (.up planner) (.up e))
    (hactive : plan.policyDigest = computePolicyDigest planner.store.state.policy)
    (hintended : planner.store.state.intents.find? request.scope = some intent)
    (hapart : ToldApart request.scope planner.store.state e.store.state) {committed : IntentDocument}
    (hgate : e.admitPlan plan = .ok committed) :
    SameBasis request.scope planner.store.state e.store.state ∧
      ∃ x, (planner.store.state.selection request.scope).selected = some x := by
  have hadmitted := admitPlan_ok hgate
  have hp := run_tracked hrun
  have he := run_tracked (hrun.later hlater)
  obtain ⟨hhas, hscope, -, -, hbound⟩ := plan_bound hplan
  have hnewer : Newer planner.store.state e.store.state := later_newer hrun hlater
  obtain ⟨hgeneration, -⟩ := hbound.intent
  obtain ⟨hname, -, hdigest⟩ := hbound.observation
  obtain ⟨y, hy, hyname, -, hydigest⟩ := hadmitted.selected
  rw [hscope] at hy
  have hcommitted : e.store.state.intents.find? request.scope = some committed := hscope ▸ hadmitted.committed
  unfold PlanRequest.evidence at hgeneration hname hdigest
  rw [hintended] at hgeneration hname hdigest
  -- no generation of the intent is republished, so that the generation tells it
  have hintent : committed = intent := by
    obtain ⟨d, hd, hcase⟩ := hnewer.intents request.scope intent hintended
    rw [hcommitted, Option.some.injEq] at hd
    rw [← hd] at hcase
    refine hcase.resolve_right fun hlt => ?_
    have hsame : committed.generation = intent.generation := by
      rw [hadmitted.intent.1, hgeneration]
      cases (planner.store.state.selection request.scope).selected <;> rfl
    rw [hsame] at hlt
    exact lt_irrefl _ hlt
  cases hx : (planner.store.state.selection request.scope).selected with
  | none =>
    -- stored observations have names
    rw [hx] at hname
    have hok := (kept_observation he (selected_mem hy)).1.1.observation
    rw [hyname, hname] at hok
    simp [evidenceOf, StringId.none, StringId.empty] at hok
  | some x =>
    rw [hx] at hdigest
    have hsame : y = x := observation_of_digest hp he (selected_mem hx) (selected_mem hy)
      (hapart.observations x y hx hy) (hydigest.trans hdigest)
    refine ⟨⟨?_, ?_, ?_⟩, x, rfl⟩
    · exact policy_of_digest hp he hhas (hnewer.policy hhas).1 hapart.policies (hactive.symm.trans hadmitted.policy)
    · rw [hcommitted, hintended, hintent]
    · rw [hy, hx, hsame]

/-- **`admitted_iff`**. -/
theorem admitted_iff (hrun : Run limits Process.Orderly (.up planner)) (hplan : planner.plan env request = .ok plan)
    (hactive : request.policy = none) (hintended : (planner.store.state.intents.find? request.scope).isSome)
    (hlater : Later limits Process.Orderly (.up planner) (.up e)) (hlive : e.live = planner.live)
    (hmode : e.store.readOnly = false) (hapart : ToldApart request.scope planner.store.state e.store.state) :
    ((∃ committed, e.admitPlan plan = .ok committed) ↔ SameBasis request.scope planner.store.state e.store.state ∧
      ∃ x, (planner.store.state.selection request.scope).selected = some x) ∧
    ((∃ committed, e.admitPlan plan = .ok committed) ∨
      ∃ status, status.code = .staleAuthority ∧ ∀ env', e.dispatch env' plan = (.error status, e)) := by
  obtain ⟨intent, hintent⟩ := Option.isSome_iff_exists.mp hintended
  obtain ⟨hhas, hscope, hepoch, hboot, hbound⟩ := plan_bound hplan
  have hpolicy : plan.policyDigest = computePolicyDigest planner.store.state.policy := by
    rw [hbound.policy, PlanRequest.governing, hactive]
    rfl
  have hhas' : e.store.state.hasPolicy = true := by
    have hnewer : Newer planner.store.state e.store.state := later_newer hrun hlater
    exact (hnewer.policy hhas).1
  have hsame : plan.epoch = e.live.epoch ∧ plan.boot = e.live.boot := by
    rw [hlive]
    exact ⟨hepoch, hboot⟩
  refine ⟨⟨?_, ?_⟩, ?_⟩
  · rintro ⟨committed, hgate⟩
    exact admitted_basis hrun hplan hlater hpolicy hintent hapart hgate
  · rintro ⟨hbasis, x, hx⟩
    obtain ⟨hgeneration, hdigest⟩ := hbound.intent
    obtain ⟨hname, hnumber, hseen⟩ := hbound.observation
    unfold PlanRequest.evidence at hgeneration hdigest hname hnumber hseen
    rw [hintent, hx] at hgeneration hdigest hname hnumber hseen
    refine ⟨intent, ?_⟩
    unfold Engine.admitPlan
    dsimp only
    rw [if_neg (by simp [hmode]), if_neg (by simp [hsame]), if_neg (by simp [hhas']), hbasis.policy,
      if_neg (not_not.mpr hpolicy), hscope, hbasis.intent, hintent]
    dsimp only
    rw [hgeneration, hdigest, if_neg (by simp [evidenceOf]),
      show (selectCurrentObservation (observationCandidates e.store.state request.scope)).selected = some x from
        hbasis.selected.trans hx]
    dsimp only
    rw [hname, hnumber, hseen, if_neg (by simp [evidenceOf])]
  · rcases admitPlan_eq hmode hsame hhas' with hok | ⟨status, hstatus, hcode⟩
    · exact .inl hok
    · refine .inr ⟨status, hcode, fun env' => ?_⟩
      unfold Engine.dispatch
      rw [hstatus]

/-! ## Planning again -/

/-- A decision depends on the basis, and of the state behind it on the active policy and the fences only. -/
theorem decision_congr {b : PlanBasis} {t : DurableState} {record : DriftRecord} (hpolicy : t.policy = b.state.policy)
    (hfence : fenceHoldsFor t record.scope record.subject b.live.epoch =
      fenceHoldsFor b.state record.scope record.subject b.live.epoch) :
    ({ b with state := t }).decision record = b.decision record := by
  have hauthority : ({ b with state := t }).authority = b.authority := by
    simp only [PlanBasis.authority, buildAuthority, hpolicy]
  have hassessment : ({ b with state := t }).assessment record = b.assessment record := by
    unfold PlanBasis.assessment
    rw [hauthority]
    exact congrArg _ hfence
  have hsettled : ({ b with state := t }).settled record = b.settled record := by
    unfold PlanBasis.settled
    rw [hassessment]
    dsimp only
    rw [hfence]
  unfold PlanBasis.decision
  rw [hsettled, hauthority]
  rfl

/-- The same comparison at a later moment, with the same clock reading. -/
theorem Compares.later (h : Compares planner env request intent observation) (hlive : e.live = planner.live)
    (hbasis : SameBasis request.scope planner.store.state e.store.state) :
    Compares e env request intent observation := by
  have hgoverning : request.governing e.store.state = request.governing planner.store.state := by
    unfold PlanRequest.governing
    rw [hbasis.policy]
  have hselected := hbasis.selected.trans h.selected
  refine ⟨hbasis.intent.trans h.committed, selection_agreed hselected, hselected, ?_⟩
  rw [hgoverning, hlive]
  exact h.fresh

/-- Planning again on the same basis: the records are the same, and each is decided in the state of now. -/
theorem replanned (hp : Tracked limits (.up planner)) (hhas' : e.store.state.hasPolicy = true)
    (he : Tracked limits (.up e)) (hlive : e.live = planner.live) (hplan : planner.plan env request = .ok plan)
    (hbasis : SameBasis request.scope planner.store.state e.store.state)
    (hcompares : Compares planner env request intent observation) :
    ∃ (b : PlanBasis) (records : List DriftRecord), b.state = planner.store.state ∧ b.live = planner.live ∧
      plan = assemblePlan b request.scope records ∧
      e.plan env request = .ok (assemblePlan { b with state := e.store.state } request.scope records) := by
  obtain ⟨report, hreport, hassembled⟩ := plan_report hplan
  have hhas := (plan_bound hplan).1
  have hgoverning : request.governing e.store.state = request.governing planner.store.state := by
    unfold PlanRequest.governing
    rw [hbasis.policy]
  have hscope : request.scope.empty = false := by
    unfold Engine.plan buildPlan at hplan
    split at hplan
    · simp at hplan
    next hscope => simpa using hscope
  have hlater := hcompares.later hlive hbasis
  have hown : intent.scope = request.scope :=
    (he.consistent.tables.intents _ (OrdMap.find?_eq_some_iff.mp hlater.committed)).2.2
  have hagain := plan_of_compares hhas' hscope hown (fun d hd => (kept_observation he hd).1.2.2) hlater
  have hrecords := hcompares.records hreport
  have hevidence := hcompares.evidence hreport
  rw [hevidence] at hrecords
  refine ⟨request.basis planner report.evidence, report.records, rfl, rfl, hassembled, ?_⟩
  have hlimits : e.options.limits = planner.options.limits := he.consistent.options.trans hp.consistent.options.symm
  have hpolicy : request.policy.getD e.store.state.policy = request.policy.getD planner.store.state.policy := hgoverning
  have hobservation : (selectCurrentObservation (observationCandidates e.store.state request.scope)).selected =
      (selectCurrentObservation (observationCandidates planner.store.state request.scope)).selected := hbasis.selected
  have hbase : request.basis e report.evidence =
      { request.basis planner report.evidence with state := e.store.state } := by
    unfold PlanRequest.basis planBasis
    rw [hlimits, hpolicy, hobservation, hbasis.intent, hlive]
  rw [hagain, hgoverning, hlive, ← hevidence, hbase, hrecords]
  rfl

/-- Issuing an attempt leaves the fences. -/
theorem issueAttempt_fences (s : DurableStore) (a : AttemptRecord) :
    (s.issueAttempt a).2.state.fences = s.state.fences := by
  unfold DurableStore.issueAttempt
  split
  · rfl
  split
  · rfl
  rcases @commit_cases s "attempt" (.attemptIssued a) (by simp [Event.isDocument]) with
    ⟨-, -, -, -, htables, -⟩ | ⟨-, htables, -⟩
  · exact (congrArg DurableState.fences htables :)
  · exact (congrArg DurableState.fences htables :)

/-- The loop answers decisions that no fence of its start covers. -/
theorem answersOf_due {live : Incarnation} {now : UnixMillis} {decisions : List Decision} {s : DurableStore}
    {x : Decision × AttemptRecord} (h : x ∈ answersOf live now decisions s) : x.1.due s.state live = true := by
  induction decisions generalizing s with
  | nil => simp [answersOf] at h
  | cons d rest ih =>
    unfold answersOf at h
    by_cases hact : d.disposition ≠ .actionable
    · rw [if_pos hact] at h
      exact ih h
    rw [if_neg hact] at h
    push Not at hact
    cases hfence : fenceHoldsFor s.state d.scope d.subject live.epoch with
    | true =>
      rw [if_pos hfence] at h
      exact ih h
    | false =>
      have hdue : d.due s.state live = true := by simp [Decision.due, hact, hfence]
      rw [if_neg (by simp [hfence])] at h
      cases hreuse : Engine.reusable s.state live.epoch d.idempotencyKey with
      | some existing =>
        simp only [hreuse] at h
        rcases List.mem_cons.mp h with rfl | hx
        · exact hdue
        · exact ih hx
      | none =>
        simp only [hreuse] at h
        rcases List.mem_cons.mp h with rfl | hx
        · exact hdue
        · have hrest := ih hx
          rw [due_congr (issueAttempt_fences s _)] at hrest
          exact hrest

/-- **`dispatch_replans`**. -/
theorem dispatch_replans (hrun : Run limits Process.Orderly (.up planner)) (hplan : planner.plan env request = .ok plan)
    (hlater : Later limits Process.Orderly (.up planner) (.up e))
    (hapart : ToldApart request.scope planner.store.state e.store.state)
    (hok : (e.dispatch env' plan).1 = .ok result) :
    ∀ i ∈ result.intents, ∃ d plan', e.plan env request = .ok plan' ∧ d ∈ plan.decisions ∧ d ∈ plan'.decisions ∧
      d.disposition = .actionable ∧ i.idempotencyKey = d.idempotencyKey := by
  intro i hi
  obtain ⟨committed, t, hgate, hloop, -⟩ := dispatch_loop hok
  have hintents := dispatchLoop_answers (congrArg Prod.fst hloop)
  rw [hintents, List.nil_append] at hi
  obtain ⟨x, hx, rfl⟩ := List.mem_map.mp hi
  obtain ⟨hmem, hactionable, hkey⟩ := answersOf_key hx
  have hdue := answersOf_due hx
  rw [show (e.under env').store.state = e.store.state from rfl] at hdue
  obtain ⟨-, hjustified⟩ := actionable_justified hplan
  obtain ⟨intent, observation, hwhy⟩ := (hjustified x.1 hmem).2 hactionable
  have hadmitted := admitPlan_ok hgate
  obtain ⟨-, -, hepoch, hboot, -⟩ := plan_bound hplan
  have hlive : e.live = planner.live := by
    apply Incarnation.ext
    · exact hadmitted.live.1.symm.trans hepoch
    · exact hadmitted.live.2.symm.trans hboot
  obtain ⟨hbasis, -⟩ := admitted_basis hrun hplan hlater hwhy.digest hwhy.compares.committed hapart hgate
  have hnewer : Newer planner.store.state e.store.state := later_newer hrun hlater
  have hhas := (hnewer.policy (plan_bound hplan).1).1
  obtain ⟨b, records, hstate, hbase, rfl, hagain⟩ :=
    replanned (run_tracked hrun) hhas (run_tracked (hrun.later hlater)) hlive hplan hbasis hwhy.compares
  refine ⟨x.1, _, hagain, hmem, ?_, hactionable, hkey⟩
  rw [assemblePlan_decisions] at hmem ⊢
  obtain ⟨record, hrecord, hx1⟩ := List.mem_map.mp hmem
  refine List.mem_map.mpr ⟨record, hrecord, ?_⟩
  rw [← hx1] at hactionable hdue ⊢
  refine decision_congr (hbasis.policy.trans (congrArg DurableState.policy hstate).symm) ?_
  -- neither then nor now is there a fence
  have hthen := (PlanBasis.proven_iff.mp (decision_proven hactionable)).unfenced
  have hnow : fenceHoldsFor e.store.state record.scope record.subject e.live.epoch = false := by
    have hpair := hdue
    unfold Decision.due at hpair
    rw [Bool.and_eq_true, Bool.not_eq_true'] at hpair
    exact hpair.2
  rw [hthen, hbase, ← hlive, hnow]

/-- **`plan_dispatches`**. -/
theorem plan_dispatches (h : Run limits Process.Orderly (.up e)) (hplan : e.plan env request = .ok plan)
    (hfew : FewIssued limits (e.dispatch env' plan).2.store.directory.log)
    (hok : (e.dispatch env' plan).1 = .ok result) :
    result.fenced = 0 ∧ (e.answers env' plan).map Prod.fst =
      plan.decisions.filter fun d => decide (d.disposition = .actionable) := by
  have hserved := dispatch_serves h hfew hok
  have hunfenced : ∀ d ∈ plan.decisions, d.disposition = .actionable →
      fenceHoldsFor e.store.state d.scope d.subject e.live.epoch = false := by
    intro d hd hactionable
    obtain ⟨report, -, rfl⟩ := plan_report hplan
    rw [assemblePlan_decisions] at hd
    obtain ⟨record, -, rfl⟩ := List.mem_map.mp hd
    exact (PlanBasis.proven_iff.mp (decision_proven hactionable)).unfenced
  constructor
  · rw [hserved.fenced, List.length_eq_zero_iff, List.filter_eq_nil_iff]
    intro d hd hblocked
    unfold Decision.blocked at hblocked
    rw [Bool.and_eq_true, decide_eq_true_eq] at hblocked
    exact Bool.false_ne_true ((hunfenced d hd hblocked.1).symm.trans hblocked.2)
  · rw [hserved.decided]
    apply List.filter_congr
    intro d hd
    unfold Decision.due
    by_cases hactionable : d.disposition = .actionable
    · simp [hactionable, hunfenced d hd hactionable]
    · simp [hactionable]

end Planning

/-! ## The sample -/

/-- The engine of the sample before and after somebody dispatched another plan. -/
theorem sample_later : Later {} Process.Orderly (.up (sampleEngine 16 4)) (.up (sampleEngine 16 5)) := by
  have hstep : Later {} Process.Orderly (.up (sampleEngine 16 4))
      ((Process.up (sampleEngine 16 4)).step (.call (.dispatch samplePlan) {})).2 :=
    Later.refl.step _ (.inl rfl) (by simp)
  rw [@sample_issues 16 (by decide)] at hstep
  exact hstep

theorem sample_told_apart : ToldApart sampleScope (sampleEngine 16 4).store.state (sampleEngine 16 5).store.state := by
  refine ⟨fun h => h.1 rfl, fun x y hx hy h => h.1 ?_⟩
  rw [show ((sampleEngine 16 5).store.state.selection sampleScope) =
    ((sampleEngine 16 4).store.state.selection sampleScope) from rfl, hx, Option.some.injEq] at hy
  rw [hy]

/-- The plan is still admitted. -/
theorem admitted_iff_sample : ∃ plan, (sampleEngine 16 4).plan {} ⟨sampleScope, none, 1⟩ = .ok plan ∧
    ∃ committed, (sampleEngine 16 5).admitPlan plan = .ok committed := by
  obtain ⟨plan, d, h⟩ := sample_planned
  exact ⟨plan, h.made, (admitted_iff sampleEngine_run h.made rfl rfl sample_later rfl rfl sample_told_apart).1.mpr
    ⟨⟨rfl, rfl, rfl⟩, _, sample_selected 16⟩⟩

/-- Its one action is what would be planned now. -/
theorem dispatch_replans_sample : ∃ plan result, (sampleEngine 16 4).plan {} ⟨sampleScope, none, 1⟩ = .ok plan ∧
    ((sampleEngine 16 5).dispatch {} plan).1 = .ok result ∧ result.intents ≠ [] ∧
    ∀ i ∈ result.intents, ∃ d plan', (sampleEngine 16 5).plan {} ⟨sampleScope, none, 1⟩ = .ok plan' ∧
      d ∈ plan.decisions ∧ d ∈ plan'.decisions ∧ d.disposition = .actionable ∧ i.idempotencyKey = d.idempotencyKey := by
  obtain ⟨plan, d, h⟩ := sample_planned
  obtain ⟨a, ha⟩ := h.dispatched_later
  cases hresult : ((sampleEngine 16 5).dispatch {} plan).1 with
  | error status => simp [hresult, Except.map] at ha
  | ok result =>
    have hintents : result.intents = [Engine.actionIntent committedIntent.withKeyIds a] := by
      simpa [hresult, Except.map] using ha
    exact ⟨plan, result, h.made, hresult, by simp [hintents],
      dispatch_replans sampleEngine_run h.made sample_later sample_told_apart hresult⟩

theorem plan_dispatches_sample : ∃ plan result, (sampleEngine 16 4).plan {} ⟨sampleScope, none, 1⟩ = .ok plan ∧
    ((sampleEngine 16 4).dispatch {} plan).1 = .ok result ∧ result.fenced = 0 ∧
    ((sampleEngine 16 4).answers {} plan).map Prod.fst =
      plan.decisions.filter fun d => decide (d.disposition = .actionable) := by
  obtain ⟨plan, d, h⟩ := sample_planned
  have hdone := h.dispatched (show ({} : CallEnv).faults = [] from rfl)
  have hfew : FewIssued {} ((sampleEngine 16 4).dispatch {} plan).2.store.directory.log := by
    rw [hdone]
    exact few_of_short (show sampleEvents.length < 2 ^ 64 - 1 by decide)
  exact ⟨plan, _, h.made, congrArg Prod.fst hdone,
    plan_dispatches sampleEngine_run h.made hfew (congrArg Prod.fst hdone)⟩

end FabricReconciliation
