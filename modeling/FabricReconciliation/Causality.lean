import FabricReconciliation.Purity

/-!
# What a verification rests on (`engine.cpp:803-823`, `engine.cpp:1008-1084`)

`Verify` compares generations only. That the observation it cites was recorded after the action was
issued follows from what `Dispatch` checked then: the plan's observation was still the one selected, and
a selected observation is of the highest generation retained.

* **`call_flights`** — the attempts in flight after a call were in flight before it or were issued by it;
* **`verification_follows_dispatch`** — in every sequence of steps whose dispatched plans were returned by
  `Plan`, the cited observation was recorded by a later call of the same incarnation.
-/

namespace FabricReconciliation

open Lib

/-! ## Sequences of steps -/

/-- The process after the steps. -/
def Process.play (p : Process) (steps : List Step) : Process := steps.foldl Process.after p

/-- The process that the steps lead to from an empty directory. -/
def played (steps : List Step) : Process := (Process.down {} {}).play steps

/-- Every boot uses the same limits. -/
def Bounded (limits : RuntimeLimits) (steps : List Step) : Prop :=
  ∀ options opening id env, .boot options opening id env ∈ steps → options.limits = limits

theorem Process.play_nil (p : Process) : p.play [] = p := rfl

theorem Process.play_cons (p : Process) (a : Step) (rest : List Step) : p.play (a :: rest) = (p.after a).play rest := rfl

theorem played_append (steps rest : List Step) : played (steps ++ rest) = (played steps).play rest :=
  List.foldl_append

theorem played_concat (steps : List Step) (a : Step) : played (steps ++ [a]) = (played steps).after a := by
  simp [played, Process.play]

theorem run_played {limits : RuntimeLimits} {allowed : Process → Step → Prop} {steps : List Step}
    (h : Bounded limits steps) (ha : ∀ p, ∀ a ∈ steps, allowed p a) : Run limits allowed (played steps) := by
  induction steps using List.reverseRecOn with
  | nil => exact .start
  | append_singleton steps a ih =>
    rw [played_concat]
    refine (ih (fun options opening id env hmem => h options opening id env (by simp [hmem]))
      fun p x hx => ha p x (by simp [hx])).after (ha _ a (by simp)) ?_
    rintro options opening id env rfl
    exact h options opening id env (by simp)

/-! ## Plans that `Plan` returned -/

/-- Some engine returned the plan. -/
def Genuine (plan : ReconciliationPlan) : Prop := ∃ e env request, Engine.plan e env request = .ok plan

/-- A returned plan decides about its own scope, on its own observation. -/
theorem Genuine.decisions {plan : ReconciliationPlan} (h : Genuine plan) {d : Decision} (hd : d ∈ plan.decisions) :
    d.scope = plan.scope ∧ d.authority.observationGeneration = plan.observationGeneration := by
  obtain ⟨e, env, request, hplan⟩ := h
  obtain ⟨report, hreport, rfl⟩ := buildPlan_ok hplan
  obtain ⟨record, hrecord, rfl⟩ := List.mem_map.mp hd
  exact ⟨classifyScope_scope hreport record (List.mem_of_mem_take hrecord), rfl⟩

/-! ## What one call does -/

/-- The call issued the attempt. -/
structure Issues (e : Engine) (env : CallEnv) (plan : ReconciliationPlan) (a : AttemptRecord) : Prop where
  absent : e.store.state.attempts.find? a.id ≠ some a
  stored : (e.dispatch env plan).2.store.state.attempts.find? a.id = some a
  decided : ∃ d ∈ plan.decisions, d.disposition = .actionable ∧ ∃ now, a = Engine.newAttempt e.live now a.id d

/-- The call recorded the observation. -/
structure Records (e : Engine) (env : CallEnv) (submission : ObservationSubmission) (stamp : UnixMillis)
    (d : ObservationDocument) : Prop where
  status : (e.recordObservationAt env submission stamp).1.code = .ok
  document : d = (e.stampObservation env submission stamp).withKeyIds
  absent : d ∉ e.store.state.stream d.scope
  stored : d ∈ (e.recordObservationAt env submission stamp).2.2.store.state.stream d.scope

section Calls

variable {limits : RuntimeLimits} {e : Engine} {env : CallEnv} {operation : Operation}

theorem newAttempt_id (live : Incarnation) (now : UnixMillis) (next : AttemptId) (d : Decision) :
    Engine.newAttempt live now (Engine.newAttempt live now next d).id d = Engine.newAttempt live now next d := by
  unfold Engine.newAttempt
  by_cases hzero : next = 0
  · simp [hzero]
  · simp [hzero]

/-- **`call_flights`**: an attempt in flight was in flight before the call, or the call issued it. -/
theorem call_flights (h : Tracked limits (.up e)) {k : UInt64} {a : AttemptRecord}
    (ha : (e.call env operation).2.store.state.attempts.find? k = some a) (hflight : a.state.isTerminal = false) :
    (∃ b, e.store.state.attempts.find? k = some b ∧ b.state.isTerminal = false ∧
      a = { b with state := a.state, transitions := a.transitions }) ∨
    ∃ plan, operation = .dispatch plan ∧ Issues e env plan a := by
  obtain ⟨hsound, hlive⟩ := h.sound
  have hcases := hsound.invariant (P := fun st => ∀ k a, st.attempts.find? k = some a → a.state.isTerminal = false →
    (∃ b, e.store.state.attempts.find? k = some b ∧ b.state.isTerminal = false ∧
      a = { b with state := a.state, transitions := a.transitions }) ∨
    ∃ plan, operation = .dispatch plan ∧ ∃ d ∈ plan.decisions, d.disposition = .actionable ∧
      ∃ now, a = Engine.newAttempt e.live now k d) (fun _ => hlive) (call_commits h.consistent env operation)
    (by
      intro st st' htables hst
      rw [← (tables_eq_iff.mp htables).2.2.2.2.2.2.2.1]
      exact hst)
    (by
      intro st ev _ _ hw hst k a ha hflight
      cases hw with
      | attemptIssued p d now hcause hd hact hfree hnone =>
        rcases find?_applyAttempt ha with ⟨hk, rfl⟩ | ⟨-, hold⟩
        · right
          exact ⟨p, Option.some.inj hcause, d, hd, hact, now, by rw [hk, newAttempt_id]⟩
        · exact hst k a hold hflight
      | attemptTransition b b' hm hc =>
        rcases find?_applyAttempt ha with ⟨hk, rfl⟩ | ⟨-, hold⟩
        · have hid : a.id = b.id := by rw [hm.same]
          rcases hst b.id b hm.stored hm.running with ⟨c, hc', hrunning, hsame⟩ | ⟨plan, hplan, -⟩
          · left
            rw [hk, hid]
            refine ⟨c, hc', hrunning, ?_⟩
            have hsame' := hm.same
            rw [hsame] at hsame'
            exact hsame'
          · subst hplan
            cases hc <;> simp_all
        · exact hst k a hold hflight
      | _ => exact hst k a ha hflight)
    (fun k a ha hflight => .inl ⟨a, ha, hflight, rfl⟩) k a ha hflight
  rcases hcases with hold | ⟨plan, rfl, d, hd, hact, now, hnew⟩
  · exact .inl hold
  by_cases hold : e.store.state.attempts.find? k = some a
  · exact .inl ⟨a, hold, hflight, rfl⟩
  · right
    have hid : a.id = k := ((h.step (.call (.dispatch plan) env) (by simp)).consistent.valid ha).2
    subst hid
    exact ⟨plan, rfl, hold, ha, d, hd, hact, now, hnew⟩

/-- The window of a scope grows by an observation recorded for it, if at all. -/
theorem call_stream (h : Tracked limits (.up e)) {scope : ScopeId} {d : ObservationDocument}
    (hd : d ∈ (e.call env operation).2.store.state.stream scope) :
    d ∈ e.store.state.stream scope ∨
      ∃ submission stamp, operation = .recordObservationAt submission stamp ∧ Records e env submission stamp d := by
  by_cases hother : ∀ submission stamp, operation = .recordObservationAt submission stamp → submission.scope ≠ scope
  · obtain ⟨hsound, hlive⟩ := h.sound
    have hsame := hsound.invariant (P := fun st => st.observations.find? scope = e.store.state.observations.find? scope)
      (fun _ => hlive) (call_commits h.consistent env operation)
      (fun htables hst => by rw [← (tables_eq_iff.mp htables).2.2.2.2.2.2.1]; exact hst)
      (fun _ _ hw hst => (hw.observations hother).trans hst) rfl
    left
    unfold DurableState.stream at hd ⊢
    rw [hsame] at hd
    exact hd
  · push Not at hother
    obtain ⟨submission, stamp, rfl, hscope⟩ := hother
    by_cases hold : d ∈ e.store.state.stream scope
    · exact .inl hold
    right
    refine ⟨submission, stamp, rfl, ?_⟩
    have hafter : d ∈ (e.recordObservationAt env submission stamp).2.2.store.state.stream scope := hd
    cases hgate : e.admitObservation env submission stamp with
    | error answer =>
      unfold Engine.recordObservationAt at hafter
      rw [hgate] at hafter
      exact absurd hafter hold
    | ok document =>
      by_cases hs : ((e.under env).store.commitObservation document).1.code ≠ .ok
      · obtain ⟨q, hq⟩ := commit_failed hs
        unfold Engine.recordObservationAt at hafter
        simp only [hgate, if_pos hs] at hafter
        have hstate : (e.withStore ((e.under env).store.commitObservation document).2).store.state =
          { e.store.state with sequence := q } := hq
        rw [hstate] at hafter
        exact absurd hafter hold
      · rw [not_not] at hs
        obtain ⟨hdocument, -, -⟩ := admitObservation_ok h.consistent hgate
        have hcopy := hafter
        rw [accepted_stream h.consistent hgate hs, stream_applyObservation] at hcopy
        split at hcopy
        next hsame =>
          rcases List.mem_append.mp (mem_of_mem_keepLast hcopy) with hkept | hnew
          · exact absurd hkept hold
          · have hd' : d = document.withKeyIds := by simpa using hnew
            have hdscope : d.scope = scope := by rw [hd', hsame]; rfl
            refine ⟨?_, by rw [hd', hdocument], by rw [hdscope]; exact hold, by rw [hdscope]; exact hafter⟩
            unfold Engine.recordObservationAt
            simp [hgate, hs, Status.ok]
        · exact absurd hcopy hold

/-- When a plan is dispatched, nothing retained for its scope is newer than what it was built on. -/
theorem admitPlan_latest {plan : ReconciliationPlan} {intent : IntentDocument} (h : e.admitPlan plan = .ok intent) :
    ∀ d ∈ e.store.state.stream plan.scope, d.generation ≤ plan.observationGeneration := by
  unfold Engine.admitPlan at h
  simp only at h
  split at h
  · simp at h
  split at h
  · simp at h
  split at h
  · simp at h
  split at h
  · simp at h
  split at h
  · simp at h
  split at h
  · simp at h
  split at h
  · simp at h
  next selected hselected =>
    split at h
    · simp at h
    next hcurrent =>
      push Not at hcurrent
      have hselection : (e.store.state.selection plan.scope).selected = some selected := hselected
      rcases selection_cases e.store.state plan.scope with ⟨-, hnone⟩ | ⟨current, -, htop, ⟨-, hnone⟩ | ⟨-, hsome⟩⟩
      · simp [hnone] at hselection
      · simp [hnone] at hselection
      · rw [hsome, Option.some.injEq] at hselection
        rw [← hcurrent.2.1, ← hselection]
        exact htop

end Calls

/-! ## Attempts in flight and the evidence since -/

/-- The attempt `a` of engine `e` was issued by the dispatch of `plan` behind `earlier`; the process did not
exit `since`, and what is retained beyond the generation the action was based on was recorded since. -/
structure Traced (earlier since : List Step) (plan : ReconciliationPlan) (env : CallEnv) (origin e : Engine)
    (first a : AttemptRecord) : Prop where
  running : .exit ∉ since
  position : played earlier = .up origin
  live : e.live = origin.live
  issued : Issues origin env plan first
  same : a = { first with state := a.state, transitions := a.transitions }
  evidence : ∀ d ∈ e.store.state.stream a.scope, a.authority.observationGeneration < d.generation →
    ∃ between submission stamp env' rest recorder,
      since = between ++ .call (.recordObservationAt submission stamp) env' :: rest ∧
      played (earlier ++ .call (.dispatch plan) env :: between) = .up recorder ∧ recorder.live = origin.live ∧
      Records recorder env' submission stamp d

section Traces

variable {limits : RuntimeLimits} {steps : List Step} {e : Engine}

/-- The dispatch of a returned plan starts a trace: nothing newer is retained yet. -/
theorem Issues.traced {plan : ReconciliationPlan} {env : CallEnv} {a : AttemptRecord} (h : Issues e env plan a)
    (hplan : Genuine plan) (hup : played steps = .up e) (ht : Tracked limits (.up e)) :
    Traced steps [] plan env e (e.call env (.dispatch plan)).2 a a := by
  refine ⟨by simp, hup, (call_frame e env _).2, h, rfl, ?_⟩
  intro d hd hnewer
  exfalso
  obtain ⟨decision, hdecision, -, now, hnew⟩ := h.decided
  obtain ⟨hscope, hgeneration⟩ := hplan.decisions hdecision
  have hascope : a.scope = plan.scope := by rw [hnew]; exact hscope
  have hagen : a.authority.observationGeneration = plan.observationGeneration := by rw [hnew]; exact hgeneration
  rw [hascope] at hd
  rcases call_stream ht hd with hold | ⟨submission, stamp, hoperation, -⟩
  · cases hgate : e.admitPlan plan with
    | error status =>
      have hstored := h.stored
      unfold Engine.dispatch at hstored
      rw [hgate] at hstored
      exact h.absent hstored
    | ok intent =>
      rw [hagen] at hnewer
      exact absurd hnewer (not_lt.mpr (admitPlan_latest hgate d hold))
  · simp at hoperation

/-- One more call keeps the trace of an attempt that is still in flight. -/
theorem Traced.call {earlier since : List Step} {plan : ReconciliationPlan} {env env' : CallEnv} {origin : Engine}
    {first a b : AttemptRecord} (h : Traced earlier since plan env origin e first a) (operation : Operation)
    (hup : played (earlier ++ .call (.dispatch plan) env :: since) = .up e) (ht : Tracked limits (.up e))
    (hb : b = { a with state := b.state, transitions := b.transitions }) :
    Traced earlier (since ++ [.call operation env']) plan env origin (e.call env' operation).2 first b := by
  have hscope : b.scope = a.scope := by rw [hb]
  have hauthority : b.authority = a.authority := by rw [hb]
  refine ⟨?_, h.position, (call_frame e env' operation).2.trans h.live, h.issued, ?_, ?_⟩
  · simpa using h.running
  · have hsame := h.same
    rw [hb, hsame]
  · intro d hd hnewer
    rw [hscope] at hd
    rw [hauthority] at hnewer
    rcases call_stream ht hd with hold | ⟨submission, stamp, rfl, hrecords⟩
    · obtain ⟨between, submission, stamp, env'', rest, recorder, hsince, hrecorder, hrecords⟩ :=
        h.evidence d hold hnewer
      exact ⟨between, submission, stamp, env'', rest ++ [.call operation env'], recorder, by rw [hsince]; simp,
        hrecorder, hrecords⟩
    · exact ⟨since, submission, stamp, env', [], e, rfl, hup, h.live, hrecords⟩

/-- A boot does not apply while the engine is up. -/
theorem Traced.boot {earlier since : List Step} {plan : ReconciliationPlan} {env env' : CallEnv} {origin : Engine}
    {first a : AttemptRecord} (h : Traced earlier since plan env origin e first a) (options : EngineOptions)
    (opening : DurableStore.OpenEnv) (id : BootId) :
    Traced earlier (since ++ [.boot options opening id env']) plan env origin e first a := by
  refine ⟨by simpa using h.running, h.position, h.live, h.issued, h.same, ?_⟩
  intro d hd hnewer
  obtain ⟨between, submission, stamp, env'', rest, recorder, hsince, hrecorder, hrecords⟩ := h.evidence d hd hnewer
  exact ⟨between, submission, stamp, env'', rest ++ [.boot options opening id env'], recorder, by rw [hsince]; simp,
    hrecorder, hrecords⟩

/-- Every attempt in flight of a writable engine has its trace. -/
theorem flights_traced (hbounded : Bounded limits steps)
    (hgenuine : ∀ plan env, .call (.dispatch plan) env ∈ steps → Genuine plan) :
    ∀ e, played steps = .up e → e.store.readOnly = false → ∀ k a, e.store.state.attempts.find? k = some a →
      a.state.isTerminal = false → ∃ earlier since plan env origin first,
        steps = earlier ++ .call (.dispatch plan) env :: since ∧ Traced earlier since plan env origin e first a := by
  -- by induction on the steps: a boot ends all attempts, a call keeps or starts their traces
  induction steps using List.reverseRecOn with
  | nil =>
    intro e hup
    simp [played, Process.play] at hup
  | append_singleton steps x ih =>
    intro e hup hwritable k a ha hflight
    have hbounded' : Bounded limits steps := fun options opening id env hmem =>
      hbounded options opening id env (by simp [hmem])
    have ih' := ih hbounded' fun plan env hmem => hgenuine plan env (by simp [hmem])
    have htracked := run_tracked (@run_played limits (fun _ _ => True) steps hbounded' fun _ _ _ => trivial)
    rw [played_concat] at hup
    cases hp : played steps with
    | down dir last =>
      rw [hp] at hup htracked
      cases x with
      | call operation env => simp [Process.after, Process.step] at hup
      | exit => simp [Process.after, Process.step] at hup
      | boot options opening id env =>
        have hro : options.readOnly = false := by
          by_contra hro
          rw [(boot_read_only (by simpa using hro) hup).1] at hwritable
          simp at hwritable
        obtain ⟨opened, -, hbooted, -⟩ := (htracked.boot (hbounded options opening id env (by simp)) opening id env).2
          e hup hro
        rw [hbooted.ended k a ha] at hflight
        simp at hflight
    | up t =>
      rw [hp] at hup htracked
      cases x with
      | boot options opening id env =>
        have hsame : t = e := by simpa [Process.after, Process.step] using hup
        subst hsame
        obtain ⟨earlier, since, plan, env', origin, first, hsteps, htraced⟩ := ih' t hp hwritable k a ha hflight
        exact ⟨earlier, since ++ [.boot options opening id env], plan, env', origin, first, by rw [hsteps]; simp,
          htraced.boot options opening id⟩
      | exit => simp [Process.after, Process.step] at hup
      | call operation env =>
        have hcall : (t.call env operation).2 = e := by simpa [Process.after, Process.step] using hup
        subst hcall
        have hwritable' : t.store.readOnly = false := by
          by_contra hro
          rw [call_read_only (by simpa using hro) env operation] at hwritable
          exact hro hwritable
        rcases call_flights htracked ha hflight with ⟨b, hb, hrunning, hsame⟩ | ⟨plan, rfl, hissues⟩
        · obtain ⟨earlier, since, plan, env', origin, first, hsteps, htraced⟩ := ih' t hp hwritable' k b hb hrunning
          refine ⟨earlier, since ++ [.call operation env], plan, env', origin, first, by rw [hsteps]; simp, ?_⟩
          exact htraced.call operation (hsteps ▸ hp) htracked hsame
        · refine ⟨steps, [], plan, env, t, a, rfl, ?_⟩
          exact hissues.traced (hgenuine plan env (by simp)) hp htracked

/-- The steps issued `first` by a dispatch and recorded `d` by a later call of the same incarnation `live`. -/
def RecordedAfterDispatch (steps : List Step) (live : Incarnation) (first : AttemptRecord) (d : ObservationDocument) :
    Prop :=
  ∃ earlier plan env between submission stamp env' rest origin recorder,
    steps = earlier ++ .call (.dispatch plan) env ::
      (between ++ .call (.recordObservationAt submission stamp) env' :: rest) ∧
    .exit ∉ between ++ rest ∧
    played earlier = .up origin ∧ origin.live = live ∧ Issues origin env plan first ∧
    played (earlier ++ .call (.dispatch plan) env :: between) = .up recorder ∧ recorder.live = live ∧
    Records recorder env' submission stamp d

/-- **`verification_follows_dispatch`**: whatever the policy and whatever else is retained, a verification
that returns OK cites an observation that this incarnation recorded after it had issued the attempt. -/
theorem verification_follows_dispatch (hbounded : Bounded limits steps)
    (hgenuine : ∀ plan env, .call (.dispatch plan) env ∈ steps → Genuine plan) (hup : played steps = .up e)
    {env : CallEnv} {v : VerificationEvidence} (hok : (e.verify env v).1.code = .ok) :
    ∃ a first recorded,
      e.store.state.attempts.values.find? (fun a => a.idempotencyKey = v.idempotencyKey) = some a ∧
      a = { first with state := a.state, transitions := a.transitions } ∧
      Engine.citedObservation e.store.state v = some recorded ∧ recorded.receivedEpoch = e.live.epoch ∧
      RecordedAfterDispatch steps e.live first recorded := by
  obtain ⟨a, hgate⟩ : ∃ a, e.admitVerification env v = .ok a := by
    unfold Engine.verify at hok
    cases hgate : e.admitVerification env v with
    | error status =>
      rw [hgate] at hok
      exact absurd hok (admitVerification_refused hgate)
    | ok a => exact ⟨a, rfl⟩
  have hverifiable := admitVerification_ok hgate
  obtain ⟨recorded, hcited, -⟩ := hverifiable.cited
  obtain ⟨k, hk⟩ := OrdMap.mem_values_iff.mp (List.mem_of_find?_eq_some hverifiable.found)
  obtain ⟨earlier, since, plan, env', origin, first, rfl, htraced⟩ := flights_traced hbounded hgenuine e hup
    hverifiable.writable k a hk (by rw [hverifiable.applied]; rfl)
  have hmem : recorded ∈ e.store.state.stream a.scope := by
    rw [hverifiable.names.1]
    exact List.mem_of_find?_eq_some hcited
  have hnewer : a.authority.observationGeneration < recorded.generation := by
    have hmatches := List.find?_some hcited
    simp only [Bool.and_eq_true, decide_eq_true_eq] at hmatches
    rw [hmatches.1.2]
    exact hverifiable.newer
  obtain ⟨between, submission, stamp, env'', rest, recorder, rfl, hrecorder, hlive, hrecords⟩ :=
    htraced.evidence recorded hmem hnewer
  have hrunning := htraced.running
  refine ⟨a, first, recorded, hverifiable.found, htraced.same, hcited, ?_, earlier, plan, env', between, submission,
    stamp, env'', rest, origin, recorder, rfl, by simpa using hrunning, htraced.position, htraced.live.symm,
    htraced.issued, hrecorder, hlive.trans htraced.live.symm, hrecords⟩
  rw [hrecords.document, htraced.live, ← hlive]
  rfl

/-- The sample scope gets an intent and a report. -/
def observingSteps : List Step :=
  [.boot {} {} FixedBytes.zero {}, .call (.commitIntent sampleIntent) {},
   .call (.recordObservationAt (sampleReport 1) 1) {}]

theorem observing_played : played observingSteps = .up (sampleEngine 16 4) := by
  have hobserved := sampleObserved_eq
  rw [sampleObserved, sampleIntended, sampleStart] at hobserved
  rw [played, observingSteps, Process.play_cons, Process.play_cons, Process.play_cons, Process.play_nil]
  exact hobserved

def firstKey (plan : ReconciliationPlan) : Digest :=
  match plan.decisions with
  | [] => FixedBytes.zero
  | d :: _ => d.idempotencyKey

/-- The plan is dispatched, its action applied, and another reporter looks. -/
def verifiableSteps (plan : ReconciliationPlan) : List Step :=
  observingSteps ++ [.call (.dispatch plan) {},
    .call (.complete ⟨1, 1, FixedBytes.zero, firstKey plan, .applied, 1, .none⟩) {},
    .call (.recordObservationAt secondReport 2) {}]

def sampleVerification (plan : ReconciliationPlan) : VerificationEvidence where
  scope := sampleScope
  subject := sampleSubject
  idempotencyKey := firstKey plan
  observation := secondReport.observation
  generation := 2
  receivedEpoch := 1
  verifier := secondReport.reporter
  applier := (sampleReport 1).reporter
  receivedUnixMs := 2
  confirmsEffect := true

theorem verifiable_played (plan : ReconciliationPlan) : played (verifiableSteps plan) =
    (((Process.up (sampleEngine 16 4)).after (.call (.dispatch plan) {})).after
      (.call (.complete ⟨1, 1, FixedBytes.zero, firstKey plan, .applied, 1, .none⟩) {})).after
        (.call (.recordObservationAt secondReport 2) {}) := by
  rw [verifiableSteps, played_append, observing_played]
  rw [Process.play_cons, Process.play_cons, Process.play_cons, Process.play_nil]

/-- The attempt of the decision once its action is applied. -/
def appliedAttempt (d : Decision) : AttemptRecord :=
  (plannedAttempt d 0).move {} ⟨.dispatched, .applied, 1, FixedBytes.zero, 1, .attemptApplied, .none⟩

/-- The engine after `verifiableSteps`. -/
def verifiableEngine (d : Decision) : Engine :=
  sampleWith [.attemptIssued (plannedAttempt d 0), .attemptTransition (appliedAttempt d),
    .observationCommit (secondReport.document 1 2)]

theorem SamplePlanned.key {plan : ReconciliationPlan} {d : Decision} (h : SamplePlanned plan d) :
    firstKey plan = d.idempotencyKey := by
  rw [firstKey, h.decisions]

theorem SamplePlanned.completes {plan : ReconciliationPlan} {d : Decision} (h : SamplePlanned plan d) :
    (Process.up (sampleWith [.attemptIssued (plannedAttempt d 0)])).step
        (.call (.complete ⟨1, 1, FixedBytes.zero, firstKey plan, .applied, 1, .none⟩) {}) =
      (Status.ok, .up (sampleWith [.attemptIssued (plannedAttempt d 0), .attemptTransition (appliedAttempt d)])) := by
  have hallowed : (sampleWith [.attemptIssued (plannedAttempt d 0)]).admitCompletion
      ⟨1, 1, FixedBytes.zero, firstKey plan, .applied, 1, .none⟩ = .ok (plannedAttempt d 0) :=
    admitCompletion_ok.mpr ⟨rfl, rfl, h.key.symm, ⟨rfl, rfl⟩, ⟨rfl, rfl⟩, rfl⟩
  have hok : AttemptOk {} (appliedAttempt d) :=
    h.record_ok (show (1 : UInt64) ≠ 0 by decide) (show AttemptState.applied ≠ .invalid by decide)
      (show 2 ≤ 4 by decide) rfl rfl
  have hfits : (Event.attemptTransition (appliedAttempt d)).Fits {} :=
    (brief_transition (a := appliedAttempt d) (show 2 ≤ 4 by decide)).fits (sample_ample 16)
  exact complete_moves_recorded rfl hallowed rfl rfl hok hfits (sampleWith_undue (n := 2) rfl (by decide))

theorem SamplePlanned.after_dispatch {plan : ReconciliationPlan} {d : Decision} (h : SamplePlanned plan d) :
    (Process.up (sampleEngine 16 4)).after (.call (.dispatch plan) {}) =
      .up (sampleWith [.attemptIssued (plannedAttempt d 0)]) := by
  have hdispatched := h.dispatched (show ({} : CallEnv).faults = [] from rfl)
  rw [Process.after]
  simp only [Process.step, Engine.call, hdispatched]

theorem SamplePlanned.verifiable {plan : ReconciliationPlan} {d : Decision} (h : SamplePlanned plan d) :
    played (verifiableSteps plan) = .up (verifiableEngine d) := by
  rw [verifiable_played, h.after_dispatch, Process.after, Process.after, h.completes,
    sampleWith_seen (n := 3) rfl rfl (by decide)]
  rfl

/-- The evidence is about what the second reporter saw. -/
theorem sampleWith_cited {es : List Event} (hes : es.all Event.aboutAttempt = true) (plan : ReconciliationPlan) :
    Engine.citedObservation (sampleWith (es ++ [.observationCommit (secondReport.document 1 2)])).store.state
      (sampleVerification plan) = some (secondReport.document 1 2).withKeyIds := by
  obtain ⟨sequence, attempts, next, outcomes, htables⟩ := tablesAfter_attempts hes
  have hkept : (sampleWith (es ++ [.observationCommit (secondReport.document 1 2)])).store.state.observations.find?
      sampleScope =
        some (keepLast 8 (keepLast 8 [stampedReport.withKeyIds] ++ [(secondReport.document 1 2).withKeyIds])) := by
    show (tablesAfter {} FixedBytes.zero (sampleEvents.take 4 ++
      (es ++ [.observationCommit (secondReport.document 1 2)]))).observations.find? sampleScope = _
    rw [← List.append_assoc, tablesAfter, List.foldl_append]
    rw [show (sampleEvents.take 4 ++ es).foldl (applyEvent {}) { store := FixedBytes.zero } = _ from htables]
    rfl
  unfold Engine.citedObservation
  rw [show (sampleVerification plan).scope = sampleScope from rfl, hkept, keepLast_of_le (by decide),
    keepLast_of_le (by decide)]
  rfl

/-- The attempt once the evidence is accepted, and its outcome. -/
def verifiedAttempt (d : Decision) : AttemptRecord :=
  (appliedAttempt d).move {} ⟨.applied, .verified, 1, FixedBytes.zero, 2, .attemptVerified, .attemptVerified⟩

def verifiedOutcome (d : Decision) : ReconciliationOutcome :=
  { makeOutcome (verifiedAttempt d) .verified .attemptVerified false 2 with verifiedGeneration := 2 }

theorem SamplePlanned.admits {plan : ReconciliationPlan} {d : Decision} (h : SamplePlanned plan d) :
    Verifiable (verifiableEngine d) { now := 2 } (sampleVerification plan) (appliedAttempt d) := by
  have hvalues : (verifiableEngine d).store.state.attempts.values = [appliedAttempt d] := rfl
  have hfound : ((verifiableEngine d).store.state.attempts.values.find? fun x =>
      x.idempotencyKey = (sampleVerification plan).idempotencyKey) = some (appliedAttempt d) := by
    rw [hvalues, List.find?_cons_of_pos (by
      rw [decide_eq_true_eq]
      exact h.key.symm)]
  have hnewer : (appliedAttempt d).authority.observationGeneration < (sampleVerification plan).generation := by
    show d.authority.observationGeneration < 2
    rw [h.generation]
    decide
  have hother : secondReport.reporter ≠ (sampleReport 1).reporter := by decide
  have hfresh : evaluateFreshness (secondReport.document 1 2).withKeyIds defaultPolicy.freshness 1 2 = .fresh := by decide
  exact ⟨rfl, hfound, ⟨h.scope, h.subject⟩, ⟨rfl, rfl⟩, rfl, fun _ => hother, rfl, hnewer, _, @sampleWith_cited [_, _] rfl plan, hfresh⟩

theorem SamplePlanned.verifies {plan : ReconciliationPlan} {d : Decision} (h : SamplePlanned plan d) :
    (verifiableEngine d).verify { now := 2 } (sampleVerification plan) =
      (Status.ok, some (verifiedOutcome d), sampleWith [.attemptIssued (plannedAttempt d 0),
        .attemptTransition (appliedAttempt d), .observationCommit (secondReport.document 1 2),
        .attemptTransition (verifiedAttempt d), .outcomeCommit (verifiedOutcome d)]) := by
  have hok : AttemptOk {} (verifiedAttempt d) :=
    h.record_ok (show (1 : UInt64) ≠ 0 by decide) (show AttemptState.verified ≠ .invalid by decide)
      (show 3 ≤ 4 by decide) rfl rfl
  have hfits : (Event.attemptTransition (verifiedAttempt d)).Fits {} :=
    (brief_transition (a := verifiedAttempt d) (show 3 ≤ 4 by decide)).fits (sample_ample 16)
  exact verify_recorded rfl h.admits.admitted rfl rfl rfl hok hfits ⟨hok.scope, hok.subject⟩
    ((brief_outcome _).fits (sample_ample 16)) (sampleWith_undue (n := 5) rfl (by decide))

/-- The verification by the second report is accepted. -/
theorem verification_follows_dispatch_second :
    ∃ plan e a first recorded, played (verifiableSteps plan) = .up e ∧
      (e.verify { now := 2 } (sampleVerification plan)).1.code = .ok ∧
      e.store.state.attempts.values.find? (fun a => a.idempotencyKey = firstKey plan) = some a ∧
      Engine.citedObservation e.store.state (sampleVerification plan) = some recorded ∧
      RecordedAfterDispatch (verifiableSteps plan) e.live first recorded := by
  obtain ⟨plan, d, h⟩ := sample_planned
  have hok : ((verifiableEngine d).verify { now := 2 } (sampleVerification plan)).1.code = .ok := by
    rw [h.verifies]
    rfl
  have hbounded : Bounded {} (verifiableSteps plan) := by
    intro options opening id env hmem
    simp only [verifiableSteps, observingSteps, List.cons_append, List.nil_append, List.mem_cons, Step.boot.injEq,
      reduceCtorEq, List.not_mem_nil, or_false] at hmem
    rw [hmem.1]
  have hgenuine : ∀ dispatched env, .call (.dispatch dispatched) env ∈ verifiableSteps plan → Genuine dispatched := by
    intro dispatched env hmem
    simp only [verifiableSteps, observingSteps, List.cons_append, List.nil_append, List.mem_cons, Step.call.injEq,
      Operation.dispatch.injEq, reduceCtorEq, List.not_mem_nil, or_false, false_or, false_and] at hmem
    rw [hmem.1]
    exact ⟨_, _, _, h.made⟩
  obtain ⟨a, first, recorded, hfound, -, hcited, -, hafter⟩ :=
    verification_follows_dispatch hbounded hgenuine h.verifiable hok
  exact ⟨plan, verifiableEngine d, a, first, recorded, h.verifiable, hok, hfound, hcited, hafter⟩

end Traces

end FabricReconciliation
