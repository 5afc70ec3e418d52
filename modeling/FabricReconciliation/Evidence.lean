import Mathlib.Data.Prod.Lex
import FabricReconciliation.Coverage
import FabricReconciliation.Retries

/-!
# The age of the evidence (`engine.cpp:777-909`, `drift.cpp:266-281`)

`Plan` evaluates freshness at a clock reading that its caller may choose; `Dispatch` checks that the
plan's observation is still the selected one, and looks at no clock. Of what `EvaluateFreshness` asks, the
epoch is settled by then: an actionable decision rests on an observation of the live epoch, and the
re-check cannot exchange it for an older one.

* **`chronological_run`** — the windows are in the order of the epochs;
* **`later_since`** — until the incarnation ends its windows lose their oldest entries and gain its own;
* **`issued_fresh_iff`** — what an issued attempt rests on is Fresh exactly when its age at the dispatch is;
* **`expired_dispatch`** — a plan is dispatched a minute later on evidence that was good for half of it.
-/

namespace FabricReconciliation

open Lib

/-! ## The selected observation -/

section Selection

variable {s : DurableState} {scope : ScopeId} {x y : ObservationDocument}

/-- What observations are compared by. -/
def ObservationDocument.key (d : ObservationDocument) : UInt64 ×ₗ ℤ ×ₗ ReporterId :=
  toLex (d.generation, toLex (d.receivedUnixMs.toInt, d.reporter))

theorem observationKeyLess_iff : observationKeyLess x y = true ↔ x.key < y.key := by
  unfold observationKeyLess ObservationDocument.key
  rw [Prod.Lex.toLex_lt_toLex, Prod.Lex.toLex_lt_toLex]
  simp only [← Int64.lt_iff_toInt_lt, Int64.toInt_inj]
  by_cases hgeneration : x.generation = y.generation
  · by_cases hreceived : x.receivedUnixMs = y.receivedUnixMs
    · simp [hgeneration, hreceived]
    · simp [hgeneration, hreceived]
  · simp [hgeneration]

/-- No retained observation is beyond the selected one. -/
theorem selected_last (h : (s.selection scope).selected = some x) : ∀ z ∈ s.stream scope, z.key ≤ x.key := by
  intro z hz
  have hless : ∀ a b, observationKeyLess a b = true → a.key ≤ b.key := by
    intro a b h
    exact le_of_lt (observationKeyLess_iff.mp h)
  refine selectCurrent_last hless (fun a b hnot => ?_) h z ?_
  · by_contra hlt
    rw [observationKeyLess_iff.mpr (not_le.mp hlt)] at hnot
    simp at hnot
  · simpa [observationCandidates, DurableState.stream] using hz

theorem selected_mem (h : (s.selection scope).selected = some x) : x ∈ s.stream scope := by
  have hmem := selectCurrent_mem h
  simpa [observationCandidates, DurableState.stream] using hmem

/-- Two windows that hold both documents select the same one of them, if they agree on its name. -/
theorem selected_twin {t : DurableState} (hx : (s.selection scope).selected = some x)
    (hy : (t.selection scope).selected = some y) (hys : y ∈ s.stream scope) (hxt : x ∈ t.stream scope)
    (hobservation : x.observation = y.observation) (hdistinct : Distinct s) : x = y := by
  have hkey : x.key = y.key := le_antisymm (selected_last hy x hxt) (selected_last hx y hys)
  unfold ObservationDocument.key at hkey
  simp only [toLex_inj, Prod.mk.injEq] at hkey
  exact hdistinct.apart (selected_mem hx) hys ⟨hkey.2.2, hobservation, hkey.1⟩

end Selection

/-! ## Windows in the order of the epochs -/

def Chronological (s : DurableState) : Prop :=
  ∀ scope, (s.stream scope).Pairwise fun x y => x.receivedEpoch ≤ y.receivedEpoch

/-- Nothing in the window is of a later epoch than the new document. -/
def Recent (s : DurableState) (d : ObservationDocument) : Prop :=
  ∀ x ∈ s.stream d.scope, x.receivedEpoch ≤ d.receivedEpoch

theorem recent_windowed : Windowed Recent := by
  intro s t d h hs
  unfold Recent
  rw [← stream_congr h]
  exact hs

section Order

variable {limits : RuntimeLimits} {p : Process} {s t : DurableState}

theorem Observes.chronological (h : Observes limits Recent s t) (hs : Chronological s) : Chronological t := by
  induction h with
  | same hsame =>
    intro scope
    rw [stream_congr hsame]
    exact hs scope
  | @commit t u h live cause d hd hc htables hu ih =>
    intro scope
    rw [stream_congr hu, stream_applyObservation]
    split
    next hscope =>
      refine List.Pairwise.sublist (List.drop_sublist _ _) (List.pairwise_append.mpr ⟨ih scope, by simp, ?_⟩)
      intro x hx y hy
      rw [List.mem_singleton.mp hy]
      exact hc x (hscope ▸ hx)
    · exact ih scope

/-- No stamp in the tables is beyond the epoch of the engine that is up. -/
theorem stream_upTo {e : Engine} {v : View} (htracked : Tracked limits (.up e)) (hv : Kept limits (.up e) v)
    {scope : ScopeId} {x : ObservationDocument} (hx : x ∈ e.store.state.stream scope) :
    x.receivedEpoch ≤ e.live.epoch := by
  have hstamps := htracked.stamped.upTo.1
  cases hv with
  | up hf hoptions hepoch =>
    rw [hepoch]
    unfold DurableState.stream at hx
    cases hfind : e.store.state.observations.find? scope with
    | none => simp [hfind] at hx
    | some documents =>
      rw [hfind] at hx
      exact hstamps scope documents hfind x hx

theorem watching_recent {v : View} {a : Step} (htracked : Tracked limits p) (hv : Kept limits p v) (h : p.Orderly a) :
    Watching Recent p a := by
  refine ⟨h, ?_⟩
  rintro e env submission stamp d rfl rfl hgate x hx
  obtain ⟨hd, -, -⟩ := admitObservation_ok hv.consistent hgate
  have hle := stream_upTo htracked hv hx
  rw [hd]
  exact hle

/-- **`chronological_run`**. -/
theorem chronological_run (h : Run limits Process.Orderly p) : Chronological p.state := by
  have hall : ∃ v, Kept limits p v ∧ v.Watched limits Recent ∧ Observes limits Recent {} v.memory := by
    refine watching_run recent_windowed ?_
    induction h with
    | start => exact .start
    | step h a ha hlimits ih =>
      obtain ⟨v, hv, -⟩ := run_good (fun _ _ h => h) h
      exact ih.step a (watching_recent (run_tracked h) hv ha) hlimits
  obtain ⟨v, hv, -, ho⟩ := hall
  have hordered := ho.chronological (fun scope => by simp [DurableState.stream])
  rw [hv.tables] at hordered
  exact hordered

end Order

/-! ## Windows since a plan -/

/-- The oldest entries are gone, and what came since is of the epoch. -/
def Grown (epoch : CoordinatorEpoch) (old new : List ObservationDocument) : Prop :=
  ∃ k since, new = old.drop k ++ since ∧ ∀ d ∈ since, d.receivedEpoch = epoch

theorem Grown.refl (epoch : CoordinatorEpoch) (l : List ObservationDocument) : Grown epoch l l :=
  ⟨0, [], by simp, by simp⟩

theorem Grown.commit {epoch : CoordinatorEpoch} {old new : List ObservationDocument} (h : Grown epoch old new) (n : Nat)
    {d : ObservationDocument} (hd : d.receivedEpoch = epoch) : Grown epoch old (keepLast n (new ++ [d])) := by
  obtain ⟨k, since, rfl, hsince⟩ := h
  refine ⟨k + ((old.drop k ++ since ++ [d]).length - n), (since ++ [d]).drop
    ((old.drop k ++ since ++ [d]).length - n - (old.drop k).length), ?_, ?_⟩
  · unfold keepLast
    rw [List.append_assoc, List.drop_append, List.drop_drop]
  · intro x hx
    rcases List.mem_append.mp (List.mem_of_mem_drop hx) with hx | hx
    · exact hsince x hx
    · rw [List.mem_singleton.mp hx]
      exact hd

/-- What is left of the old window is behind everything that is gone. -/
theorem Grown.keeps {epoch : CoordinatorEpoch} {old new : List ObservationDocument} (h : Grown epoch old new)
    (hordered : old.Pairwise fun x y => x.receivedEpoch ≤ y.receivedEpoch) {x y : ObservationDocument}
    (hx : x ∈ new) (hy : y ∈ old) : x.receivedEpoch = epoch ∨ y ∈ new ∧ x ∈ old ∨ y.receivedEpoch ≤ x.receivedEpoch := by
  obtain ⟨k, since, rfl, hsince⟩ := h
  rcases List.mem_append.mp hx with hx | hx
  · right
    rw [← List.take_append_drop k old] at hordered hy
    rcases List.mem_append.mp hy with hy | hy
    · exact .inr ((List.pairwise_append.mp hordered).2.2 y hy x hx)
    · exact .inl ⟨List.mem_append_left _ hy, List.mem_of_mem_drop hx⟩
  · exact .inl (hsince x hx)

/-- What holds of the incarnation that planned, at any later point of the run. -/
structure Since (limits : RuntimeLimits) (planner : Engine) (p : Process) (v : View) : Prop where
  sound : v.Sound limits
  epoch : planner.live.epoch ≤ v.memory.lastEpoch
  windows : ∀ f, p = .up f → f.store.readOnly = false → f.live.epoch = planner.live.epoch → ∀ scope,
    Grown planner.live.epoch (planner.store.state.stream scope) (v.memory.stream scope)

section Later

variable {limits : RuntimeLimits} {planner e : Engine} {q : Process}

theorem Write.grown {live : Incarnation} {operation : Operation} {st : DurableState} {ev : Event}
    {old : List ObservationDocument} {scope : ScopeId} (hw : Write limits live (some operation) st ev)
    (h : Grown live.epoch old (st.stream scope)) : Grown live.epoch old ((applyEvent limits st ev).stream scope) := by
  cases hw with
  | observationCommit d hok hepoch hcause hnewest =>
    rw [stream_applyObservation]
    split
    · exact h.commit _ hepoch
    · exact h
  | _ => exact h

/-- A writable engine comes up with an epoch beyond everything before it. -/
theorem Rests.boot_newer {dir : Directory} {last : DurableState} {v : View} (h : Rests limits dir last v)
    {options : EngineOptions} (hoptions : options.limits = limits) {opening : DurableStore.OpenEnv} {id : BootId}
    {env : CallEnv} (hup : (Process.boot dir last options opening id env).2 = .up e)
    (hmode : e.store.readOnly = false) : v.memory.lastEpoch < e.live.epoch := by
  subst hoptions
  have hwritable : options.readOnly = false := by
    by_contra hro
    have hread : e.store.readOnly = true := (@boot_read_only e dir last options opening id env (by simpa using hro) hup).1
    rw [hmode] at hread
    exact Bool.false_ne_true hread
  rcases hopen : DurableStore.open options.limits options.createIfMissing options.readOnly opening dir with
    ⟨dir', answer⟩
  obtain ⟨-, hgood⟩ := h.open hopen
  unfold Process.boot at hup
  rw [hopen] at hup
  cases answer with
  | error status => simp at hup
  | ok result =>
    obtain ⟨opened, report⟩ := result
    obtain ⟨-, u, hreopened, hu⟩ := hgood opened report rfl
    simp only at hup
    cases hstart : Engine.start options id env opened with
    | error failed =>
      rw [hstart] at hup
      simp at hup
    | ok booted =>
      rw [hstart] at hup
      have hsame : booted = e := by simpa using hup
      subst hsame
      have hmonotone : v.memory.lastEpoch ≤ u.memory.lastEpoch := by
        cases hreopened with
        | same hnone => exact le_refl _
        | caughtUp ev hsome hfits hok => exact le_lastEpoch_applyEvent _ _ ev
      rw [hu.memory] at hmonotone
      exact lt_of_le_of_lt hmonotone (start_ok hu.handle.bound hu.handle.tables hwritable hstart).newer

/-- **`later_since`**. -/
theorem later_since (hrun : Run limits Process.Orderly (.up planner))
    (h : Later limits Process.Orderly (.up planner) q) : ∃ w, Kept limits q w ∧ Since limits planner q w := by
  induction h with
  | refl =>
    obtain ⟨v, hv, hgood⟩ := run_good (fun _ _ h => h) hrun
    refine ⟨v, hv, hgood.sound, ?_, ?_⟩
    · rw [hv.tables]
      cases hv with
      | up hf hoptions hepoch =>
        rw [hepoch]
        exact le_refl _
    · rintro f - - - scope
      rw [hv.tables]
      exact .refl _ _
  | @step q h a ha hlimits ih =>
    obtain ⟨u, hu, hs⟩ := ih
    obtain ⟨w, hw, hprogress⟩ := step_progress hu ha hlimits
    refine ⟨w, hw, hprogress.sound hs.sound, ?_, ?_⟩
    · exact hprogress.memory (P := fun st => planner.live.epoch ≤ st.lastEpoch) hs.sound
        (fun hst _ _ _ => le_trans hst (le_lastEpoch_applyEvent _ _ _)) hs.epoch
    intro f hf hmode hlive scope
    cases q with
    | down dir last =>
      -- a boot in between would have taken a later epoch
      cases a with
      | call operation env => cases hf
      | exit => cases hf
      | boot options opening id env =>
        cases hu with
        | down hrests =>
          have hnewer := hrests.boot_newer (hlimits options opening id env rfl) hf hmode
          rw [hlive] at hnewer
          exact absurd hs.epoch (not_le.mpr hnewer)
    | up t =>
      cases a with
      | exit => cases hf
      | boot options opening id env =>
        cases hprogress with
        | idle => exact hs.windows f hf hmode hlive scope
      | call operation env =>
        have hcall : (t.call env operation).2 = f := Process.up.inj hf
        subst hcall
        have hwritable : t.store.readOnly = false := by
          rw [← hmode]
          exact (call_commits hu.consistent env operation).readOnly.symm
        rw [(call_frame t env operation).2] at hlive
        have hbefore := hs.windows t rfl hwritable hlive scope
        cases hprogress with
        | idle => exact hbefore
        | call _ _ _ hacts =>
          rw [← hlive] at hbefore ⊢
          exact hacts.memory (P := fun st => Grown t.live.epoch (planner.store.state.stream scope) (st.stream scope))
            hbefore (fun hst hw _ _ => hw.grown hst)

/-! ## What an issued attempt rests on -/

variable {env env' : CallEnv} {request : PlanRequest} {plan : ReconciliationPlan} {a : AttemptRecord}

/-- The observation an actionable decision was made on. -/
theorem actionable_evidence (hplan : planner.plan env request = .ok plan) {d : Decision} (hd : d ∈ plan.decisions)
    (hactionable : d.disposition = .actionable) :
    plan.epoch = planner.live.epoch ∧ ∃ y, (planner.store.state.selection plan.scope).selected = some y ∧
      y.receivedEpoch = planner.live.epoch ∧ plan.observation = y.observation := by
  obtain ⟨report, hreport, rfl⟩ := plan_report hplan
  rw [assemblePlan_decisions] at hd
  obtain ⟨record, hrecord, rfl⟩ := List.mem_map.mp hd
  obtain ⟨hpermitted, hproven⟩ := PlanBasis.decision_actionable.mp hactionable
  obtain ⟨intent, y, hcompares, -⟩ := permitted_merges hreport (List.mem_of_mem_take hrecord) hpermitted
  have hevidence := hcompares.evidence hreport
  have hepoch : report.evidence.receivedEpoch = planner.live.epoch := (PlanBasis.proven_iff.mp hproven).epoch
  refine ⟨rfl, y, hcompares.selected, ?_, ?_⟩
  · rw [← hepoch, hevidence]
    rfl
  · show report.evidence.observation = _
    rw [hevidence]
    rfl

/-- What `Dispatch` has checked when it turns to the decisions. -/
structure Admitted (e : Engine) (plan : ReconciliationPlan) (intent : IntentDocument) : Prop where
  writable : e.store.readOnly = false
  live : plan.epoch = e.live.epoch ∧ plan.boot = e.live.boot
  policy : plan.policyDigest = computePolicyDigest e.store.state.policy
  committed : e.store.state.intents.find? plan.scope = some intent
  intent : intent.generation = plan.intentGeneration ∧ intent.digest = plan.intentDigest
  selected : ∃ x, (e.store.state.selection plan.scope).selected = some x ∧ x.observation = plan.observation ∧
    x.generation = plan.observationGeneration ∧ x.digest = plan.observationDigest

theorem admitPlan_ok {intent : IntentDocument} (h : e.admitPlan plan = .ok intent) : Admitted e plan intent := by
  unfold Engine.admitPlan at h
  simp only at h
  split at h
  · simp at h
  next hmode =>
    split at h
    · simp at h
    next hlive =>
      split at h
      · simp at h
      split at h
      · simp at h
      next hpolicy =>
        split at h
        · simp at h
        next committed hcommitted =>
          split at h
          · simp at h
          next hintent =>
            split at h
            · simp at h
            next x hselected =>
              split at h
              · simp at h
              next hcurrent =>
                rw [Except.ok.injEq] at h
                subst h
                push Not at hlive hpolicy hintent hcurrent
                exact ⟨by simpa using hmode, hlive, hpolicy, hcommitted, hintent, x, hselected, hcurrent⟩

theorem Issues.admitted (h : Issues e env plan a) : ∃ intent, e.admitPlan plan = .ok intent := by
  cases hgate : e.admitPlan plan with
  | ok intent => exact ⟨intent, rfl⟩
  | error status =>
    have hstored := h.stored
    unfold Engine.dispatch at hstored
    rw [hgate] at hstored
    exact absurd hstored h.absent

/-- The observation that is selected when an attempt is issued was received in the live epoch. -/
theorem issued_current (hrun : Run limits Process.Orderly (.up planner)) (hplan : planner.plan env request = .ok plan)
    (hlater : Later limits Process.Orderly (.up planner) (.up e)) (hissues : Issues e env' plan a) :
    ∃ x, (e.store.state.selection plan.scope).selected = some x ∧ x.receivedEpoch = e.live.epoch := by
  obtain ⟨intent, hgate⟩ := hissues.admitted
  have hadmitted := admitPlan_ok hgate
  obtain ⟨d, hd, hactionable, -⟩ := hissues.decided
  obtain ⟨hepoch, y, hy, hyepoch, hobservation⟩ := actionable_evidence hplan hd hactionable
  obtain ⟨x, hx, hname, -, -⟩ := hadmitted.selected
  have hlive : e.live.epoch = planner.live.epoch := hadmitted.live.1.symm.trans hepoch
  refine ⟨x, hx, ?_⟩
  obtain ⟨w, hw, hsince⟩ := later_since hrun hlater
  have hgrown := hsince.windows e rfl hadmitted.writable hlive plan.scope
  rw [hw.tables] at hgrown
  change Grown _ _ (e.store.state.stream plan.scope) at hgrown
  rcases hgrown.keeps (chronological_run hrun plan.scope) (selected_mem hx) (selected_mem hy) with hnew | ⟨hkept, hold⟩ | hlast
  · rw [hnew, hlive]
  · rw [selected_twin hx hy hkept hold (hname.trans hobservation) (distinct_run (hrun.later hlater)), hyepoch, hlive]
  · refine le_antisymm (stream_upTo (run_tracked (hrun.later hlater)) hw (selected_mem hx)) ?_
    rw [hlive, ← hyepoch]
    exact hlast

/-- The observation is neither older than the policy allows nor from after the clock reading. -/
def Timely (policy : FreshnessPolicy) (d : ObservationDocument) (clock : UnixMillis) : Prop :=
  0 < policy.maxObservationAgeMs →
    d.receivedUnixMs ≤ clock ∧ clock - d.receivedUnixMs ≤ policy.maxObservationAgeMs

theorem fresh_iff_timely {policy : FreshnessPolicy} {d : ObservationDocument} {epoch : CoordinatorEpoch}
    {clock : UnixMillis} (hepoch : d.receivedEpoch = epoch) :
    evaluateFreshness d policy epoch clock = .fresh ↔ Timely policy d clock := by
  unfold evaluateFreshness Timely
  rw [if_neg (by simp [hepoch])]
  by_cases hbounded : 0 < policy.maxObservationAgeMs
  · rw [if_pos hbounded]
    by_cases hbefore : clock < d.receivedUnixMs
    · rw [if_pos hbefore]
      simp [hbounded, hbefore]
    rw [if_neg hbefore]
    by_cases hexpired : policy.maxObservationAgeMs < clock - d.receivedUnixMs
    · rw [if_pos hexpired]
      simp [hbounded, hexpired]
    · rw [if_neg hexpired]
      simp [hbounded, Int64.not_lt.mp hbefore, Int64.not_lt.mp hexpired]
  · rw [if_neg hbounded]
    simp [hbounded]

/-- The observation that the scope's attempts rest on is Fresh at the clock reading. -/
def RestsOnFresh (e : Engine) (scope : ScopeId) (clock : UnixMillis) : Prop :=
  ∃ x, (e.store.state.selection scope).selected = some x ∧
    evaluateFreshness x e.store.state.policy.freshness e.live.epoch clock = .fresh

/-- **`issued_fresh_iff`**: of an attempt that `Dispatch` issues for a plan returned earlier in the run, at
whatever clock readings, the evidence is Fresh exactly when it is not too old by then. -/
theorem issued_fresh_iff (hrun : Run limits Process.Orderly (.up planner))
    (hplan : planner.plan env request = .ok plan) (hlater : Later limits Process.Orderly (.up planner) (.up e))
    (hissues : Issues e env' plan a) : RestsOnFresh e plan.scope env'.now ↔
      ∀ x, (e.store.state.selection plan.scope).selected = some x →
        Timely e.store.state.policy.freshness x env'.now := by
  obtain ⟨x, hx, hepoch⟩ := issued_current hrun hplan hlater hissues
  constructor
  · rintro ⟨z, hz, hfresh⟩ z' hz'
    rw [hx, Option.some.injEq] at hz hz'
    subst hz hz'
    exact (fresh_iff_timely hepoch).mp hfresh
  · intro htimely
    exact ⟨x, hx, (fresh_iff_timely hepoch).mpr (htimely x hx)⟩

end Later

instance (e : Engine) (scope : ScopeId) (clock : UnixMillis) : Decidable (RestsOnFresh e scope clock) :=
  decidable_of_iff ((e.store.state.selection scope).selected.any (fun x =>
      evaluateFreshness x e.store.state.policy.freshness e.live.epoch clock = .fresh) = true) (by
    rw [Option.any_eq_true]
    simp [RestsOnFresh])

instance (policy : FreshnessPolicy) (d : ObservationDocument) (clock : UnixMillis) : Decidable (Timely policy d clock) := by
  unfold Timely
  infer_instance

theorem SamplePlanned.issues {plan : ReconciliationPlan} {d : Decision} (h : SamplePlanned plan d) {env : CallEnv}
    (hfaults : env.faults = []) : Issues (sampleEngine 16 4) env plan (plannedAttempt d env.now) := by
  have habsent : (sampleEngine 16 4).store.state.attempts.find? (plannedAttempt d env.now).id = none := rfl
  refine ⟨?_, ?_, d, ?_, h.disposition, env.now, rfl⟩
  · rw [habsent]
    simp
  · rw [h.dispatched hfaults]
    rfl
  · simp [h.decisions]

/-- The sample plan, made at clock 1, has its attempt issued at clock 2 and, all the same, a minute later. -/
theorem sample_issued : ∃ e plan, Run {} Process.Orderly (.up e) ∧ e.plan {} ⟨sampleScope, none, 1⟩ = .ok plan ∧
    (∃ a, Issues e { now := 2 } plan a) ∧ (∃ a, Issues e { now := 60001 } plan a) ∧
    (∀ x, (e.store.state.selection plan.scope).selected = some x →
      Timely e.store.state.policy.freshness x 2) ∧ ¬RestsOnFresh e plan.scope 60001 := by
  obtain ⟨plan, d, h⟩ := sample_planned
  have htimely : ((sampleEngine 16 4).store.state.selection sampleScope).selected.all
      (fun x => Timely (sampleEngine 16 4).store.state.policy.freshness x 2) = true := by
    decide +kernel
  have hexpired : ¬RestsOnFresh (sampleEngine 16 4) sampleScope 60001 := by
    decide +kernel
  refine ⟨sampleEngine 16 4, plan, sampleEngine_run, h.made, ⟨_, h.issues rfl⟩, ⟨_, h.issues rfl⟩, ?_, ?_⟩
  · intro x hx
    rw [h.targets] at hx
    rw [hx] at htimely
    exact of_decide_eq_true htimely
  · rw [h.targets]
    exact hexpired

/-- Dispatched at once, the sample plan rests on Fresh evidence. -/
theorem issued_fresh_iff_soon : ∃ e plan, e.plan {} ⟨sampleScope, none, 1⟩ = .ok plan ∧
    (∃ a, Issues e { now := 2 } plan a) ∧ RestsOnFresh e plan.scope 2 := by
  obtain ⟨e, plan, hrun, hplan, ⟨a, ha⟩, -, htimely, -⟩ := sample_issued
  exact ⟨e, plan, hplan, ⟨a, ha⟩, (issued_fresh_iff hrun hplan .refl ha).mpr htimely⟩

/-- **`expired_dispatch`**: a minute later it does not, and the attempt is issued. -/
theorem expired_dispatch : ∃ e plan a, Run {} Process.Orderly (.up e) ∧
    e.plan {} ⟨sampleScope, none, 1⟩ = .ok plan ∧ Issues e { now := 60001 } plan a ∧
    ¬RestsOnFresh e plan.scope 60001 := by
  obtain ⟨e, plan, hrun, hplan, -, ⟨a, ha⟩, -, hexpired⟩ := sample_issued
  exact ⟨e, plan, a, hrun, hplan, ha, hexpired⟩

end FabricReconciliation
