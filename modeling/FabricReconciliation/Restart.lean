import FabricReconciliation.Epochs
import FabricReconciliation.Recorded

/-!
# What a restart restores (`engine.cpp:72-211`, `authority.cpp:175-257`)

A writable boot takes an epoch above every stamp in the tables and ends every attempt. Authority binds
the epoch of the observation whatever the policy's freshness rules say, so until a scope is observed
again nothing in it is actionable; attempts of earlier incarnations can no longer be completed or verified.

* **`restart_restores_nothing`** — after any run, with any I/O failures.
-/

namespace FabricReconciliation

open Lib

/-! ## Calls of one incarnation -/

/-- The engines that allowed calls lead to. -/
inductive Calls (allowed : Engine → Operation → CallEnv → Prop) (e : Engine) : Engine → Prop
  | refl : Calls allowed e e
  | call {t : Engine} (h : Calls allowed e t) (operation : Operation) (env : CallEnv)
      (ha : allowed t operation env) : Calls allowed e (t.call env operation).2

/-- No call of this kind records an observation of the scope. -/
def Unobserved (scope : ScopeId) (e : Engine) (operation : Operation) (env : CallEnv) : Prop :=
  ∀ submission stamp, operation = .recordObservationAt submission stamp → submission.scope = scope →
    (e.call env operation).1.code ≠ .ok

/-- The attempt belongs to another incarnation. -/
def AttemptRecord.Foreign (a : AttemptRecord) (live : Incarnation) : Prop :=
  a.epoch ≠ live.epoch ∨ a.boot ≠ live.boot

/-- The observations of the scope are older than the incarnation. -/
def Outdated (scope : ScopeId) (live : Incarnation) (s : DurableState) : Prop :=
  ∀ documents, s.observations.find? scope = some documents → ∀ d ∈ documents, d.receivedEpoch < live.epoch

/-! ## Planning on outdated evidence -/

section Planning

variable {limits : RuntimeLimits} {s : DurableState} {live : Incarnation}

/-- The evidence of a scope names a retained observation, or none. -/
theorem classifyScope_evidence {input : ClassificationInput} {report : ClassificationReport}
    (h : classifyScope input = .ok report) :
    report.evidence.observation = StringId.none ∨
      ∃ d, some d ∈ input.observations ∧ report.evidence.receivedEpoch = d.receivedEpoch := by
  obtain ⟨policy, -, hevidence, -⟩ := classifyScope_ok h
  rw [hevidence]
  cases hselected : (selectCurrentObservation input.observations).selected with
  | none =>
    left
    cases hintent : (selectCurrentIntent input.intents).selected <;> simp [evidenceOf]
  | some d =>
    right
    refine ⟨d, selectCurrent_mem hselected, ?_⟩
    cases hintent : (selectCurrentIntent input.intents).selected <;> simp [evidenceOf]

/-- On outdated evidence no decision is actionable, whatever policy and clock the request names. -/
theorem Outdated.plan {request : PlanRequest} {clock : UnixMillis} {plan : ReconciliationPlan}
    (h : Outdated request.scope live s) (hplan : buildPlan limits s live request clock = .ok plan) :
    ∀ d ∈ plan.decisions, d.disposition ≠ .actionable := by
  obtain ⟨report, hreport, rfl⟩ := buildPlan_ok hplan
  intro d hd hactionable
  obtain ⟨record, -, rfl⟩ := List.mem_map.mp hd
  have hproven := assessAuthority_proven.mp (decision_proven hactionable)
  rcases classifyScope_evidence hreport with hnone | ⟨seen, hseen, hepoch⟩
  · have hset : report.evidence.observation.empty = false := hproven.observation
    rw [hnone] at hset
    simp [StringId.empty, StringId.none] at hset
  · obtain ⟨seen', hmem, heq⟩ := List.mem_map.mp hseen
    rw [Option.some.injEq] at heq
    subst heq
    cases hfind : s.observations.find? request.scope with
    | none => simp [hfind] at hmem
    | some documents =>
      rw [hfind] at hmem
      have hlt := h documents hfind seen' hmem
      have hcurrent : report.evidence.receivedEpoch = live.epoch := hproven.observationEpoch
      rw [← hepoch, hcurrent] at hlt
      exact lt_irrefl _ hlt

end Planning

/-! ## Calls on older records -/

section Calls

variable {limits : RuntimeLimits} {e : Engine} {env : CallEnv} {s t : DurableStore} {live : Incarnation}

/-- Only a recorded observation of the scope changes its stream. -/
theorem Write.observations {operation : Operation} {scope : ScopeId} {st : DurableState} {ev : Event}
    (hw : Write limits live (some operation) st ev)
    (hother : ∀ submission stamp, operation = .recordObservationAt submission stamp → submission.scope ≠ scope) :
    (applyEvent limits st ev).observations.find? scope = st.observations.find? scope := by
  cases hw with
  | observationCommit d hok hepoch hcause =>
    obtain ⟨submission, stamp, hoperation, hscope⟩ := hcause
    have hne := hother submission stamp (Option.some.inj hoperation)
    show (OrdMap.insert _ d.withKeyIds.scope _).find? scope = _
    rw [OrdMap.find?_insert_ne]
    intro heq
    exact hne (hscope.symm.trans heq.symm)
  | _ => rfl

/-- A call that records nothing for the scope keeps its evidence outdated. -/
theorem Outdated.call {operation : Operation} {scope : ScopeId} (ht : Tracked limits (.up e))
    (hun : Unobserved scope e operation env) (h : Outdated scope e.live e.store.state) :
    Outdated scope e.live (e.call env operation).2.store.state := by
  by_cases hother : ∀ submission stamp, operation = .recordObservationAt submission stamp → submission.scope ≠ scope
  · obtain ⟨hsound, hepoch⟩ := ht.sound
    refine hsound.invariant (P := Outdated scope e.live) (fun _ => hepoch)
      (call_commits ht.consistent env operation) ?_ ?_ h
    · intro st st' htables hst
      unfold Outdated
      rw [← (tables_eq_iff.mp htables).2.2.2.2.2.2.1]
      exact hst
    · intro st ev _ _ hw hst
      unfold Outdated
      rw [hw.observations hother]
      exact hst
  · push Not at hother
    obtain ⟨submission, stamp, rfl, hscope⟩ := hother
    have hfailed := hun submission stamp rfl hscope
    -- a refused observation leaves the tables alone
    simp only [Engine.call] at hfailed ⊢
    unfold Engine.recordObservationAt at hfailed ⊢
    cases hgate : e.admitObservation env submission stamp with
    | error answer => exact h
    | ok document =>
      simp only [hgate] at hfailed ⊢
      by_cases hs : ((e.under env).store.commitObservation document).1.code ≠ .ok
      · obtain ⟨q, hq⟩ := commit_failed hs
        rw [if_pos hs]
        show Outdated scope e.live ((e.under env).store.commitObservation document).2.state
        rw [show ((e.under env).store.commitObservation document).2.state = _ from hq]
        exact h
      · simp [hs, Status.ok] at hfailed

/-- A completion of a foreign attempt is refused before anything is written. -/
theorem complete_foreign {request : CompletionRequest}
    (h : ∀ a, e.store.state.attempts.find? request.attempt = some a → a.Foreign e.live) :
    (e.complete env request).1.code ≠ .ok ∧ (e.complete env request).2.2 = e := by
  obtain ⟨status, hs, hgate⟩ : ∃ status, status.code ≠ .ok ∧ e.admitCompletion request = .error status := by
    unfold Engine.admitCompletion
    by_cases hro : e.store.readOnly = true
    · exact ⟨_, by decide, if_pos hro⟩
    rw [if_neg hro]
    cases hfind : e.store.state.attempts.find? request.attempt with
    | none => exact ⟨_, by decide, rfl⟩
    | some a =>
      have hforeign : a.epoch ≠ e.live.epoch ∨ a.boot ≠ e.live.boot := h a hfind
      by_cases hkey : a.idempotencyKey ≠ request.idempotencyKey
      · exact ⟨_, by decide, if_pos hkey⟩
      by_cases hcurrent : request.epoch ≠ e.live.epoch ∨ request.boot ≠ e.live.boot
      · simp only [if_neg hkey, if_pos hcurrent]
        exact ⟨_, by decide, rfl⟩
      · simp only [if_neg hkey, if_neg hcurrent, if_pos hforeign]
        exact ⟨_, by decide, rfl⟩
  unfold Engine.complete
  rw [hgate]
  exact ⟨hs, rfl⟩

/-- A record of a stored attempt evicts no other attempt: the table does not grow. -/
theorem applyAttempt_others {st : DurableState} (hst : Stamped limits st) {a b c : AttemptRecord} {k : UInt64}
    (hb : st.attempts.find? b.id = some c) (hk : k ≠ b.id) (ha : st.attempts.find? k = some a) :
    (applyAttempt limits b st).attempts.find? k = some a := by
  have hinsert : (st.attempts.insert b.id b).find? k = some a := by
    rw [OrdMap.find?_insert_ne _ _ hk]
    exact ha
  by_cases hover : limits.maxRetainedAttempts.toNat < st.attempts.size
  · exact find?_trimAttempts (hst.trimmed hover (k, a) (OrdMap.find?_eq_some_iff.mp ha)) hinsert
  · have hsize : (st.attempts.insert b.id b).size = st.attempts.size := by
      rw [OrdMap.size_insert, hb]
      rfl
    have hkept : trimAttempts (st.attempts.insert b.id b).size limits.maxRetainedAttempts.toNat
        (st.attempts.insert b.id b) = st.attempts.insert b.id b := by
      rw [hsize]
      cases hn : st.attempts.size with
      | zero => rfl
      | succ n =>
        unfold trimAttempts
        rw [if_neg (by rw [hsize]; exact hover)]
    show (trimAttempts _ _ _).find? k = some a
    rw [hkept]
    exact hinsert

/-- What a verification may write leaves foreign attempts alone. -/
theorem Write.foreign {v : VerificationEvidence} {st : DurableState} {ev : Event}
    (hw : Write limits live (some (.verify v)) st ev) (hst : Stamped limits st) {k : UInt64} {a : AttemptRecord}
    (ha : st.attempts.find? k = some a) (hforeign : a.Foreign live) :
    (applyEvent limits st ev).attempts.find? k = some a := by
  cases hw with
  | attemptIssued p d now hcause hd hact hnone => simp at hcause
  | attemptTransition b b' hm hc =>
    have hid : b'.id = b.id := by rw [hm.same]
    cases hc with
    | restart h ht => simp at h
    | fence f h ht => simp at h
    | complete r h ht hid hlive => simp at h
    | verify v' h happlied ht hlive =>
      refine applyAttempt_others hst (by rw [hid]; exact hm.stored) ?_ ha
      intro hk
      rw [hk, hid, hm.stored, Option.some.injEq] at ha
      subst ha
      rcases hforeign with h1 | h1
      · exact h1 hlive.1
      · exact h1 hlive.2
  | _ => exact ha

/-- No verification changes a foreign attempt. -/
theorem verify_foreign (ht : Tracked limits (.up e)) (v : VerificationEvidence) {k : UInt64} {a : AttemptRecord}
    (ha : e.store.state.attempts.find? k = some a) (hforeign : a.Foreign e.live) :
    (e.verify env v).2.2.store.state.attempts.find? k = some a := by
  obtain ⟨hsound, hepoch⟩ := ht.sound
  refine hsound.invariant (P := fun st => st.attempts.find? k = some a) (fun _ => hepoch)
    (call_commits ht.consistent env (.verify v)) ?_ ?_ ha
  · intro st st' htables hst
    rw [← (tables_eq_iff.mp htables).2.2.2.2.2.2.2.1]
    exact hst
  · intro st ev hstamped _ hw hst
    exact hw.foreign hstamped hst hforeign

end Calls

/-! ## Restart -/

/-- The tables carry no stamp above `n`. -/
def StampsUpTo (n : CoordinatorEpoch) (s : DurableState) : Prop :=
  (∀ scope documents, s.observations.find? scope = some documents → ∀ d ∈ documents, d.receivedEpoch ≤ n) ∧
    ∀ k a, s.attempts.find? k = some a → a.epoch ≤ n

/-- The tables carry stamps below `n` only. -/
def StampsBelow (n : CoordinatorEpoch) (s : DurableState) : Prop :=
  (∀ scope documents, s.observations.find? scope = some documents → ∀ d ∈ documents, d.receivedEpoch < n) ∧
    ∀ k a, s.attempts.find? k = some a → a.epoch < n

theorem Stamped.upTo {limits : RuntimeLimits} {s : DurableState} (h : Stamped limits s) : StampsUpTo s.lastEpoch s :=
  ⟨fun _ _ hfind => h.observations _ (OrdMap.find?_eq_some_iff.mp hfind),
    fun _ _ hfind => (h.attempts _ (OrdMap.find?_eq_some_iff.mp hfind)).1⟩

/-- A boot issues no attempt and records no observation. -/
theorem Write.stamps {limits : RuntimeLimits} {live : Incarnation} {st : DurableState} {ev : Event}
    {n : CoordinatorEpoch} (hw : Write limits live none st ev) (h : StampsUpTo n st) :
    StampsUpTo n (applyEvent limits st ev) := by
  cases hw with
  | observationCommit d hok hepoch hcause =>
    obtain ⟨submission, stamp, hnone, -⟩ := hcause
    simp at hnone
  | attemptIssued p d now hcause hd hact hnone => simp at hcause
  | attemptTransition a a' hm hc =>
    refine ⟨h.1, ?_⟩
    intro k b hb
    rcases find?_applyAttempt hb with ⟨-, rfl⟩ | ⟨-, hold⟩
    · rw [hm.same]
      exact h.2 a.id a hm.stored
    · exact h.2 k b hold
  | _ => exact h

theorem StampsUpTo.congr {n : CoordinatorEpoch} {s t : DurableState} (he : s.tables = t.tables)
    (h : StampsUpTo n s) : StampsUpTo n t := by
  obtain ⟨-, -, -, -, -, -, h1, h2, -, -⟩ := tables_eq_iff.mp he
  unfold StampsUpTo
  rw [← h1, ← h2]
  exact h

/-- What later calls of the incarnation that `e` started can and cannot do. -/
structure Powerless (e later : Engine) : Prop where
  plan : ∀ request, Calls (Unobserved request.scope) e later → ∀ env plan, later.plan env request = .ok plan →
    ∀ d ∈ plan.decisions, d.disposition ≠ .actionable
  complete : ∀ env (request : CompletionRequest),
    (∀ a, later.store.state.attempts.find? request.attempt = some a → a.Foreign later.live) →
    (later.complete env request).1.code ≠ .ok ∧ (later.complete env request).2.2 = later
  verify : ∀ env evidence k a, later.store.state.attempts.find? k = some a → a.Foreign later.live →
    (later.verify env evidence).2.2.store.state.attempts.find? k = some a

section Restart

variable {limits : RuntimeLimits} {e later : Engine}

theorem Calls.mono {allowed allowed' : Engine → Operation → CallEnv → Prop}
    (hle : ∀ t operation env, allowed t operation env → allowed' t operation env) (h : Calls allowed e later) :
    Calls allowed' e later := by
  induction h with
  | refl => exact .refl
  | call h operation env ha ih => exact ih.call operation env (hle _ operation env ha)

theorem Calls.tracked {allowed : Engine → Operation → CallEnv → Prop} (h : Calls allowed e later)
    (he : Tracked limits (.up e)) : Tracked limits (.up later) ∧ later.live = e.live := by
  induction h with
  | refl => exact ⟨he, rfl⟩
  | @call t h operation env ha ih =>
    exact ⟨ih.1.step (.call operation env) (by simp), (call_frame t env operation).2.trans ih.2⟩

/-- Evidence stays outdated until the scope is observed. -/
theorem Calls.outdated {scope : ScopeId} (h : Calls (Unobserved scope) e later) (he : Tracked limits (.up e))
    (hold : Outdated scope e.live e.store.state) : Outdated scope later.live later.store.state := by
  induction h with
  | refl => exact hold
  | @call t h operation env ha ih =>
    obtain ⟨ht, -⟩ := h.tracked he
    have hcall := Outdated.call ht ha ih
    rw [← (call_frame t env operation).2] at hcall
    exact hcall

/-- **`restart_restores_nothing`**: in every reachable process no stamp is newer than `last_epoch`; a
writable boot that comes up has an epoch above all stamps and no attempt in flight; and whatever the
calls that follow, nothing of an earlier incarnation can be acted on. -/
theorem restart_restores_nothing {p : Process} (h : Run limits (fun _ _ => True) p) :
    StampsUpTo p.state.lastEpoch p.state ∧
      ∀ dir last options opening id env status, p = .down dir last → options.limits = limits →
        options.readOnly = false → p.step (.boot options opening id env) = (status, .up e) →
        StampsBelow e.live.epoch e.store.state ∧
          (∀ k a, e.store.state.attempts.find? k = some a → a.state.isTerminal = true) ∧
          ∀ later, Calls (fun _ _ _ => True) e later → Powerless e later := by
  have htracked := run_tracked h
  refine ⟨htracked.stamped.upTo, ?_⟩
  rintro dir last options opening id env status rfl hoptions hwrite hstep
  obtain ⟨hup, hbooted⟩ := htracked.boot hoptions opening id env
  have hresult : (Process.boot dir last options opening id env).2 = .up e := congrArg Prod.snd hstep
  obtain ⟨opened, hopened, hb, hcommits⟩ := hbooted e hresult hwrite
  rw [hresult] at hup
  have hstamps : StampsUpTo opened.state.lastEpoch e.store.state :=
    hopened.invariant (fun hcause => absurd rfl hcause) hcommits StampsUpTo.congr (fun _ _ hw hst => hw.stamps hst)
      hopened.stamped.upTo
  have hbelow : StampsBelow e.live.epoch e.store.state :=
    ⟨fun scope documents hfind d hd => lt_of_le_of_lt (hstamps.1 scope documents hfind d hd) hb.newer,
      fun k a hfind => lt_of_le_of_lt (hstamps.2 k a hfind) hb.newer⟩
  refine ⟨hbelow, hb.ended, ?_⟩
  intro later hlater
  obtain ⟨htracked, hlive⟩ := hlater.tracked hup
  constructor
  · intro request hun env' plan hplan
    have hold : Outdated request.scope e.live e.store.state := hbelow.1 request.scope
    exact (hun.outdated hup hold).plan hplan
  · intro env' request hforeign
    exact complete_foreign hforeign
  · intro env' evidence k a ha hforeign
    exact verify_foreign htracked evidence ha hforeign

/-- The first boot of an empty directory dies at its first append; the second one comes up. -/
theorem restart_restores_nothing_after_death :
    ∃ e, (Process.step (Process.step (.down {} {}) (.boot {} {} FixedBytes.zero { faults := [.shortWrite 0] })).2
        (.boot {} {} FixedBytes.zero {})).2 = .up e ∧
      e.live.epoch = 1 ∧ StampsBelow e.live.epoch e.store.state ∧ Powerless e e := by
  have hinstall : ({} : EngineOptions).Installs defaultPolicy :=
    ⟨rfl, canonicalisePolicy_self (defaultPolicy_canonical _)⟩
  have hfits : (Event.policyPut defaultPolicy).Fits {} := (brief_policy rfl rfl).fits ⟨rfl, rfl⟩
  obtain ⟨last, hdied⟩ := @boot_cut {} {} { faults := [.shortWrite 0] } FixedBytes.zero defaultPolicy rfl rfl rfl rfl
    hinstall hfits {}
  have hup := @boot_bare {} [(Event.policyPut defaultPolicy).appending false false] {} {} FixedBytes.zero defaultPolicy
    rfl rfl hinstall hfits ((brief_epoch 1).fits ⟨rfl, rfl⟩)
    (reopens_of_brief ⟨rfl, rfl⟩ (by simp) (by simp) (by simp)) {} last
  obtain ⟨-, hboot⟩ := @restart_restores_nothing {} _ _ (Run.boot .start {} {} FixedBytes.zero
    { faults := [.shortWrite 0] } rfl trivial)
  rw [hdied] at hboot ⊢
  obtain ⟨hbelow, -, hlater⟩ := hboot _ last {} {} FixedBytes.zero {} _ rfl rfl rfl hup
  exact ⟨_, congrArg Prod.snd hup, rfl, hbelow, hlater _ .refl⟩

end Restart

end FabricReconciliation
