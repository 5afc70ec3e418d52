import FabricReconciliation.Fencing
import FabricReconciliation.Recorded

/-!
# Attempts in flight and fences (`engine.cpp:825-834`, `engine.cpp:1123-1191`)

`PutFence` stores its fence first and ends the attempts under it one by one, so between its appends an
attempt is in flight under a fence. A call that completes leaves none, and neither does a writable boot,
since it ends every attempt.

* **`putFence_guarded`** — `PutFence`, whose victims and whose coverage must agree;
* **`fenced_never_in_flight`** — the invariant in every run, and what it means for the calls.
-/

namespace FabricReconciliation

open Lib

/-- No attempt is in flight under a fence. -/
def Guarded (s : DurableState) : Prop :=
  ∀ k a, s.attempts.find? k = some a → a.state.isTerminal = false →
    fenceHoldsFor s a.scope a.subject a.epoch = false

section Records

variable {limits : RuntimeLimits} {live : Incarnation} {cause : Option Operation} {s t : DurableState} {e : Event}

theorem Guarded.congr (h : Guarded s) (hattempts : t.attempts = s.attempts) (hfences : t.fences = s.fences) :
    Guarded t := by
  intro k a ha hrun
  rw [fenceHoldsFor_congr hfences]
  rw [hattempts] at ha
  exact h k a ha hrun

/-- A record of an attempt that no fence covers. -/
theorem Guarded.applyAttempt (h : Guarded s) {a : AttemptRecord}
    (ha : fenceHoldsFor s a.scope a.subject a.epoch = false) : Guarded (applyAttempt limits a s) := by
  intro k b hb hrun
  rcases find?_applyAttempt hb with ⟨-, rfl⟩ | ⟨-, hold⟩
  · exact ha
  · exact h k b hold hrun

/-- All records but a new fence. -/
theorem Guarded.write (h : Guarded s) (he : Write limits live cause s e) (hput : ∀ f, cause ≠ some (.putFence f)) :
    Guarded (applyEvent limits s e) := by
  cases he with
  | attemptIssued p d now hcause hd hact hfree hnone => exact h.applyAttempt hfree
  | attemptTransition a a' hm hc =>
    refine h.applyAttempt ?_
    rw [hm.same]
    exact h a.id a hm.stored hm.running
  | fencePut f now hid hscope hcause => exact absurd hcause (hput f)
  | fenceClear id hid hcause =>
    intro k a ha hrun
    by_contra hholds
    rw [Bool.not_eq_false] at hholds
    have hbefore := fenceHoldsFor_of_clear hholds
    rw [h k a ha hrun] at hbefore
    simp at hbefore
  | _ => exact h.congr rfl rfl

end Records

/-! ## `PutFence` -/

theorem settleAll_fences {ending : AttemptRecord → AttemptRecord × ReconciliationOutcome}
    {victims : List AttemptRecord} {t : DurableStore} (h : (t.settleAll ending victims).1.code = .ok) :
    (t.settleAll ending victims).2.state.fences = t.state.fences := by
  induction victims generalizing t with
  | nil => rfl
  | cons a rest ih =>
    unfold DurableStore.settleAll at h ⊢
    by_cases hs : (t.settle (ending a).1 (ending a).2).1.code ≠ .ok
    · simp only [if_pos hs] at h
      exact absurd h hs
    simp only [if_neg hs] at h ⊢
    push Not at hs
    obtain ⟨-, -, q, hq⟩ := settle_ok hs
    rw [ih h, hq]
    rfl

section PutFence

variable {limits : RuntimeLimits} {e : Engine} {env : CallEnv}

/-- An attempt in flight that the fence covers is among those it ends. -/
theorem mem_fenceVictims {s : DurableState} {f : FenceEntry} {k : UInt64} {a : AttemptRecord}
    (ha : s.attempts.find? k = some a) (hrun : a.state.isTerminal = false)
    (hcovers : f.covers a.scope a.subject a.epoch = true) : a ∈ Engine.fenceVictims s f := by
  unfold Engine.fenceVictims
  rw [mem_sortById, List.mem_filter]
  refine ⟨OrdMap.mem_values_iff.mpr ⟨k, ha⟩, ?_⟩
  simp only [FenceEntry.covers, Bool.and_eq_true, decide_eq_true_eq] at hcovers
  obtain ⟨⟨hscope, hsubject⟩, hbelow⟩ := hcovers
  simp only [hrun, hscope, hsubject, hbelow, Bool.not_false, decide_true, Bool.and_self]

/-- The loop of `PutFence` over the attempts under the fence `f`. -/
theorem fence_loop_guarded {t : DurableStore} {live : Incarnation} {now : UnixMillis} {f : FenceEntry}
    (hmode : t.readOnly = false) (hlim : t.limits = limits) (hsane : Sane limits t.state)
    (hack : Acknowledged t (t.settleAll (Engine.fenceAttempt limits live now) (Engine.fenceVictims t.state f)).2)
    (hnew : ∀ k a, t.state.attempts.find? k = some a → a.state.isTerminal = false →
      fenceHoldsFor t.state a.scope a.subject a.epoch = true → f.covers a.scope a.subject a.epoch = true) :
    (t.settleAll (Engine.fenceAttempt limits live now) (Engine.fenceVictims t.state f)).1.code = .ok ∧
      Guarded (t.settleAll (Engine.fenceAttempt limits live now) (Engine.fenceVictims t.state f)).2.state := by
  have hcode := settleAll_acknowledged (fenceAttempt_id limits live now) hmode hlim hsane
    (fence_pending hsane.tables f) (fun a ha st hst => fence_settles hsane.tables f f live now ha hst) hack
  refine ⟨hcode, ?_⟩
  intro k a ha hrun
  rw [fenceHoldsFor_congr (settleAll_fences hcode)]
  rcases settleAll_ok (fenceAttempt_id limits live now) hcode ha with ⟨b, -, rfl⟩ | ⟨hfind, hnot⟩
  · exact absurd hrun (by simp [Engine.fenceAttempt, AttemptRecord.move, AttemptState.isTerminal])
  · -- an attempt that the loop did not end is not under the fence
    by_contra hholds
    have hcovers := hnew k a hfind hrun (by simpa using hholds)
    have hid := (hsane.tables.attempts (k, a) (OrdMap.find?_eq_some_iff.mp hfind)).2
    exact hnot a (mem_fenceVictims hfind hrun hcovers) hid

/-- **`putFence_guarded`**. -/
theorem putFence_guarded (h : Consistent limits e) (hsane : Sane limits e.store.state) (hguarded : Guarded e.store.state)
    (fence : FenceEntry) (hack : Acknowledged e.store (e.putFence env fence).2.store) :
    Guarded (e.putFence env fence).2.store.state := by
  unfold Engine.putFence at hack ⊢
  by_cases hro : e.store.readOnly = true
  · rw [if_pos hro]
    exact hguarded
  rw [if_neg hro] at hack ⊢
  by_cases hempty : (fence.id.empty || fence.scope.empty) = true
  · rw [if_pos hempty]
    exact hguarded
  rw [if_neg hempty] at hack ⊢
  by_cases hzero : fence.fencedBelow = 0
  · rw [if_pos hzero]
    exact hguarded
  rw [if_neg hzero, h.options] at hack ⊢
  generalize (if fence.createdUnixMs ≠ 0 then fence.createdUnixMs else env.now) = now at hack ⊢
  have hlog := commit_log (e.under env).store "fence" (.fencePut { fence with createdUnixMs := now })
  have hmode := commit_readOnly (e.under env).store "fence" (.fencePut { fence with createdUnixMs := now })
  have hlim := commit_limits (e.under env).store "fence" (.fencePut { fence with createdUnixMs := now })
  have hresult := @commit_result (e.under env).store "fence" (.fencePut { fence with createdUnixMs := now })
    (by simp [Event.isDocument])
  unfold DurableStore.putFence at hack ⊢
  dsimp only at hack ⊢
  generalize (e.under env).store.commit "fence" (.fencePut { fence with createdUnixMs := now }) = stored
    at hlog hmode hlim hresult hack ⊢
  rcases hresult with ⟨hcode, hok, q, hq⟩ | ⟨hcode, q, hq⟩
  swap
  · simp only [if_pos hcode]
    rw [show (e.withStore stored.2).store.state = _ from hq]
    exact hguarded.congr rfl rfl
  simp only [hcode, ne_eq, not_true_eq_false, if_false] at hack ⊢
  rw [show (e.under env).store.limits = limits from h.store] at hok hq hlim
  have hsane' : Sane limits stored.2.state := by
    rw [hq]
    exact ⟨{ TablesOk.applyFence hsane.tables hok with }, hsane.slim⟩
  have hnew : ∀ k a, stored.2.state.attempts.find? k = some a → a.state.isTerminal = false →
      fenceHoldsFor stored.2.state a.scope a.subject a.epoch = true → fence.covers a.scope a.subject a.epoch = true := by
    intro k a ha hrun hholds
    rw [hq] at ha hholds
    rcases fenceHoldsFor_of_put hholds with hcovers | hold
    · exact hcovers
    · rw [show fenceHoldsFor (e.under env).store.state a.scope a.subject a.epoch = false from
        hguarded k a ha hrun] at hold
      simp at hold
  have hrest : Acknowledged stored.2 (stored.2.settleAll (Engine.fenceAttempt limits e.live now)
      (Engine.fenceVictims stored.2.state { fence with createdUnixMs := now })).2 := by
    have hall : Acknowledged e.store (stored.2.settleAll (Engine.fenceAttempt limits e.live now)
        (Engine.fenceVictims stored.2.state { fence with createdUnixMs := now })).2 := by
      split at hack
      · exact hack
      · unfold Acknowledged at hack ⊢
        rw [(maybeCompact_state _ env).2] at hack
        exact hack
    exact (hall.split hlog (settleAll_log _ _ _)).2
  obtain ⟨hdone, hguard⟩ := @fence_loop_guarded limits stored.2 e.live now { fence with createdUnixMs := now }
    (hmode.trans (show e.store.readOnly = false by simpa using hro)) hlim hsane' hrest hnew
  simp only [hdone, not_true_eq_false, if_false]
  obtain ⟨-, -, -, -, -, -, -, hattempts, -, hfences⟩ := tables_eq_iff.mp (maybeCompact_state (e.withStore
    (stored.2.settleAll (Engine.fenceAttempt limits e.live now)
      (Engine.fenceVictims stored.2.state { fence with createdUnixMs := now })).2) env).1
  exact hguard.congr hattempts hfences

end PutFence

/-! ## The calls -/

section Calls

variable {limits : RuntimeLimits} {e : Engine} {env : CallEnv}

theorem admitCompletion_refused {request : CompletionRequest} {status : Status}
    (h : e.admitCompletion request = .error status) : status.code ≠ .ok := by
  unfold Engine.admitCompletion at h
  repeat' split at h
  all_goals cases h <;> simp [Engine.readOnlyStatus]

theorem admitVerification_refused {evidence : VerificationEvidence} {status : Status}
    (h : e.admitVerification env evidence = .error status) : status.code ≠ .ok := by
  unfold Engine.admitVerification at h
  dsimp only at h
  repeat' split at h
  all_goals cases h <;> simp [Engine.readOnlyStatus]

/-- What the invariant means for the calls on an engine. -/
structure Unfenced (e : Engine) : Prop where
  complete : ∀ env request a, (e.complete env request).1.code = .ok →
    e.store.state.attempts.find? request.attempt = some a → fenceHoldsFor e.store.state a.scope a.subject a.epoch = false
  verify : ∀ env evidence a, (e.verify env evidence).1.code = .ok →
    (e.store.state.attempts.values.find? fun a => a.idempotencyKey = evidence.idempotencyKey) = some a →
    fenceHoldsFor e.store.state a.scope a.subject a.epoch = false
  /-- what is new in the table after a dispatch -/
  dispatch : ∀ env plan k a, (e.dispatch env plan).2.store.state.attempts.find? k = some a →
    e.store.state.attempts.find? k = some a ∨
      fenceHoldsFor (e.dispatch env plan).2.store.state a.scope a.subject a.epoch = false

theorem complete_unfenced (h : Guarded e.store.state) {request : CompletionRequest} {a : AttemptRecord}
    (hok : (e.complete env request).1.code = .ok) (ha : e.store.state.attempts.find? request.attempt = some a) :
    fenceHoldsFor e.store.state a.scope a.subject a.epoch = false := by
  unfold Engine.complete at hok
  cases hgate : e.admitCompletion request with
  | error status =>
    rw [hgate] at hok
    exact absurd hok (admitCompletion_refused hgate)
  | ok b =>
    have hb := admitCompletion_ok.mp hgate
    have hsame : b = a := Option.some.inj (hb.stored.symm.trans ha)
    subst hsame
    exact h request.attempt b ha (transitionLegal_running hb.legal)

theorem verify_unfenced (h : Guarded e.store.state) {evidence : VerificationEvidence} {a : AttemptRecord}
    (hok : (e.verify env evidence).1.code = .ok)
    (ha : (e.store.state.attempts.values.find? fun a => a.idempotencyKey = evidence.idempotencyKey) = some a) :
    fenceHoldsFor e.store.state a.scope a.subject a.epoch = false := by
  unfold Engine.verify at hok
  cases hgate : e.admitVerification env evidence with
  | error status =>
    rw [hgate] at hok
    exact absurd hok (admitVerification_refused hgate)
  | ok b =>
    have hb := admitVerification_ok hgate
    have hsame : b = a := Option.some.inj (hb.found.symm.trans ha)
    subst hsame
    obtain ⟨k, hk⟩ := OrdMap.mem_values_iff.mp (List.mem_of_find?_eq_some ha)
    exact h k b hk (by rw [hb.applied]; rfl)

/-- `Dispatch` checks the fences for each attempt before it issues it. -/
theorem dispatch_unfenced (h : Tracked limits (.up e)) {plan : ReconciliationPlan} {k : UInt64} {a : AttemptRecord}
    (ha : (e.dispatch env plan).2.store.state.attempts.find? k = some a) :
    e.store.state.attempts.find? k = some a ∨
      fenceHoldsFor (e.dispatch env plan).2.store.state a.scope a.subject a.epoch = false := by
  obtain ⟨hsound, hlive⟩ := h.sound
  have hcommits := call_commits h.consistent env (.dispatch plan)
  obtain ⟨hfences, hnew⟩ := hsound.invariant (P := fun st => st.fences = e.store.state.fences ∧
    ∀ k a, st.attempts.find? k = some a → e.store.state.attempts.find? k = some a ∨
      fenceHoldsFor e.store.state a.scope a.subject a.epoch = false) (fun _ => hlive) hcommits
    (by
      intro st st' hst hp
      obtain ⟨-, -, -, -, -, -, -, hattempts, -, hfences⟩ := tables_eq_iff.mp hst
      rw [← hattempts, ← hfences]
      exact hp)
    (by
      rintro st ev - - he ⟨hfences, hold⟩
      cases he with
      | attemptIssued p d now hcause hd hact hfree hnone =>
        refine ⟨hfences, ?_⟩
        intro k b hb
        rcases find?_applyAttempt hb with ⟨-, rfl⟩ | ⟨-, hb⟩
        · right
          rw [← fenceHoldsFor_congr hfences]
          exact hfree
        · exact hold k b hb
      | attemptTransition a a' hm hc =>
        rcases hc with ⟨hcause, -⟩ | ⟨f, hcause, -⟩ | ⟨r, hcause, -⟩ | ⟨v, hcause, -⟩ <;> simp at hcause
      | fencePut f now hid hscope hcause => simp at hcause
      | fenceClear id hid hcause => simp at hcause
      | _ => exact ⟨hfences, hold⟩)
    ⟨rfl, fun _ _ hb => .inl hb⟩
  rcases hnew k a ha with hold | hfree
  · exact .inl hold
  · right
    rw [fenceHoldsFor_congr (show (e.dispatch env plan).2.store.state.fences = _ from hfences)]
    exact hfree

end Calls

/-! ## Runs -/

/-- An empty directory, or an engine that a writable boot has just returned, whatever happened before. -/
inductive Origin (limits : RuntimeLimits) : Process → Prop
  | empty : Origin limits (.down {} {})
  | booted {dir : Directory} {last : DurableState} {options : EngineOptions} {e : Engine}
      (h : Run limits Process.Orderly (.down dir last)) (opening : DurableStore.OpenEnv) (id : BootId) (env : CallEnv)
      (hoptions : options.limits = limits) (hwrite : options.readOnly = false)
      (hup : (Process.step (.down dir last) (.boot options opening id env)).2 = .up e) : Origin limits (.up e)

section Runs

variable {limits : RuntimeLimits} {p q : Process} {v w : View}

/-- Everything that reached the files is in memory, and no attempt there is in flight under a fence. -/
structure View.Guarded (limits : RuntimeLimits) (v : View) : Prop extends v.Good limits where
  told : v.pending = none
  guarded : FabricReconciliation.Guarded v.memory

theorem Origin.run (h : Origin limits p) : Run limits Process.Orderly p := by
  cases h with
  | empty => exact .start
  | booted h opening id env hoptions hwrite hup =>
    rw [← hup]
    exact Run.boot h _ opening id env hoptions trivial

theorem Origin.guarded (h : Origin limits p) : ∃ v, Kept limits p v ∧ v.Guarded limits := by
  cases h with
  | empty =>
    refine ⟨View.initial, .down (.blank ⟨rfl, rfl⟩ rfl rfl), good_initial limits, rfl, ?_⟩
    intro k a ha
    simp [View.initial, DurableState.tables, DurableState.core] at ha
  | @booted dir last options e h opening id env hoptions hwrite hup =>
    obtain ⟨v, hv, hgood⟩ := run_good (fun _ _ ha => ha) h
    cases hv with
    | down hrests =>
      obtain ⟨w, hw, hprogress, hlevel⟩ := hrests.boot hoptions opening id env
      rw [show (Process.boot dir last options opening id env).2 = .up e from hup] at hw hlevel
      obtain ⟨-, hbooted⟩ := (run_tracked h).boot hoptions opening id env
      obtain ⟨opened, -, hb, -⟩ := hbooted e hup hwrite
      refine ⟨w, hw, hgood.progress hprogress, hlevel e rfl, ?_⟩
      -- every attempt has ended
      intro k a ha hrun
      rw [hw.tables] at ha
      rw [hb.ended k a ha] at hrun
      simp at hrun

/-- One step whose appends succeed. -/
theorem View.Guarded.step (h : v.Guarded limits) (hv : Kept limits p v) {a : Step} (hs : p.Succeeds a)
    (hprogress : Progress limits p a v w) (hw : Kept limits (p.step a).2 w) : w.Guarded limits := by
  have hgood := h.toGood.progress hprogress
  rcases hprogress.level h.told with rfl | ⟨live, cause, hcaused, hacts⟩
  · exact h
  have htold : w.pending = none := by
    have htold := hs.told
    unfold Process.Told at htold
    rw [hv.appends hw] at htold
    rcases hacts.told htold with ⟨hsame, -⟩ | hnone
    · exact hsame.trans h.told
    · exact hnone
  refine ⟨hgood, htold, ?_⟩
  by_cases hput : ∃ f, cause = some (.putFence f)
  · obtain ⟨f, rfl⟩ := hput
    cases hcaused with
    | call e operation env v =>
      have hsane : Sane limits e.store.state := by
        have hmemory := h.sane
        rw [hv.tables] at hmemory
        exact ⟨{ hmemory.tables with }, hmemory.slim⟩
      have hguarded : FabricReconciliation.Guarded e.store.state := by
        have hmemory := h.guarded
        rw [hv.tables] at hmemory
        exact hmemory.congr rfl rfl
      rw [hw.tables]
      exact (putFence_guarded hv.consistent hsane hguarded f hs).congr rfl rfl
  · exact hacts.memory h.guarded fun hst he _ _ => hst.write he fun f hf => hput ⟨f, hf⟩

/-- **`fenced_never_in_flight`**. -/
theorem fenced_never_in_flight (hp : Origin limits p)
    (hq : Later limits (fun p a => p.Orderly a ∧ p.Succeeds a) p q) :
    Guarded q.state ∧ ∀ e, q = .up e → Unfenced e := by
  obtain ⟨v, hv, hguard⟩ := hp.guarded
  obtain ⟨w, hw, hguarded⟩ := later_kept (J := fun _ v => v.Guarded limits) hv hguard
    (fun hv hj ha hprogress hw => hj.step hv ha.2 hprogress hw) (fun _ _ ha => ha.1) hq
  have hstate : Guarded q.state := by
    have hmemory := hguarded.guarded
    rw [hw.tables] at hmemory
    exact hmemory.congr rfl rfl
  refine ⟨hstate, ?_⟩
  rintro e rfl
  have htracked := run_tracked (hp.run.later (hq.mono fun _ _ ha => ha.1))
  exact ⟨fun env request a => complete_unfenced hstate, fun env evidence a => verify_unfenced hstate,
    fun env plan k a => dispatch_unfenced htracked⟩

/-- The process after a step. -/
def Process.after (p : Process) (a : Step) : Process := (p.step a).2

theorem Process.after_eq (p : Process) (a : Step) : (p.step a).2 = p.after a := rfl

theorem Later.after {allowed : Process → Step → Prop} {q : Process} (h : Later limits allowed p q) {a : Step}
    (ha : allowed q a) (hlimits : ∀ options opening id env, a = .boot options opening id env → options.limits = limits) :
    Later limits allowed p (q.after a) := .step h a ha hlimits

theorem Run.after {allowed : Process → Step → Prop} (h : Run limits allowed p) {a : Step} (ha : allowed p a)
    (hlimits : ∀ options opening id env, a = .boot options opening id env → options.limits = limits) :
    Run limits allowed (p.after a) := .step h a ha hlimits

/-- A step that returns OK prolongs such a run. -/
theorem Origin.completes (hp : Origin limits p) (hq : Later limits (fun p a => p.Orderly a ∧ p.Succeeds a) p q)
    {a : Step} (ha : q.Orderly a)
    (hlimits : ∀ options opening id env, a = .boot options opening id env → options.limits = limits)
    (hok : (q.step a).1.code = .ok) : Later limits (fun p a => p.Orderly a ∧ p.Succeeds a) p (q.after a) := by
  obtain ⟨v, hv, -⟩ := run_sound (fun _ _ ha => ha) (hp.run.later (hq.mono fun _ _ ha => ha.1))
  exact hq.step a ⟨ha, step_succeeds hv hlimits hok⟩ hlimits

/-- The first boot that comes up. -/
theorem origin_boots {options : EngineOptions} (hoptions : options.limits = limits) (opening : DurableStore.OpenEnv)
    (id : BootId) (env : CallEnv) (hok : (Process.step (.down {} {}) (.boot options opening id env)).1.code = .ok) :
    Later limits (fun p a => p.Orderly a ∧ p.Succeeds a) (.down {} {})
      (Process.after (.down {} {}) (.boot options opening id env)) := by
  refine Origin.empty.completes .refl trivial ?_ hok
  intro options' opening' id' env' heq
  injection heq with hsame
  rw [← hsame]
  exact hoptions

def sampleScope : ScopeId := ⟨[0x73], valid_s⟩

def sampleSubject : SubjectId := ⟨[0x61], valid_a⟩

/-- One subject without attributes in the scope `s`. -/
def sampleIntent : IntentDocument where
  intent := ⟨[0x69], valid_i⟩
  scope := sampleScope
  definition := ⟨[0x64], valid_d⟩
  generation := 1
  policyVersion := 1
  evidence := .real
  complete := true
  subjects := OrdMap.empty.insert sampleSubject ⟨sampleSubject, true, OrdMap.empty⟩
  digest := FixedBytes.zero

/-- A report by `r` that the scope is empty. -/
def sampleReport (generation : ObservationGeneration) : ObservationSubmission where
  observation := ⟨[0x6f], valid_o⟩
  scope := sampleScope
  reporter := ⟨[0x72], valid_r⟩
  generation := generation
  evidence := .real
  complete := true
  authoritativeAbsence := true
  subjects := OrdMap.empty

def sampleStart : Process := Process.after (.down {} {}) (.boot {} {} FixedBytes.zero {})

def sampleIntended : Process := sampleStart.after (.call (.commitIntent sampleIntent) {})

def sampleObserved : Process := sampleIntended.after (.call (.recordObservationAt (sampleReport 1) 1) {})

def sampleAuthority : AuthorityVector where
  coordinatorEpoch := 1
  boot := FixedBytes.zero
  policyId := defaultPolicyId
  policyVersion := 1
  policyDigest := FixedBytes.zero
  definition := sampleIntent.definition
  intentGeneration := 1
  intent := sampleIntent.intent
  intentDigest := FixedBytes.zero
  observation := (sampleReport 1).observation
  observationGeneration := 1
  observationReporter := (sampleReport 1).reporter
  observationDigest := FixedBytes.zero
  observationEpoch := 1
  observationReceivedUnixMs := 1

/-- A plan for the scope with one action. `Dispatch` reads its scope, incarnation, digests and decisions. -/
def samplePlan : ReconciliationPlan where
  scope := sampleScope
  definition := sampleIntent.definition
  epoch := 1
  boot := FixedBytes.zero
  policyId := defaultPolicyId
  policyVersion := 1
  policyDigest := computePolicyDigest defaultPolicy
  intentGeneration := 1
  intent := sampleIntent.intent
  intentDigest := computeIntentDigest sampleIntent
  observation := (sampleReport 1).observation
  observationGeneration := 1
  reporter := (sampleReport 1).reporter
  observationDigest := computeObservationDigest
    { observation := (sampleReport 1).observation, scope := sampleScope, reporter := (sampleReport 1).reporter
      generation := 1, evidence := .real, complete := true, authoritativeAbsence := true, receivedEpoch := 1
      receivedUnixMs := 1, subjects := OrdMap.empty, digest := FixedBytes.zero }
  observationEpoch := 1
  observationReceivedUnixMs := 1
  freshness := .fresh
  verdict := .convergenceRequired
  evidence := .real
  truncated := false
  decisions := [⟨sampleScope, sampleSubject, .missing, .actionEligible, .applyDesired, .actionable, sampleAuthority,
    FixedBytes.zero, Explanation.withBound 0, .real⟩]
  scopeExplanation := Explanation.withBound 0
  scopeReason := .actionEligible
  planDigest := FixedBytes.zero
  planId := []

/-- An attempt to apply the subject is under way. -/
def sampleFlight : Process := sampleObserved.after (.call (.dispatch samplePlan) {})

section Allowed

variable {allowed : Process → Step → Prop} (hboot : allowed (.down {} {}) (.boot {} {} FixedBytes.zero {}))
  (hintent : allowed sampleStart (.call (.commitIntent sampleIntent) {}))
  (hreport : allowed sampleIntended (.call (.recordObservationAt (sampleReport 1) 1) {}))
  (hdispatch : allowed sampleObserved (.call (.dispatch samplePlan) {}))
include hboot

theorem sampleStart_allowed : Run {} allowed sampleStart := by
  rw [sampleStart]
  apply Run.after .start hboot
  rintro options opening id env ⟨⟩
  rfl

include hintent

theorem sampleIntended_allowed : Run {} allowed sampleIntended := by
  rw [sampleIntended]
  exact (sampleStart_allowed hboot).after hintent (by simp)

include hreport

theorem sampleObserved_allowed : Run {} allowed sampleObserved := by
  rw [sampleObserved]
  exact (sampleIntended_allowed hboot hintent).after hreport (by simp)

include hdispatch

theorem sampleFlight_allowed : Run {} allowed sampleFlight := by
  rw [sampleFlight]
  exact (sampleObserved_allowed hboot hintent hreport).after hdispatch (by simp)

end Allowed

theorem sampleFlight_run : Run {} Process.Orderly sampleFlight :=
  sampleFlight_allowed trivial (.inl rfl) (.inl rfl) (.inl rfl)

/-! ### The records of the sample -/

/-- The intent as the engine commits it. -/
def committedIntent : IntentDocument := { sampleIntent with digest := computeIntentDigest sampleIntent }

/-- The report as the engine stamps it. -/
def stampedReport : ObservationDocument :=
  let document : ObservationDocument :=
    { observation := (sampleReport 1).observation, scope := sampleScope, reporter := (sampleReport 1).reporter
      generation := 1, evidence := .real, complete := true, authoritativeAbsence := true, receivedEpoch := 1
      receivedUnixMs := 1, subjects := OrdMap.empty, digest := FixedBytes.zero }
  { document with digest := computeObservationDigest document }

/-- The attempt of the one decision. -/
def sampleAttempt : AttemptRecord where
  id := 1
  idempotencyKey := FixedBytes.zero
  scope := sampleScope
  subject := sampleSubject
  action := .applyDesired
  epoch := 1
  boot := FixedBytes.zero
  authority := sampleAuthority
  state := .dispatched
  issuedUnixMs := 0
  transitions := [⟨.issued, .dispatched, 1, FixedBytes.zero, 0, .attemptIssued, .none⟩]

/-- What the store of the sample has taken. -/
def sampleEvents : List Event :=
  [.policyPut defaultPolicy, .epochAdvance 1, .intentCommit committedIntent, .observationCommit stampedReport,
    .attemptIssued sampleAttempt]

/-- The engine of the sample after the first records, where histories have room for `n` transitions. -/
def sampleEngine (n : UInt64) (count : Nat) : Engine :=
  Engine.on { limits := { maxAttemptTransitions := n } } {} ⟨1, FixedBytes.zero⟩ 2
    (told (sampleEvents.take count)) (sampleEvents.take count)

theorem sampleEvents_brief : ∀ e ∈ sampleEvents, e.Brief := by
  intro e he
  simp only [sampleEvents, List.mem_cons, List.not_mem_nil, or_false] at he
  have hsubjects : (encodeSubjects sampleIntent.subjects).Total ∧
      (encodeSubjects sampleIntent.subjects).image.length ≤ 1000 := by
    decide
  rcases he with rfl | rfl | rfl | rfl | rfl
  · exact brief_policy rfl rfl
  · exact brief_epoch 1
  · exact brief_intent hsubjects.1 hsubjects.2
  · exact brief_observation (d := stampedReport) (by decide) (by decide)
  · exact brief_issued (by decide)

theorem sampleEvents_ok {n : UInt64} (hn : 1 ≤ n) : ∀ e ∈ sampleEvents, e.Ok { maxAttemptTransitions := n } := by
  intro e he
  simp only [sampleEvents, List.mem_cons, List.not_mem_nil, or_false] at he
  rcases he with rfl | rfl | rfl | rfl | rfl
  · exact defaultPolicy_canonical _
  · trivial
  · obtain ⟨hintent, hscope, hdefinition, hsubjects⟩ :=
      @validateIntent_ok sampleIntent { maxAttemptTransitions := n } rfl
    exact ⟨hintent, hscope, hdefinition, hsubjects, (computeIntentDigest_digest sampleIntent _).symm⟩
  · obtain ⟨hobservation, hscope, hreporter, hsubjects⟩ :=
      @validateSubmission_ok (sampleReport 1) { maxAttemptTransitions := n } rfl
    exact ⟨hobservation, hscope, hreporter, hsubjects, (computeObservationDigest_digest _ _).symm⟩
  · exact ⟨by decide, by decide, hn, rfl, rfl⟩

section Steps

variable (n : UInt64)

theorem sample_ample : Ample { maxAttemptTransitions := n } := ⟨rfl, rfl⟩

theorem sample_boots : Process.step (.down {} {})
    (.boot { limits := { maxAttemptTransitions := n } } {} FixedBytes.zero {}) =
      (Status.ok, .up (sampleEngine n 2)) := by
  apply boot_recorded rfl rfl rfl rfl rfl
  · exact canonicalisePolicy_self (defaultPolicy_canonical _)
  · exact (sampleEvents_brief _ (by simp [sampleEvents])).fits (sample_ample n)
  · exact (sampleEvents_brief _ (by simp [sampleEvents])).fits (sample_ample n)

theorem sample_intends : (Process.up (sampleEngine n 2)).step (.call (.commitIntent sampleIntent) {}) =
    (Status.ok, .up (sampleEngine n 3)) := by
  apply commitIntent_recorded rfl
  · rfl
  · rfl
  · exact (sampleEvents_brief (.intentCommit committedIntent) (by simp [sampleEvents])).fits (sample_ample n)
  · exact .inr (show (1 : UInt64) < 8192 by decide)

theorem sample_observes : (Process.up (sampleEngine n 3)).step (.call (.recordObservationAt (sampleReport 1) 1) {}) =
    (Status.ok, .up (sampleEngine n 4)) := by
  have hdone : (sampleEngine n 3).recordObservationAt {} (sampleReport 1) 1 =
      (Status.ok, some ⟨false, stampedReport⟩, sampleEngine n 4) := by
    apply recordObservationAt_on rfl
    · rfl
    · rfl
    · rfl
    · simp
    · exact (sampleEvents_brief (.observationCommit stampedReport) (by simp [sampleEvents])).fits (sample_ample n)
    · exact .inr (show (2 : UInt64) < 8192 by decide)
  simp only [Process.step, Engine.call, hdone]

theorem sample_selected : (selectCurrentObservation (observationCandidates (sampleEngine n 4).store.state
    sampleScope)).selected = some stampedReport.withKeyIds := by
  have hkept : (sampleEngine n 4).store.state.observations.find? sampleScope =
      some (keepLast 8 [stampedReport.withKeyIds]) := rfl
  rw [observationCandidates, hkept, keepLast_of_le (by decide)]
  simp [selectCurrentObservation, selectCurrent]

theorem sample_admits : (sampleEngine n 4).admitPlan samplePlan = .ok committedIntent.withKeyIds := by
  have hhas : (sampleEngine n 4).store.state.hasPolicy = true := rfl
  have hpolicy : (sampleEngine n 4).store.state.policy = defaultPolicy := rfl
  have hintent : (sampleEngine n 4).store.state.intents.find? samplePlan.scope = some committedIntent.withKeyIds := rfl
  have hselected : (selectCurrentObservation (observationCandidates (sampleEngine n 4).store.state
      samplePlan.scope)).selected = some stampedReport.withKeyIds := sample_selected n
  have hactive : samplePlan.policyDigest = computePolicyDigest defaultPolicy := rfl
  have hdigest : committedIntent.withKeyIds.digest = samplePlan.intentDigest := rfl
  have hseen : stampedReport.withKeyIds.digest = samplePlan.observationDigest := rfl
  unfold Engine.admitPlan
  simp only [hpolicy, hintent, hselected, hdigest, hseen]
  rw [if_neg (by simp [sampleEngine, Engine.on, recorded]), if_neg (by simp [samplePlan, sampleEngine, Engine.on]),
    if_neg (by rw [hhas]; decide), if_neg (not_not.mpr hactive),
    if_neg (by simp [samplePlan, committedIntent, IntentDocument.withKeyIds, sampleIntent]),
    if_neg (by simp [samplePlan, stampedReport, ObservationDocument.withKeyIds])]

theorem sample_dispatches (hn : 1 ≤ n) : (sampleEngine n 4).dispatch {} samplePlan =
    (.ok ⟨[Engine.actionIntent committedIntent.withKeyIds sampleAttempt], 0, 0⟩, sampleEngine n 5) := by
  apply dispatch_recorded rfl (sample_admits n)
  · rfl
  · rfl
  · rfl
  · rfl
  · rfl
  · exact ⟨by decide, by decide, hn, rfl, rfl⟩
  · exact (sampleEvents_brief (.attemptIssued sampleAttempt) (by simp [sampleEvents])).fits (sample_ample n)
  · exact .inr (show (3 : UInt64) < 8192 by decide)

theorem sample_issues (hn : 1 ≤ n) : (Process.up (sampleEngine n 4)).step (.call (.dispatch samplePlan) {}) =
    (Status.ok, .up (sampleEngine n 5)) := by
  simp only [Process.step, Engine.call, sample_dispatches n hn]
  rfl

end Steps

theorem sample_boots_default : Process.step (.down {} {}) (.boot {} {} FixedBytes.zero {}) =
    (Status.ok, .up (sampleEngine 16 2)) := sample_boots 16

theorem sampleStart_eq : sampleStart = .up (sampleEngine 16 2) := by
  rw [sampleStart, Process.after, sample_boots_default]

theorem sampleIntended_eq : sampleIntended = .up (sampleEngine 16 3) := by
  rw [sampleIntended, sampleStart_eq]
  rw [Process.after, sample_intends]

theorem sampleObserved_eq : sampleObserved = .up (sampleEngine 16 4) := by
  rw [sampleObserved, sampleIntended_eq]
  rw [Process.after, sample_observes]

theorem sampleFlight_eq : sampleFlight = .up (sampleEngine 16 5) := by
  rw [sampleFlight, sampleObserved_eq]
  rw [Process.after, sample_issues 16 (by decide)]

/-- Every step of the sample returns OK. -/
theorem sample_oks : (Process.step (.down {} {}) (.boot {} {} FixedBytes.zero {})).1.code = .ok ∧
    (sampleStart.step (.call (.commitIntent sampleIntent) {})).1.code = .ok ∧
    (sampleIntended.step (.call (.recordObservationAt (sampleReport 1) 1) {})).1.code = .ok ∧
    (sampleObserved.step (.call (.dispatch samplePlan) {})).1.code = .ok := by
  refine ⟨?_, ?_, ?_, ?_⟩
  · rw [sample_boots_default]
    rfl
  · rw [sampleStart_eq, sample_intends]
    rfl
  · rw [sampleIntended_eq, sample_observes]
    rfl
  · rw [sampleObserved_eq, sample_issues 16 (by decide)]
    rfl

/-- The attempt is in flight, and the fence of its scope is accepted. -/
theorem sample_fenced : (sampleFlight.step (.call (.putFence (sampleFence ⟨[], .inl rfl⟩ 5)) {})).1.code = .ok ∧
    (sampleFlight.state.attempts.find? 1).any (fun a => a.state = .dispatched &&
      (sampleFence ⟨[], .inl rfl⟩ 5).covers a.scope a.subject a.epoch) = true ∧
    fenceHoldsFor (sampleFlight.after (.call (.putFence (sampleFence ⟨[], .inl rfl⟩ 5)) {})).state sampleScope
      sampleSubject 1 = true := by
  rw [sampleFlight_eq]
  decide +kernel

/-- The attempt of the dispatch is no longer in flight once its scope is fenced. -/
theorem fenced_never_in_flight_scope :
    let f := sampleFence ⟨[], .inl rfl⟩ 5
    let p := sampleFlight.after (.call (.putFence f) {})
    (sampleFlight.state.attempts.find? 1).any
        (fun a => a.state = .dispatched && f.covers a.scope a.subject a.epoch) = true ∧
      fenceHoldsFor p.state sampleScope sampleSubject 1 = true ∧ Guarded p.state := by
  intro f p
  obtain ⟨hboot, hintent, hreport, hdispatch⟩ := sample_oks
  obtain ⟨hfence, hflight, hholds⟩ := sample_fenced
  rw [show sampleFence ⟨[], .inl rfl⟩ 5 = f from rfl] at hfence hflight hholds
  have hstart : Later {} (fun p a => p.Orderly a ∧ p.Succeeds a) (.down {} {}) sampleStart := by
    rw [sampleStart]
    exact origin_boots rfl {} FixedBytes.zero {} hboot
  have hintended : Later {} (fun p a => p.Orderly a ∧ p.Succeeds a) (.down {} {}) sampleIntended := by
    rw [sampleIntended]
    exact @Origin.completes {} _ sampleStart .empty hstart (.call (.commitIntent sampleIntent) {}) (.inl rfl)
      (by simp) hintent
  have hobserved : Later {} (fun p a => p.Orderly a ∧ p.Succeeds a) (.down {} {}) sampleObserved := by
    rw [sampleObserved]
    exact @Origin.completes {} _ sampleIntended .empty hintended (.call (.recordObservationAt (sampleReport 1) 1) {})
      (.inl rfl) (by simp) hreport
  have hflying : Later {} (fun p a => p.Orderly a ∧ p.Succeeds a) (.down {} {}) sampleFlight := by
    rw [sampleFlight]
    exact @Origin.completes {} _ sampleObserved .empty hobserved (.call (.dispatch samplePlan) {}) (.inl rfl)
      (by simp) hdispatch
  have hfenced : Later {} (fun p a => p.Orderly a ∧ p.Succeeds a) (.down {} {}) p :=
    @Origin.completes {} _ sampleFlight .empty hflying (.call (.putFence f) {}) (.inl rfl) (by simp) hfence
  exact ⟨hflight, hholds, (fenced_never_in_flight .empty hfenced).1⟩

end Runs

end FabricReconciliation
