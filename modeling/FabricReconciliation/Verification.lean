import FabricReconciliation.Causality

/-!
# Which attempt `Verify` reaches (`engine.cpp:1008-1121`)

A key belongs to every attempt ever issued for it: `Dispatch` issues a new one once the last has ended.
`Verify` takes the first attempt with the key, in the order of the identities, and asks afterwards whether
it is applied and of this incarnation.

* **`verify_reaches_iff`** — with evidence that supports an applied attempt, `Verify` settles it exactly
  when no attempt with a smaller identity is retained under its key;
* **`retry_out_of_reach`** — after a failed attempt the next one under the key is never reached.
-/

namespace FabricReconciliation

open Lib

/-- All that `Verify` asks of evidence about an attempt, short of whether the key leads to it. -/
structure Supports (e : Engine) (env : CallEnv) (v : VerificationEvidence) (a : AttemptRecord) : Prop where
  stored : e.store.state.attempts.find? a.id = some a
  key : a.idempotencyKey = v.idempotencyKey
  names : a.scope = v.scope ∧ a.subject = v.subject
  live : a.epoch = e.live.epoch ∧ a.boot = e.live.boot
  applied : a.state = .applied
  independent : e.store.state.policy.requireIndependentVerification = true → v.verifier ≠ v.applier
  epoch : v.receivedEpoch = e.live.epoch
  newer : a.authority.observationGeneration < v.generation
  cited : ∃ d, Engine.citedObservation e.store.state v = some d ∧
    evaluateFreshness d e.store.state.policy.freshness e.live.epoch env.now = .fresh

/-- Where the evidence takes an attempt. -/
def VerificationEvidence.target (v : VerificationEvidence) : AttemptState :=
  if v.confirmsEffect then .verified else .failed

/-- `Verify` returned OK and moved the attempt. -/
structure Reaches (e : Engine) (env : CallEnv) (v : VerificationEvidence) (a : AttemptRecord) : Prop where
  ok : (e.verify env v).1.code = .ok
  outcome : ∃ o, (e.verify env v).2.1 = some o ∧ o.attempt = a.id ∧ o.terminalState = v.target
  moved : ∃ a', a'.id = a.id ∧ a'.state = v.target ∧
    (e.verify env v).2.2.store.state.attempts = (applyAttempt e.store.limits a' e.store.state).attempts

section Verify

variable {limits : RuntimeLimits} {e : Engine} {env : CallEnv} {v : VerificationEvidence} {a : AttemptRecord}

/-- The attempt that the key leads to is the one with the least identity. -/
theorem first_by_key_iff (h : TablesOk limits e.store.state) (hstored : e.store.state.attempts.find? a.id = some a)
    (hkey : a.idempotencyKey = v.idempotencyKey) :
    e.store.state.attempts.values.find? (fun b => b.idempotencyKey = v.idempotencyKey) = some a ↔
      ∀ k b, e.store.state.attempts.find? k = some b → b.idempotencyKey = a.idempotencyKey → a.id ≤ k := by
  have hid : ∀ {k b}, e.store.state.attempts.find? k = some b → b.id = k := fun hb =>
    (h.attempts (_, _) (OrdMap.find?_eq_some_iff.mp hb)).2
  simp only [OrdMap.find?_values_eq_some_iff, decide_eq_true_eq]
  constructor
  · rintro ⟨k, hk, -, hleast⟩ j b hb hsame
    rw [hid hk]
    exact hleast j b hb (hsame.trans hkey)
  · intro hleast
    exact ⟨a.id, hstored, hkey, fun j b hb hsame => hleast j b hb (hsame.trans hkey.symm)⟩

theorem Verifiable.supports (h : Verifiable e env v a) (hstored : e.store.state.attempts.find? a.id = some a)
    (hkey : a.idempotencyKey = v.idempotencyKey) : Supports e env v a :=
  ⟨hstored, hkey, h.names, h.live, h.applied, h.independent, h.epoch, h.newer, h.cited⟩

theorem Supports.verifiable (h : Supports e env v a) (hmode : e.store.readOnly = false)
    (hfound : e.store.state.attempts.values.find? (fun b => b.idempotencyKey = v.idempotencyKey) = some a) :
    Verifiable e env v a :=
  ⟨hmode, hfound, h.names, h.live, h.applied, h.independent, h.epoch, h.newer, h.cited⟩

/-- The outcome of a verification is about the attempt that was admitted. -/
theorem Reaches.admitted (h : Reaches e env v a) : ∃ b, e.admitVerification env v = .ok b ∧ b.id = a.id := by
  obtain ⟨o, ho, hattempt, -⟩ := h.outcome
  unfold Engine.verify at ho
  cases hgate : e.admitVerification env v with
  | error status => simp [hgate] at ho
  | ok b =>
    refine ⟨b, rfl, ?_⟩
    simp only [hgate] at ho
    split at ho
    · simp at ho
    · rw [Option.some.injEq] at ho
      rw [← hattempt, ← ho]
      rfl

/-- The outcome of a verification. -/
def verified (limits : RuntimeLimits) (e : Engine) (env : CallEnv) (v : VerificationEvidence) (a : AttemptRecord) :
    ReconciliationOutcome :=
  { makeOutcome (a.move limits (e.verification env v a)) (e.verification env v a).target
      (e.verification env v a).reason (!v.confirmsEffect) (e.verification env v a).atUnixMs with
    verifiedGeneration := v.generation }

/-- An admitted verification whose appends succeed settles its attempt. -/
theorem Verifiable.reaches (hcons : Consistent limits e) (hsane : Sane limits e.store.state)
    (h : Verifiable e env v a) (hsucceeds : (Process.up e).Succeeds (.call (.verify v) env)) : Reaches e env v a := by
  have hsettles : Settles limits e.live (some (.verify v)) e.store.state a (a.move limits (e.verification env v a))
    (verified limits e env v a) := verification_settles hcons h
  have hverify : e.verify env v =
      let done := (e.under env).store.settle (a.move limits (e.verification env v a)) (verified limits e env v a)
      if done.1.code ≠ .ok then (done.1, none, e.withStore done.2)
      else (Status.ok, some (verified limits e env v a), (e.withStore done.2).maybeCompact env) := by
    unfold Engine.verify
    rw [h.admitted, hcons.options]
    rfl
  -- the appends of the call are those of the two commits: a compaction behind them appends nothing
  have hlog : (e.verify env v).2.2.store.directory.log = ((e.under env).store.settle
      (a.move limits (e.verification env v a)) (verified limits e env v a)).2.directory.log := by
    rw [hverify]
    simp only
    split
    · rfl
    · exact (maybeCompact_state _ env).2
  have hok := @settle_acknowledged limits e.live (some (.verify v)) (e.under env).store a _ _ h.writable hcons.store
    hsane hsettles (by
      intro x hx
      rw [← hlog] at hx
      exact hsucceeds x hx)
  obtain ⟨-, -, q, hq⟩ := settle_ok hok
  simp only [hok, ne_eq, not_true_eq_false, if_false] at hverify
  rw [show (e.under env).store.limits = limits from hcons.store] at hq
  refine ⟨by rw [hverify]; rfl, ⟨_, by rw [hverify], rfl, rfl⟩, a.move limits (e.verification env v a), rfl, rfl, ?_⟩
  rw [hverify, hcons.store]
  refine (tables_eq_iff.mp (maybeCompact_state _ env).1).2.2.2.2.2.2.2.1.trans ?_
  show ((e.under env).store.settle _ _).2.state.attempts = _
  rw [hq]
  rfl

/-- **`verify_reaches_iff`**: with evidence that meets every condition for an applied attempt of this
incarnation, and with no append that fails, the attempt is reached exactly when it is the first one
retained under its key. -/
theorem verify_reaches_iff (hrun : Run limits Process.Orderly (.up e)) (hsupports : Supports e env v a)
    (hmode : e.store.readOnly = false) (hsucceeds : (Process.up e).Succeeds (.call (.verify v) env)) :
    Reaches e env v a ↔
      ∀ k b, e.store.state.attempts.find? k = some b → b.idempotencyKey = a.idempotencyKey → a.id ≤ k := by
  obtain ⟨w, hkept, hgood⟩ := run_good (fun _ _ h => h) hrun
  have hcons := hkept.consistent
  have hsane : Sane limits e.store.state := by
    have hmemory : w.memory = e.store.state.tables := hkept.tables
    refine ⟨hcons.tables, ?_⟩
    have hslim := hgood.sane.slim
    rw [hmemory] at hslim
    exact hslim
  rw [← first_by_key_iff hcons.tables hsupports.stored hsupports.key]
  constructor
  · intro hreaches
    obtain ⟨b, hgate, hid⟩ := hreaches.admitted
    have hfound := (admitVerification_ok hgate).found
    have hb := find?_of_mem_values hcons.tables (List.mem_of_find?_eq_some hfound)
    rw [hid, hsupports.stored, Option.some.injEq] at hb
    rw [hfound, hb]
  · intro hfound
    exact (hsupports.verifiable hmode hfound).reaches hcons hsane hsucceeds

end Verify

instance (e : Engine) (env : CallEnv) (v : VerificationEvidence) (a : AttemptRecord) :
    Decidable (Supports e env v a) :=
  decidable_of_iff
    (e.store.state.attempts.find? a.id = some a ∧ a.idempotencyKey = v.idempotencyKey ∧
      (a.scope = v.scope ∧ a.subject = v.subject) ∧ (a.epoch = e.live.epoch ∧ a.boot = e.live.boot) ∧
      a.state = .applied ∧
      (e.store.state.policy.requireIndependentVerification = true → v.verifier ≠ v.applier) ∧
      v.receivedEpoch = e.live.epoch ∧ a.authority.observationGeneration < v.generation ∧
      (Engine.citedObservation e.store.state v).any (fun d =>
        evaluateFreshness d e.store.state.policy.freshness e.live.epoch env.now = .fresh) = true)
    ⟨fun ⟨hstored, hkey, hnames, hlive, happlied, hindependent, hepoch, hnewer, hcited⟩ =>
        ⟨hstored, hkey, hnames, hlive, happlied, hindependent, hepoch, hnewer, by
          obtain ⟨d, hd, hfresh⟩ := (Option.any_eq_true _ _).mp hcited
          exact ⟨d, hd, of_decide_eq_true hfresh⟩⟩,
      fun h => ⟨h.stored, h.key, h.names, h.live, h.applied, h.independent, h.epoch, h.newer, by
        obtain ⟨d, hd, hfresh⟩ := h.cited
        simp [hd, hfresh]⟩⟩

/-- A step under the limits that is not denied the journal behind a compaction. -/
def Step.plain (limits : RuntimeLimits) : Step → Bool
  | .boot options _ _ _ => options.limits = limits
  | .call _ env => env.io.reopened
  | .exit => true

theorem run_plain {limits : RuntimeLimits} {steps : List Step} (h : steps.all (Step.plain limits) = true) :
    Run limits Process.Orderly (played steps) := by
  rw [List.all_eq_true] at h
  refine run_played (fun options opening id env hmem => by simpa [Step.plain] using h _ hmem) ?_
  intro p a ha
  have hplain := h a ha
  cases a with
  | call operation env => exact .inl hplain
  | boot options opening id env => trivial
  | exit => trivial

/-- The applied attempt of the sample run is the only one under its key and is verified. -/
theorem verify_reaches_iff_first : ∃ plan e a, played (verifiableSteps plan) = .up e ∧
    Reaches e { now := 2 } (sampleVerification plan) a := by
  obtain ⟨plan, d, h⟩ := sample_planned
  have hsupports : Supports (verifiableEngine d) { now := 2 } (sampleVerification plan) (appliedAttempt d) :=
    h.admits.supports rfl h.key.symm
  have hrun : Run {} Process.Orderly (.up (verifiableEngine d)) := h.verifiable ▸ run_plain rfl
  have hok : ((verifiableEngine d).call { now := 2 } (.verify (sampleVerification plan))).1.code = .ok := by
    rw [Engine.call, h.verifies]
    rfl
  refine ⟨plan, verifiableEngine d, appliedAttempt d, h.verifiable,
    (verify_reaches_iff hrun hsupports rfl (call_extends _ hok).2).mpr ?_⟩
  intro k b hb _
  have hentries : (verifiableEngine d).store.state.attempts.entries = [(1, appliedAttempt d)] := rfl
  have hmem := OrdMap.find?_eq_some_iff.mp hb
  rw [hentries, List.mem_singleton, Prod.mk.injEq] at hmem
  rw [hmem.1]
  exact le_refl _

/-- The first attempt fails, the second one under the key is applied, and another reporter looks. -/
def retriedSteps (plan : ReconciliationPlan) : List Step :=
  observingSteps ++ [.call (.dispatch plan) {},
    .call (.complete ⟨1, 1, FixedBytes.zero, firstKey plan, .failed, 1, .none⟩) {},
    .call (.dispatch plan) {},
    .call (.complete ⟨2, 1, FixedBytes.zero, firstKey plan, .applied, 1, .none⟩) {},
    .call (.recordObservationAt secondReport 2) {}]

theorem retried_played (plan : ReconciliationPlan) : played (retriedSteps plan) =
    (((((Process.up (sampleEngine 16 4)).after (.call (.dispatch plan) {})).after
      (.call (.complete ⟨1, 1, FixedBytes.zero, firstKey plan, .failed, 1, .none⟩) {})).after
        (.call (.dispatch plan) {})).after
          (.call (.complete ⟨2, 1, FixedBytes.zero, firstKey plan, .applied, 1, .none⟩) {})).after
            (.call (.recordObservationAt secondReport 2) {}) := by
  rw [retriedSteps, played_append, observing_played]
  rw [Process.play_cons, Process.play_cons, Process.play_cons, Process.play_cons, Process.play_cons, Process.play_nil]

/-- The first attempt once its action has failed, and its outcome. -/
def failedAttempt (d : Decision) : AttemptRecord :=
  (plannedAttempt d 0).move {} ⟨.dispatched, .failed, 1, FixedBytes.zero, 1, .attemptFailed, .none⟩

def failedOutcome (d : Decision) : ReconciliationOutcome := makeOutcome (failedAttempt d) .failed .attemptFailed true 1

/-- The second attempt, and what becomes of it. -/
def secondAttempt (d : Decision) : AttemptRecord := Engine.newAttempt ⟨1, FixedBytes.zero⟩ 0 2 d

def secondApplied (d : Decision) : AttemptRecord :=
  (secondAttempt d).move {} ⟨.dispatched, .applied, 1, FixedBytes.zero, 1, .attemptApplied, .none⟩

/-- What `retriedSteps` records, up to the second dispatch. -/
def failedEvents (d : Decision) : List Event :=
  [.attemptIssued (plannedAttempt d 0), .attemptTransition (failedAttempt d), .outcomeCommit (failedOutcome d)]

theorem SamplePlanned.fails {plan : ReconciliationPlan} {d : Decision} (h : SamplePlanned plan d) :
    (Process.up (sampleWith [.attemptIssued (plannedAttempt d 0)])).step
        (.call (.complete ⟨1, 1, FixedBytes.zero, firstKey plan, .failed, 1, .none⟩) {}) =
      (Status.ok, .up (sampleWith (failedEvents d))) := by
  have hallowed : (sampleWith [.attemptIssued (plannedAttempt d 0)]).admitCompletion
      ⟨1, 1, FixedBytes.zero, firstKey plan, .failed, 1, .none⟩ = .ok (plannedAttempt d 0) :=
    admitCompletion_ok.mpr ⟨rfl, rfl, h.key.symm, ⟨rfl, rfl⟩, ⟨rfl, rfl⟩, rfl⟩
  have hok : AttemptOk {} (failedAttempt d) :=
    h.record_ok (show (1 : UInt64) ≠ 0 by decide) (show AttemptState.failed ≠ .invalid by decide)
      (show 2 ≤ 4 by decide) rfl rfl
  have hfits : (Event.attemptTransition (failedAttempt d)).Fits {} :=
    (brief_transition (a := failedAttempt d) (show 2 ≤ 4 by decide)).fits (sample_ample 16)
  exact complete_ends_recorded rfl hallowed rfl rfl rfl rfl hok hfits ⟨hok.scope, hok.subject⟩
    ((brief_outcome (failedOutcome d)).fits (sample_ample 16)) (sampleWith_undue (n := 3) rfl (by decide))

theorem SamplePlanned.dispatched_again {plan : ReconciliationPlan} {d : Decision} (h : SamplePlanned plan d) :
    (Process.up (sampleWith (failedEvents d))).step (.call (.dispatch plan) {}) =
      (Status.ok, .up (sampleWith (failedEvents d ++ [.attemptIssued (secondAttempt d)]))) := by
  have hopen : fenceHoldsFor (sampleWith (failedEvents d)).store.state d.scope d.subject 1 = false := rfl
  have hnew : Engine.reusable (sampleWith (failedEvents d)).store.state 1 d.idempotencyKey = none := by
    have hvalues : (sampleWith (failedEvents d)).store.state.attempts.values = [failedAttempt d] := rfl
    have hterminal : (failedAttempt d).state.isTerminal = true := rfl
    rw [Engine.reusable, hvalues]
    simp [hterminal]
  have hdone : (sampleWith (failedEvents d)).dispatch {} plan = _ := dispatch_recorded rfl (h.admitted_with rfl)
    h.decisions h.disposition hopen hnew rfl (h.attempt_ok 0 2) (newAttempt_fits 0 2 d)
    (sampleWith_undue (n := 4) rfl (by decide))
  simp only [Process.step, Engine.call, hdone]
  rfl

/-- What `retriedSteps` records. -/
def retriedEvents (d : Decision) : List Event :=
  failedEvents d ++ [.attemptIssued (secondAttempt d), .attemptTransition (secondApplied d)]

theorem SamplePlanned.completes_again {plan : ReconciliationPlan} {d : Decision} (h : SamplePlanned plan d) :
    (Process.up (sampleWith (failedEvents d ++ [.attemptIssued (secondAttempt d)]))).step
        (.call (.complete ⟨2, 1, FixedBytes.zero, firstKey plan, .applied, 1, .none⟩) {}) =
      (Status.ok, .up (sampleWith (retriedEvents d))) := by
  have hallowed : (sampleWith (failedEvents d ++ [.attemptIssued (secondAttempt d)])).admitCompletion
      ⟨2, 1, FixedBytes.zero, firstKey plan, .applied, 1, .none⟩ = .ok (secondAttempt d) :=
    admitCompletion_ok.mpr ⟨rfl, rfl, h.key.symm, ⟨rfl, rfl⟩, ⟨rfl, rfl⟩, rfl⟩
  have hok : AttemptOk {} (secondApplied d) :=
    h.record_ok (show (2 : UInt64) ≠ 0 by decide) (show AttemptState.applied ≠ .invalid by decide)
      (show 2 ≤ 4 by decide) rfl rfl
  have hfits : (Event.attemptTransition (secondApplied d)).Fits {} :=
    (brief_transition (a := secondApplied d) (show 2 ≤ 4 by decide)).fits (sample_ample 16)
  exact complete_moves_recorded rfl hallowed rfl rfl hok hfits (sampleWith_undue (n := 5) rfl (by decide))

/-- The attempts after one more record of one. -/
theorem sampleWith_attempt (es : List Event) {e : Event} {a : AttemptRecord}
    (he : e = .attemptIssued a ∨ e = .attemptTransition a) : (sampleWith (es ++ [e])).store.state.attempts =
      (applyAttempt {} a (sampleWith es).store.state).attempts := by
  show (tablesAfter {} FixedBytes.zero (sampleEvents.take 4 ++ (es ++ [e]))).attempts = _
  rw [← List.append_assoc, tablesAfter, List.foldl_append]
  rcases he with rfl | rfl
  · rfl
  · rfl

theorem sampleWith_observed (es : List Event) (o : ObservationDocument) :
    (sampleWith (es ++ [.observationCommit o])).store.state.attempts = (sampleWith es).store.state.attempts := by
  show (tablesAfter {} FixedBytes.zero (sampleEvents.take 4 ++ (es ++ [.observationCommit o]))).attempts = _
  rw [← List.append_assoc, tablesAfter, List.foldl_append]
  rfl

/-- The engine after `retriedSteps`. -/
def retriedEngine (d : Decision) : Engine :=
  sampleWith (retriedEvents d ++ [.observationCommit (secondReport.document 1 2)])

theorem SamplePlanned.retried {plan : ReconciliationPlan} {d : Decision} (h : SamplePlanned plan d) :
    played (retriedSteps plan) = .up (retriedEngine d) := by
  rw [retried_played, h.after_dispatch, Process.after, Process.after, Process.after, Process.after, h.fails,
    h.dispatched_again, h.completes_again, sampleWith_seen (n := 6) rfl rfl (by decide)]
  rfl

/-- The failed attempt comes before the applied one. -/
theorem retried_table (d : Decision) : (retriedEngine d).store.state.attempts =
    (OrdMap.empty.insert 1 (failedAttempt d)).insert 2 (secondApplied d) := by
  have hissued : ∀ s : DurableState, s.attempts = OrdMap.empty.insert 1 (failedAttempt d) →
      (applyAttempt {} (secondAttempt d) s).attempts =
        (OrdMap.empty.insert 1 (failedAttempt d)).insert 2 (secondAttempt d) := by
    intro s hs
    rw [applyAttempt, hs]
    rfl
  have hmoved : ∀ s : DurableState,
      s.attempts = (OrdMap.empty.insert 1 (failedAttempt d)).insert 2 (secondAttempt d) →
      (applyAttempt {} (secondApplied d) s).attempts =
        (OrdMap.empty.insert 1 (failedAttempt d)).insert 2 (secondApplied d) := by
    intro s hs
    rw [applyAttempt, hs]
    rfl
  have hsplit : retriedEvents d =
      (failedEvents d ++ [.attemptIssued (secondAttempt d)]) ++ [.attemptTransition (secondApplied d)] := rfl
  rw [retriedEngine, sampleWith_observed, hsplit, sampleWith_attempt _ (.inr rfl)]
  apply hmoved
  rw [sampleWith_attempt _ (.inl rfl)]
  exact hissued _ rfl

/-- The evidence supports the second attempt; the key leads to the first. -/
theorem SamplePlanned.retried_supports {plan : ReconciliationPlan} {d : Decision} (h : SamplePlanned plan d) :
    Supports (retriedEngine d) { now := 2 } (sampleVerification plan) (secondApplied d) := by
  have hnewer : (secondApplied d).authority.observationGeneration < (sampleVerification plan).generation := by
    show d.authority.observationGeneration < 2
    rw [h.generation]
    decide
  have hother : secondReport.reporter ≠ (sampleReport 1).reporter := by decide
  have hfresh : evaluateFreshness (secondReport.document 1 2).withKeyIds defaultPolicy.freshness 1 2 = .fresh := by decide
  have hstored : (retriedEngine d).store.state.attempts.find? (secondApplied d).id = some (secondApplied d) := by
    rw [retried_table]
    rfl
  exact ⟨hstored, h.key.symm, ⟨h.scope, h.subject⟩, ⟨rfl, rfl⟩, rfl, fun _ => hother, rfl, hnewer, _,
    @sampleWith_cited (retriedEvents d) rfl plan, hfresh⟩

theorem SamplePlanned.retried_refused {plan : ReconciliationPlan} {d : Decision} (h : SamplePlanned plan d) :
    ∃ status, (retriedEngine d).admitVerification { now := 2 } (sampleVerification plan) = .error status ∧
      status.code ≠ .ok := by
  have hvalues : (retriedEngine d).store.state.attempts.values = [failedAttempt d, secondApplied d] := by
    rw [retried_table]
    rfl
  have hfound : ((retriedEngine d).store.state.attempts.values.find? fun x =>
      x.idempotencyKey = (sampleVerification plan).idempotencyKey) = some (failedAttempt d) := by
    rw [hvalues, List.find?_cons_of_pos (by
      rw [decide_eq_true_eq]
      exact h.key.symm)]
  have hnames : ¬((failedAttempt d).scope ≠ (sampleVerification plan).scope ∨
      (failedAttempt d).subject ≠ (sampleVerification plan).subject) := by
    rw [not_or, not_not, not_not]
    exact ⟨h.scope, h.subject⟩
  have hlive : ¬((failedAttempt d).epoch ≠ (retriedEngine d).live.epoch ∨
      (failedAttempt d).boot ≠ (retriedEngine d).live.boot) := by
    rw [not_or, not_not, not_not]
    exact ⟨rfl, rfl⟩
  have hfailed : (failedAttempt d).state ≠ .applied := by
    show AttemptState.failed ≠ .applied
    decide
  unfold Engine.admitVerification
  simp only [hfound]
  rw [if_neg (by simp [retriedEngine, sampleWith, Engine.on, recorded]), if_neg hnames, if_neg hlive, if_pos hfailed]
  exact ⟨_, rfl, by simp⟩

/-- **`retry_out_of_reach`**: `Verify` looks at the failed attempt and refuses the evidence for the applied one. -/
theorem retry_out_of_reach : ∃ plan e a, Genuine plan ∧ Run {} Process.Orderly (.up e) ∧
    Supports e { now := 2 } (sampleVerification plan) a ∧ e.store.readOnly = false ∧
    (Process.up e).Succeeds (.call (.verify (sampleVerification plan)) { now := 2 }) ∧
    ¬Reaches e { now := 2 } (sampleVerification plan) a := by
  obtain ⟨plan, d, h⟩ := sample_planned
  obtain ⟨status, hrefused, hcode⟩ := h.retried_refused
  have hverify : (retriedEngine d).verify { now := 2 } (sampleVerification plan) = (status, none, retriedEngine d) := by
    unfold Engine.verify
    rw [hrefused]
  have hsucceeds : (Process.up (retriedEngine d)).Succeeds (.call (.verify (sampleVerification plan)) { now := 2 }) := by
    intro x hx
    have hstep : (Process.up (retriedEngine d)).step (.call (.verify (sampleVerification plan)) { now := 2 }) =
        (status, .up (retriedEngine d)) := by
      simp only [Process.step, Engine.call, hverify]
    rw [Process.appends, hstep, List.drop_length] at hx
    simp at hx
  refine ⟨plan, retriedEngine d, secondApplied d, ⟨_, _, _, h.made⟩, h.retried ▸ run_plain rfl, h.retried_supports, rfl,
    hsucceeds, ?_⟩
  intro hreaches
  apply hcode
  have hok := hreaches.ok
  rw [hverify] at hok
  exact hok

end FabricReconciliation
