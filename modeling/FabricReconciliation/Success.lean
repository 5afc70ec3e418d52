import FabricReconciliation.Histories

/-!
# Calls whose appends succeed

The journal's answer decides the answer of a commit once the record is encodable and acceptable, and the
records that end an attempt always are.

* **`commit_acknowledged`**, **`settle_acknowledged`**, **`settleAll_acknowledged`** — where no append
  fails, neither does the commit, the end of an attempt, or the loop over all attempts to end;
* **`step_succeeds`** — in a step that returns OK no append fails.
-/

namespace FabricReconciliation

open Lib

/-- Every append that leads from `s` to `t` succeeded. -/
def Acknowledged (s t : DurableStore) : Prop :=
  ∀ x ∈ t.directory.log.drop s.directory.log.length, x.acknowledged = true

/-- Every append of the step succeeded. -/
def Process.Succeeds (p : Process) (a : Step) : Prop := ∀ x ∈ p.appends a, x.acknowledged = true

theorem Process.Succeeds.told {p : Process} {a : Step} (h : p.Succeeds a) : p.Told a := fun x hx _ => h x hx

theorem maybeCompact_state (e : Engine) (env : CallEnv) :
    (e.maybeCompact env).store.state.tables = e.store.state.tables ∧
      (e.maybeCompact env).store.directory.log = e.store.directory.log := by
  obtain ⟨q, n, hstate⟩ := compact_state e.store env.io env.snapshotNow env.headerNow
  have hlog := compact_log e.store env.io env.snapshotNow env.headerNow
  have htables : (e.store.compact env.io env.snapshotNow env.headerNow).2.state.tables = e.store.state.tables := by
    rw [hstate]
    rfl
  unfold Engine.maybeCompact
  split
  · exact ⟨rfl, rfl⟩
  split
  · exact ⟨rfl, rfl⟩
  simp only
  split
  · exact ⟨htables, hlog⟩
  · exact ⟨htables, hlog⟩

section Stores

variable {limits : RuntimeLimits} {live : Incarnation} {cause : Option Operation} {s t u : DurableStore}

theorem Acknowledged.split (h : Acknowledged s u) (hst : s.directory.log <+: t.directory.log)
    (htu : t.directory.log <+: u.directory.log) : Acknowledged s t ∧ Acknowledged t u := by
  refine ⟨fun x hx => h x ((List.IsPrefix.drop htu _).subset hx), fun x hx => h x ?_⟩
  have hlen := hst.length_le
  rw [show t.directory.log.length = s.directory.log.length + (t.directory.log.length - s.directory.log.length) by
    omega, ← List.drop_drop] at hx
  exact List.drop_subset _ _ hx

/-- **`commit_acknowledged`**. -/
theorem commit_acknowledged {what : String} {e : Event} (hmode : s.readOnly = false) (hp : e.payload ≠ [])
    (hok : e.Ok s.limits) (h : Acknowledged s (s.commit what e).2) : (s.commit what e).1.code = .ok := by
  unfold DurableStore.commit at h ⊢
  rw [if_neg (by simp [hmode]), if_neg hp] at h ⊢
  rcases happ : s.journal.append e.type e.payload (s.faults.headD .ok) (s.directory.journal.getD []) with
    ⟨status, j, file⟩
  rw [appendAndApply_eq s e.type e.payload happ] at h ⊢
  have hlogged : ∀ {r : Status × DurableStore}, r.2.directory = s.appended e.type e.payload status file →
      Acknowledged s r.2 → status.code = .ok := by
    intro r hdir hack
    have hlast := hack ⟨e.type, e.payload, _, decide (status.code = .ok)⟩ (by
      rw [hdir]
      simp only [DurableStore.appended, List.drop_left, List.mem_singleton]
      rfl)
    simpa using hlast
  by_cases hs : status.code ≠ .ok
  · rw [if_pos hs] at h
    exact absurd (hlogged rfl h) hs
  · rw [if_neg hs, applyPayload_event { s.state with sequence := j.lastSequence } hok hp]
    rfl

@[simp] theorem settle_readOnly (s : DurableStore) (a : AttemptRecord) (o : ReconciliationOutcome) :
    (s.settle a o).2.readOnly = s.readOnly := by
  unfold DurableStore.settle DurableStore.transitionAttempt DurableStore.commitOutcome
  by_cases hs : (s.commit "attempt" (.attemptTransition a)).1.code ≠ .ok
  · simp only [if_pos hs, commit_readOnly]
  · simp only [if_neg hs, commit_readOnly]

/-- **`settle_acknowledged`**. -/
theorem settle_acknowledged {a a' : AttemptRecord} {o : ReconciliationOutcome} (hmode : s.readOnly = false)
    (hlim : s.limits = limits) (hsane : Sane limits s.state) (hs : Settles limits live cause s.state a a' o)
    (h : Acknowledged s (s.settle a' o).2) : (s.settle a' o).1.code = .ok := by
  obtain ⟨hattempt, hok, houtcome, -⟩ := hs.fits hsane.slim hsane.tables
  unfold DurableStore.settle at h ⊢
  by_cases hcode : (s.transitionAttempt a').1.code ≠ .ok
  · simp only [if_pos hcode] at h
    exact absurd (commit_acknowledged hmode hattempt (by rw [hlim]; exact hok) h) hcode
  · simp only [if_neg hcode] at h ⊢
    obtain ⟨-, hsecond⟩ := h.split (commit_log s "attempt" (.attemptTransition a'))
      (commit_log (s.transitionAttempt a').2 "outcome" (.outcomeCommit o))
    have hmode' : (s.transitionAttempt a').2.readOnly = false := (commit_readOnly s _ _).trans hmode
    exact commit_acknowledged hmode' houtcome hs.ok hsecond

theorem settleAll_log (ending : AttemptRecord → AttemptRecord × ReconciliationOutcome) (victims : List AttemptRecord)
    (s : DurableStore) : s.directory.log <+: (s.settleAll ending victims).2.directory.log := by
  induction victims generalizing s with
  | nil => exact List.prefix_rfl
  | cons a rest ih =>
    unfold DurableStore.settleAll
    simp only
    split
    · exact settle_log s _ _
    · exact (settle_log s _ _).trans (ih _)

theorem Sane.settle {st : DurableState} {a a' : AttemptRecord} {o : ReconciliationOutcome} (h : Sane limits st)
    (hs : Settles limits live cause st a a' o) (q : RecordSequence) :
    Sane limits { applyOutcome limits o (applyAttempt limits a' st) with sequence := q } := by
  obtain ⟨-, hok, -, -⟩ := hs.fits h.slim h.tables
  have hfirst : Sane limits (applyEvent limits st (.attemptTransition a')) := h.write hs.writes.1 hok
  have hsecond : Sane limits (applyEvent limits (applyEvent limits st (.attemptTransition a')) (.outcomeCommit o)) :=
    hfirst.write (hs.writes.2 _) hs.ok
  exact ⟨{ hsecond.tables with }, hsecond.slim⟩

/-- **`settleAll_acknowledged`**. -/
theorem settleAll_acknowledged {ending : AttemptRecord → AttemptRecord × ReconciliationOutcome}
    (hid : ∀ a, (ending a).1.id = a.id) {victims : List AttemptRecord} (hmode : s.readOnly = false)
    (hlim : s.limits = limits) (hsane : Sane limits s.state) (hp : Pending s.state victims)
    (hs : ∀ a ∈ victims, ∀ st, st.attempts.find? a.id = some a →
      Settles limits live cause st a (ending a).1 (ending a).2)
    (h : Acknowledged s (s.settleAll ending victims).2) : (s.settleAll ending victims).1.code = .ok := by
  induction victims generalizing s with
  | nil => rfl
  | cons a rest ih =>
    have hfirst := hs a (List.mem_cons_self ..) s.state (hp.stored a (List.mem_cons_self ..))
    unfold DurableStore.settleAll at h ⊢
    by_cases hcode : (s.settle (ending a).1 (ending a).2).1.code ≠ .ok
    · simp only [if_pos hcode] at h
      exact absurd (settle_acknowledged hmode hlim hsane hfirst h) hcode
    · simp only [if_neg hcode] at h ⊢
      push Not at hcode
      obtain ⟨-, hrest⟩ := h.split (settle_log s _ _) (settleAll_log ending rest _)
      obtain ⟨-, -, q, hq⟩ := settle_ok hcode
      rw [hlim] at hq
      refine ih ((settle_readOnly s _ _).trans hmode) ((settle_limits s _ _).trans hlim) ?_ ?_
        (fun b hb => hs b (List.mem_cons_of_mem a hb)) hrest
      · rw [hq]
        exact hsane.settle hfirst q
      · rw [hq]
        exact hp.settle (hid a) _ q

/-! ## Calls that return OK -/

theorem Acknowledged.trans (hst : Acknowledged s t) (htu : Acknowledged t u)
    (hlog : s.directory.log <+: t.directory.log) (hlog' : t.directory.log <+: u.directory.log) : Acknowledged s u := by
  obtain ⟨first, hfirst⟩ := hlog
  obtain ⟨second, hsecond⟩ := hlog'
  intro x hx
  rw [← hsecond, ← hfirst, List.append_assoc, List.drop_left, List.mem_append] at hx
  rcases hx with hx | hx
  · exact hst x (by rw [← hfirst, List.drop_left]; exact hx)
  · exact htu x (by rw [← hsecond, List.drop_left]; exact hx)

/-- Nothing was appended. -/
theorem Acknowledged.of_log (h : t.directory.log = s.directory.log) : Acknowledged s t := by
  intro x hx
  simp [h] at hx

/-- What leads from one store to the next: a longer log, all of it acknowledged. -/
def Extends (s t : DurableStore) : Prop := s.directory.log <+: t.directory.log ∧ Acknowledged s t

theorem Extends.refl (s : DurableStore) : Extends s s := ⟨List.prefix_rfl, .of_log rfl⟩

theorem Extends.trans (h : Extends s t) (h' : Extends t u) : Extends s u :=
  ⟨h.1.trans h'.1, h.2.trans h'.2 h.1 h'.1⟩

theorem Extends.of_log (h : t.directory.log = s.directory.log) : Extends s t := ⟨h ▸ List.prefix_rfl, .of_log h⟩

theorem Extends.commit {what : String} {e : Event} (h : (s.commit what e).1.code = .ok) :
    Extends s (s.commit what e).2 := by
  refine ⟨commit_log s what e, ?_⟩
  unfold DurableStore.commit at h ⊢
  by_cases hro : s.readOnly = true
  · simp [hro, DurableStore.readOnlyStatus] at h
  rw [if_neg hro] at h ⊢
  by_cases hp : e.payload = []
  · simp [hp] at h
  rw [if_neg hp] at h ⊢
  rcases happ : s.journal.append e.type e.payload (s.faults.headD .ok) (s.directory.journal.getD []) with
    ⟨status, j, file⟩
  rw [appendAndApply_eq s e.type e.payload happ] at h ⊢
  by_cases hs : status.code ≠ .ok
  · rw [if_pos hs] at h
    exact absurd h hs
  rw [if_neg hs]
  push Not at hs
  have happended : ∀ x ∈ (s.appended e.type e.payload status file).log.drop s.directory.log.length,
      x.acknowledged = true := by
    intro x hx
    simp only [DurableStore.appended, List.drop_left, List.mem_singleton] at hx
    rw [hx]
    simp [hs]
  split
  · exact happended
  · exact happended

theorem Extends.settle {a : AttemptRecord} {o : ReconciliationOutcome} (h : (s.settle a o).1.code = .ok) :
    Extends s (s.settle a o).2 := by
  unfold DurableStore.settle at h ⊢
  by_cases hs : (s.transitionAttempt a).1.code ≠ .ok
  · simp only [if_pos hs] at h
    exact absurd h hs
  simp only [if_neg hs] at h ⊢
  push Not at hs
  exact (Extends.commit hs).trans (Extends.commit h)

theorem Extends.settleAll {ending : AttemptRecord → AttemptRecord × ReconciliationOutcome}
    {victims : List AttemptRecord} (h : (s.settleAll ending victims).1.code = .ok) :
    Extends s (s.settleAll ending victims).2 := by
  induction victims generalizing s with
  | nil => exact .refl s
  | cons a rest ih =>
    unfold DurableStore.settleAll at h ⊢
    by_cases hs : (s.settle (ending a).1 (ending a).2).1.code ≠ .ok
    · simp only [if_pos hs] at h
      exact absurd h hs
    simp only [if_neg hs] at h ⊢
    push Not at hs
    exact (Extends.settle hs).trans (ih h)

theorem Extends.maybeCompact {e : Engine} (h : Extends s e.store) (env : CallEnv) :
    Extends s (e.maybeCompact env).store := h.trans (.of_log (maybeCompact_state e env).2)

theorem Extends.issueAttempt {a : AttemptRecord} (h : (s.issueAttempt a).1.code = .ok) :
    Extends s (s.issueAttempt a).2 := by
  unfold DurableStore.issueAttempt at h ⊢
  split
  · exact .refl s
  next hro =>
    rw [if_neg hro] at h
    split
    · exact .refl s
    next hid =>
      rw [if_neg hid] at h
      exact .commit h

theorem Extends.dispatchLoop {now : UnixMillis} {intent : IntentDocument} {decisions : List Decision}
    {result final : DispatchResult} (h : (Engine.dispatchLoop live now intent decisions s result).1 = .ok final) :
    Extends s (Engine.dispatchLoop live now intent decisions s result).2 := by
  induction decisions generalizing s result with
  | nil => exact .refl s
  | cons d rest ih =>
    unfold Engine.dispatchLoop at h ⊢
    split
    next hskip =>
      rw [if_pos hskip] at h
      exact ih h
    next hact =>
      rw [if_neg hact] at h
      split
      next hfenced =>
        rw [if_pos hfenced] at h
        exact ih h
      next hfree =>
        rw [if_neg hfree] at h
        cases hreuse : Engine.reusable s.state live.epoch d.idempotencyKey with
        | some existing =>
          simp only [hreuse] at h ⊢
          exact ih h
        | none =>
          simp only [hreuse] at h ⊢
          by_cases hs : (s.issueAttempt (Engine.newAttempt live now s.state.nextAttempt d)).1.code ≠ .ok
          · simp only [if_pos hs] at h
            simp at h
          · simp only [if_neg hs] at h ⊢
            push Not at hs
            exact (Extends.issueAttempt hs).trans (ih h)

theorem dispatchLoop_error {now : UnixMillis} {intent : IntentDocument} {decisions : List Decision}
    {result : DispatchResult} {status : Status}
    (h : (Engine.dispatchLoop live now intent decisions s result).1 = .error status) : status.code ≠ .ok := by
  induction decisions generalizing s result with
  | nil => simp [Engine.dispatchLoop] at h
  | cons d rest ih =>
    unfold Engine.dispatchLoop at h
    split at h
    · exact ih h
    split at h
    · exact ih h
    split at h
    · exact ih h
    by_cases hs : (s.issueAttempt (Engine.newAttempt live now s.state.nextAttempt d)).1.code ≠ .ok
    · simp only [if_pos hs, Except.error.injEq] at h
      rw [← h]
      exact hs
    · simp only [if_neg hs] at h
      exact ih h

theorem Extends.advanceEpoch {epoch : CoordinatorEpoch} (h : (s.advanceEpoch epoch).1.code = .ok) :
    Extends s (s.advanceEpoch epoch).2 := by
  unfold DurableStore.advanceEpoch at h ⊢
  split
  · exact .refl s
  next hro =>
    rw [if_neg hro] at h
    split
    · exact .refl s
    next hnew =>
      rw [if_neg hnew] at h
      exact .commit h

theorem Extends.installPolicy {options : EngineOptions} (h : (installPolicy options s).1.code = .ok) :
    Extends s (FabricReconciliation.installPolicy options s).2 := by
  unfold FabricReconciliation.installPolicy at h ⊢
  split
  · exact .refl s
  next hnone =>
    rw [if_neg hnone] at h
    split
    · exact .refl s
    next hmay =>
      rw [if_neg hmay] at h
      cases hc : canonicalisePolicy (if options.initialPolicy.id.empty then defaultPolicy else options.initialPolicy)
          options.limits with
      | error status => exact .refl s
      | ok policy =>
        simp only [hc] at h
        exact .commit h

/-- A boot that comes up has made no append that failed. -/
theorem start_extends {options : EngineOptions} {id : BootId} {env : CallEnv} {e : Engine}
    (h : Engine.start options id env s = .ok e) : Extends s e.store := by
  unfold Engine.start at h
  split at h
  · rw [Except.ok.injEq] at h
    rw [← h]
    exact .refl s
  simp only at h
  split at h
  · simp at h
  next hinstalled =>
    split at h
    · simp at h
    next hadvanced =>
      split at h
      · simp at h
      next hfenced =>
        push Not at hinstalled hadvanced hfenced
        rw [Except.ok.injEq] at h
        rw [← h]
        have hfirst : Extends s (FabricReconciliation.installPolicy options { s with faults := env.faults }).2 :=
          Extends.installPolicy (s := { s with faults := env.faults }) hinstalled
        exact (hfirst.trans (Extends.advanceEpoch hadvanced)).trans (Extends.settleAll hfenced)

/-- A boot that fails says so. -/
theorem start_error {options : EngineOptions} {id : BootId} {env : CallEnv} {failed : Status × DurableStore}
    (h : Engine.start options id env s = .error failed) : failed.1.code ≠ .ok := by
  unfold Engine.start at h
  split at h
  · simp at h
  simp only at h
  split at h
  next hbad =>
    rw [Except.error.injEq] at h
    rw [← h]
    exact hbad
  split at h
  next hbad =>
    rw [Except.error.injEq] at h
    rw [← h]
    exact hbad
  split at h
  next hbad =>
    rw [Except.error.injEq] at h
    rw [← h]
    exact hbad
  · simp at h

end Stores

section Calls

variable {limits : RuntimeLimits} {e : Engine} {env : CallEnv}

/-- The common end of most calls. -/
theorem Extends.finish {done : Status × DurableStore} (h : done.1.code = .ok → Extends e.store done.2)
    {α : Type} (bad good : α)
    (hok : (if done.1.code ≠ .ok then (done.1, bad, e.withStore done.2)
      else (Status.ok, good, (e.withStore done.2).maybeCompact env)).1.code = .ok) :
    Extends e.store (if done.1.code ≠ .ok then (done.1, bad, e.withStore done.2)
      else (Status.ok, good, (e.withStore done.2).maybeCompact env)).2.2.store := by
  by_cases hs : done.1.code ≠ .ok
  · simp only [if_pos hs] at hok
    exact absurd hok hs
  · simp only [if_neg hs]
    push Not at hs
    exact Extends.maybeCompact (h hs) env

theorem commitIntent_extends (document : IntentDocument) (hok : (e.commitIntent env document).1.code = .ok) :
    Extends e.store (e.commitIntent env document).2.2.store := by
  unfold Engine.commitIntent at hok ⊢
  cases hgate : e.admitIntent document with
  | error answer => exact .refl _
  | ok candidate =>
    simp only [hgate] at hok ⊢
    exact Extends.finish (fun h => @Extends.commit (e.under env).store "intent" _ h) _ _ hok

theorem recordObservationAt_extends (submission : ObservationSubmission) (stamp : UnixMillis)
    (hok : (e.recordObservationAt env submission stamp).1.code = .ok) :
    Extends e.store (e.recordObservationAt env submission stamp).2.2.store := by
  unfold Engine.recordObservationAt at hok ⊢
  cases hgate : e.admitObservation env submission stamp with
  | error answer => exact .refl _
  | ok document =>
    simp only [hgate] at hok ⊢
    exact Extends.finish (fun h => @Extends.commit (e.under env).store "observation" _ h) _ _ hok

theorem dispatch_extends (plan : ReconciliationPlan) (hok : (statusOf (e.dispatch env plan).1).code = .ok) :
    Extends e.store (e.dispatch env plan).2.store := by
  unfold Engine.dispatch at hok ⊢
  cases hgate : e.admitPlan plan with
  | error status => exact .refl _
  | ok intent =>
    simp only [hgate] at hok ⊢
    have hloop : ∀ {final}, (Engine.dispatchLoop e.live env.now intent plan.decisions (e.under env).store {}).1 = .ok final →
        Extends e.store (Engine.dispatchLoop e.live env.now intent plan.decisions (e.under env).store {}).2 :=
      fun h => @Extends.dispatchLoop e.live (e.under env).store _ _ _ _ _ h
    have hbad := fun status => @dispatchLoop_error e.live (e.under env).store env.now intent plan.decisions {} status
    generalize Engine.dispatchLoop e.live env.now intent plan.decisions (e.under env).store {} = done
      at hok hloop hbad ⊢
    obtain ⟨answer, s⟩ := done
    cases answer with
    | error status => exact absurd hok (hbad status rfl)
    | ok result => exact Extends.maybeCompact (hloop rfl) env

theorem complete_extends (request : CompletionRequest) (hok : (e.complete env request).1.code = .ok) :
    Extends e.store (e.complete env request).2.2.store := by
  unfold Engine.complete at hok ⊢
  cases hgate : e.admitCompletion request with
  | error status => exact .refl _
  | ok a =>
    simp only [hgate] at hok ⊢
    split
    next hterminal =>
      simp only [hterminal, if_true] at hok
      exact Extends.finish (fun h => @Extends.settle (e.under env).store _ _ h) _ _ hok
    next hrunning =>
      simp only [hrunning] at hok
      exact Extends.finish (fun h => @Extends.commit (e.under env).store "attempt" _ h) _ _ hok

theorem verify_extends (evidence : VerificationEvidence) (hok : (e.verify env evidence).1.code = .ok) :
    Extends e.store (e.verify env evidence).2.2.store := by
  unfold Engine.verify at hok ⊢
  cases hgate : e.admitVerification env evidence with
  | error status => exact .refl _
  | ok a =>
    simp only [hgate] at hok ⊢
    exact Extends.finish (fun h => @Extends.settle (e.under env).store _ _ h) _ _ hok

theorem putFence_extends (fence : FenceEntry) (hok : (e.putFence env fence).1.code = .ok) :
    Extends e.store (e.putFence env fence).2.store := by
  unfold Engine.putFence at hok ⊢
  split
  · exact .refl _
  next hro =>
    rw [if_neg hro] at hok
    split
    · exact .refl _
    next hset =>
      rw [if_neg hset] at hok
      split
      · exact .refl _
      next hbelow =>
        rw [if_neg hbelow] at hok
        generalize (if fence.createdUnixMs ≠ 0 then fence.createdUnixMs else env.now) = now at hok ⊢
        by_cases hs : ((e.under env).store.putFence { fence with createdUnixMs := now }).1.code ≠ .ok
        · simp only [if_pos hs] at hok
          exact absurd hok hs
        simp only [if_neg hs] at hok ⊢
        push Not at hs
        have hstored : Extends e.store ((e.under env).store.putFence { fence with createdUnixMs := now }).2 :=
          @Extends.commit (e.under env).store "fence" _ hs
        split
        next hbad =>
          rw [if_pos hbad] at hok
          exact absurd hok hbad
        next hgood =>
          push Not at hgood
          exact Extends.maybeCompact (hstored.trans (Extends.settleAll hgood)) env

/-- A call that returns OK has made no append that failed. -/
theorem call_extends (operation : Operation) (hok : (e.call env operation).1.code = .ok) :
    Extends e.store (e.call env operation).2.store := by
  cases operation with
  | putPolicy policy allow =>
    simp only [Engine.call, Engine.putPolicy] at hok ⊢
    cases hgate : e.admitPolicy policy allow with
    | error status => exact .refl _
    | ok canonical =>
      simp only [hgate] at hok ⊢
      exact @Extends.commit (e.under env).store "policy" _ hok
  | commitIntent document => exact commitIntent_extends document hok
  | recordObservationAt submission stamp => exact recordObservationAt_extends submission stamp hok
  | plan request => exact .refl _
  | dispatch plan => exact dispatch_extends plan hok
  | complete request => exact complete_extends request hok
  | verify evidence => exact verify_extends evidence hok
  | putFence fence => exact putFence_extends fence hok
  | clearFence fence =>
    simp only [Engine.call, Engine.clearFence] at hok ⊢
    split
    · exact .refl _
    next hro =>
      rw [if_neg hro] at hok
      split
      · exact .refl _
      next f hf =>
        simp only [hf] at hok
        exact @Extends.commit (e.under env).store "fence identity" _ hok
  | compact =>
    have hlog := compact_log e.store env.io env.snapshotNow env.headerNow
    simp only [Engine.call, Engine.compact]
    split
    · exact .refl _
    split
    · exact .of_log hlog
    · exact .of_log hlog

end Calls

/-- **`step_succeeds`**. -/
theorem step_succeeds {limits : RuntimeLimits} {p : Process} {v : View} (hp : Kept limits p v) {a : Step}
    (hlimits : ∀ options opening id env, a = .boot options opening id env → options.limits = limits)
    (hok : (p.step a).1.code = .ok) : p.Succeeds a := by
  have hidle : (p.step a).2.log = p.log → p.Succeeds a := by
    intro hlog x hx
    unfold Process.appends at hx
    rw [hlog, List.drop_length] at hx
    simp at hx
  cases p with
  | up e =>
    cases a with
    | boot options opening id env => exact hidle rfl
    | call operation env => exact (call_extends operation hok).2
    | exit => exact hidle rfl
  | down dir last =>
    cases a with
    | call operation env => exact hidle rfl
    | exit => exact hidle rfl
    | boot options opening id env =>
      obtain rfl := hlimits options opening id env rfl
      cases hp with
      | down hrests =>
        have hlog := open_log options.limits options.createIfMissing options.readOnly opening dir hrests.present
        rcases hopen : DurableStore.open options.limits options.createIfMissing options.readOnly opening dir with
          ⟨dir', answer⟩
        rw [hopen] at hlog
        have hstep : Process.step (.down dir last) (.boot options opening id env) =
            Process.boot dir last options opening id env := rfl
        unfold Process.boot at hstep
        rw [hopen] at hstep
        cases answer with
        | error status =>
          refine hidle ?_
          rw [hstep]
          exact hlog
        | ok result =>
          obtain ⟨opened, report⟩ := result
          simp only at hstep
          obtain ⟨-, w, hreopened, hw⟩ := (hrests.open hopen).2 opened report rfl
          have hopened : opened.directory.log = dir.log := by rw [← hw.log, hreopened.log, hrests.log]
          cases hstart : Engine.start options id env opened with
          | error failed =>
            rw [hstart] at hstep
            rw [hstep] at hok
            exact absurd hok (start_error hstart)
          | ok e =>
            rw [hstart] at hstep
            intro x hx
            unfold Process.appends at hx
            rw [hstep] at hx
            exact (start_extends hstart).2 x (by rw [hopened]; exact hx)

end FabricReconciliation
