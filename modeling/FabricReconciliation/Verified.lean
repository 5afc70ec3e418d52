import FabricReconciliation.Outcomes
import FabricReconciliation.Serving
import FabricReconciliation.Verification

/-!
# What verifies an attempt (`engine.cpp:15-44`, `engine.cpp:911-1121`)

The lifecycle lets an applied attempt become verified, and `Complete` takes any target the lifecycle allows.

* **`Write.plain`** — a record that verifies comes from `Verify`, or from a `Complete` whose caller asks for it;
* **`verify_earned`** — what `Verify` leaves behind when none of its appends fails;
* **`verified_by_verify`** — where no `Complete` asks for it, an attempt becomes verified by a `Verify` that returns OK.
-/

namespace FabricReconciliation

open Lib

/-- The record says that an attempt is verified. -/
def Event.verifies : Event → Bool
  | .attemptIssued a | .attemptTransition a => decide (a.state = .verified)
  | .outcomeCommit o => o.verified
  | _ => false

/-- No `Complete` that would succeed asks for `verified`, and the appends of a `Verify` do not fail. -/
structure Process.Earned (p : Process) (a : Step) : Prop where
  complete : ∀ e request env, p = .up e → a = .call (.complete request) env → request.target = .verified →
    ∀ x, ¬ Completable e request x
  verify : ∀ evidence env, a = .call (.verify evidence) env → ∀ io ∈ env.faults, io = .ok

/-- A call of `Verify` that verified attempt `x`. -/
structure Verified (e : Engine) (env : CallEnv) (v : VerificationEvidence) (x : AttemptRecord) : Prop where
  ok : (e.verify env v).1.code = .ok
  names : x.idempotencyKey = v.idempotencyKey
  applied : ∃ b, e.store.state.attempts.find? x.id = some b ∧ b.state = .applied ∧
    x = { b with state := .verified, transitions := x.transitions }
  retained : ∃ d ∈ e.store.state.stream v.scope, d.observation = v.observation ∧
    x.authority.observationGeneration < d.generation ∧
    evaluateFreshness d e.store.state.policy.freshness e.live.epoch env.now = .fresh
  independent : e.store.state.policy.requireIndependentVerification = true → v.verifier ≠ v.applier

/-- The step is a call of `Verify` that verified attempt `x`. -/
def Process.Verifies (p : Process) (a : Step) (x : AttemptRecord) : Prop :=
  ∃ e env v, p = .up e ∧ a = .call (.verify v) env ∧ Verified e env v x

/-! ## Records -/

section Records

variable {limits : RuntimeLimits} {live : Incarnation} {cause : Option Operation} {st : DurableState} {ev : Event}
  {env : CallEnv} {s t : DurableStore} {u v w : View}

/-- **`Write.plain`**. -/
theorem Write.plain (h : Write limits live cause st ev) (hnot : ¬ MayVerify cause) : ev.verifies = false := by
  cases h with
  | attemptTransition a a' hm hc =>
    simp only [Event.verifies, decide_eq_false_iff_not]
    intro hverified
    cases hc with
    | restart h ht => rcases ht with ht | ht <;> simp [ht] at hverified
    | fence f h ht => simp [ht] at hverified
    | complete r h ht hid hlive => exact hnot (.inr ⟨r, h, ht ▸ hverified⟩)
    | verify v h happlied ht hlive => exact hnot (.inl ⟨v, h⟩)
  | outcomeCommit o hok hverified =>
    simp only [Event.verifies]
    by_contra hclaims
    exact hnot (hverified (by simpa using hclaims))
  | attemptIssued p d now hcause hd hact hfree hnone => simp [Event.verifies, Engine.newAttempt]
  | _ => rfl

/-- The attempts that other records leave verified were verified before. -/
theorem verified_applyEvent (hplain : ev.verifies = false) {k : UInt64} {x : AttemptRecord}
    (hx : (applyEvent limits st ev).attempts.find? k = some x) (hstate : x.state = .verified) :
    st.attempts.find? k = some x := by
  have hattempt : ∀ a, ev.verifies = decide (a.state = AttemptState.verified) →
      (applyAttempt limits a st).attempts.find? k = some x → st.attempts.find? k = some x := by
    intro a ha hfind
    rcases find?_applyAttempt hfind with ⟨-, rfl⟩ | ⟨-, hold⟩
    · rw [ha, hstate] at hplain
      simp at hplain
    · exact hold
  cases ev with
  | attemptIssued a => exact hattempt a rfl hx
  | attemptTransition a => exact hattempt a rfl hx
  | _ => exact hx

/-- The record beyond memory verifies nothing. -/
def View.Plain (v : View) : Prop := ∀ ev, v.pending = some ev → ev.verifies = false

/-- The verified attempts are among those that were verified in `st`. -/
def Inherited (st st' : DurableState) : Prop :=
  ∀ k x, st'.attempts.find? k = some x → x.state = .verified → st.attempts.find? k = some x

theorem Inherited.write {st' : DurableState} (h : Inherited st st') (hplain : ev.verifies = false) :
    Inherited st (applyEvent limits st' ev) :=
  fun k x hx hstate => h k x (verified_applyEvent hplain hx hstate) hstate

/-- The appends of a call or boot that may not verify. -/
theorem Acts.plain (h : Acts limits live cause v w) (hnot : ¬ MayVerify cause) (hv : v.Plain) :
    w.Plain ∧ Inherited v.memory w.memory := by
  refine h.each (J := fun u => u.Plain ∧ Inherited v.memory u.memory) ⟨hv, fun _ _ hx _ => hx⟩ ?_ ?_
  · rintro u x ev ok ⟨hu, hinherited⟩ he ha
    have hplain := he.plain hnot
    refine ⟨?_, ?_⟩
    · intro ev' hev'
      rcases ha.pending with ⟨hsame, -⟩ | hnone | ⟨hsome, -, -⟩
      · exact hu ev' (hsame ▸ hev')
      · simp [hnone] at hev'
      · rw [hsome, Option.some.injEq] at hev'
        exact hev' ▸ hplain
    · rcases ha.memory with ⟨-, -, -, hmem⟩ | ⟨-, hmem⟩
      · rw [hmem]
        exact hinherited.write hplain
      · rw [hmem]
        exact hinherited
  · rintro u ⟨-, hinherited⟩
    exact ⟨fun ev hev => by simp at hev, hinherited⟩

theorem Reopened.plain (h : Reopened limits v w) (hv : v.Plain) : w.Plain ∧ Inherited v.memory w.memory := by
  cases h with
  | same hnone => exact ⟨hv, fun _ _ hx _ => hx⟩
  | caughtUp ev hsome hfits hok =>
    refine ⟨fun ev' hev' => by simp at hev', ?_⟩
    exact Inherited.write (fun _ _ hx _ => hx) (hv ev hsome)

/-- The entry of a commit is that of its record. -/
theorem commit_logged (s : DurableStore) (what : String) (ev : Event) (hdoc : ev.isDocument = true → ev.Ok s.limits) :
    (s.commit what ev).2.directory.log = s.directory.log ∨ ∃ whole acknowledged,
      (s.commit what ev).2.directory.log = s.directory.log ++ [ev.appending whole acknowledged] := by
  rcases commit_cases s what hdoc with ⟨-, -, -, -, -, hlog⟩ | ⟨-, -, ⟨hlog, -⟩ | ⟨-, hlog⟩⟩
  · exact .inr ⟨_, _, hlog⟩
  · exact .inl hlog
  · exact .inr hlog

/-- The outcomes of such a call or boot claim no verification. -/
theorem Commits.plain (h : Commits (Write limits live cause) env s t) (hnot : ¬ MayVerify cause)
    (hbound : s.limits = limits) : t.limits = limits ∧ ∃ rest, t.directory.log = s.directory.log ++ rest ∧
      ∀ y ∈ rest, ∀ o, outcomeOf y = some o → o.verified = false := by
  induction h with
  | refl => exact ⟨hbound, [], (List.append_nil _).symm, by simp⟩
  | @commit t h what ev he ih =>
    obtain ⟨hlimits, rest, hlog, hall⟩ := ih
    refine ⟨(commit_limits t what ev).trans hlimits, ?_⟩
    rcases commit_logged t what _ (fun hdoc => by rw [hlimits]; exact he.document hdoc) with
      hsame | ⟨whole, acknowledged, hmore⟩
    · exact ⟨rest, hsame.trans hlog, hall⟩
    · refine ⟨rest ++ [ev.appending whole acknowledged], by rw [hmore, hlog, List.append_assoc], ?_⟩
      intro y hy o ho
      rcases List.mem_append.mp hy with hold | hnew
      · exact hall y hold o ho
      · rw [List.mem_singleton.mp hnew] at ho
        have hplain := he.plain hnot
        rw [outcomeOf_event ho] at hplain
        exact hplain
  | compact h ih =>
    obtain ⟨hlimits, rest, hlog, hall⟩ := ih
    exact ⟨(compact_limits _ _ _ _).trans hlimits, rest, (compact_log _ _ _ _).trans hlog, hall⟩
  | faults h ih => exact ih

/-- Where no append fails, one that was reported as failed did not reach the file. -/
theorem commit_told (s : DurableStore) (what : String) (ev : Event) (hfaults : ∀ io ∈ s.faults, io = .ok) :
    (∀ io ∈ (s.commit what ev).2.faults, io = .ok) ∧ ∃ rest, (s.commit what ev).2.directory.log = s.directory.log ++ rest ∧
      ∀ y ∈ rest, y.whole = true → y.acknowledged = true := by
  have hnone : ∃ rest, s.directory.log = s.directory.log ++ rest ∧ ∀ y ∈ rest, y.whole = true → y.acknowledged = true :=
    ⟨[], (List.append_nil _).symm, by simp⟩
  unfold DurableStore.commit
  split
  · exact ⟨hfaults, hnone⟩
  split
  · exact ⟨hfaults, hnone⟩
  rcases happ : s.journal.append ev.type ev.payload (s.faults.headD .ok) (s.directory.journal.getD []) with
    ⟨status, j, file⟩
  have hentry : ∀ y ∈ [(⟨ev.type, ev.payload,
      decide (file.length = (s.directory.journal.getD []).length + (kRecordHeaderBytes + ev.payload.length)),
      decide (status.code = .ok)⟩ : Appending)], y.whole = true → y.acknowledged = true := by
    intro y hy hwhole
    rw [List.mem_singleton.mp hy] at hwhole ⊢
    simp only [decide_eq_true_eq] at hwhole ⊢
    by_contra hbad
    have hsame : file.length = (s.directory.journal.getD []).length := by
      by_cases hshut : s.journal.readOnly = true ∨ s.journal.isOpen = false
      · obtain ⟨status', -, happ'⟩ := append_refused hshut ev.type ev.payload (s.faults.headD .ok)
          (s.directory.journal.getD [])
        rw [happ, Prod.mk.injEq, Prod.mk.injEq] at happ'
        rw [happ'.2.2]
      push Not at hshut
      rcases append_cases (by simpa using hshut.2) (by simpa using hshut.1) ev.type ev.payload (s.faults.headD .ok)
        (s.directory.journal.getD []) with ⟨status', -, happ', -⟩ | ⟨-, -, -, written, happ'⟩ | ⟨hio, -⟩
      · rw [happ, Prod.mk.injEq, Prod.mk.injEq] at happ'
        rw [happ'.2.2]
      · rw [happ, Prod.mk.injEq] at happ'
        rw [happ'.1] at hbad
        exact absurd rfl hbad
      · exact absurd (faultless_head hfaults) hio
    rw [hsame] at hwhole
    simp only [kRecordHeaderBytes] at hwhole
    omega
  rw [appendAndApply_eq s ev.type ev.payload happ]
  split
  · exact ⟨faultless_tail hfaults, _, rfl, hentry⟩
  split
  · exact ⟨faultless_tail hfaults, _, rfl, hentry⟩
  · exact ⟨faultless_tail hfaults, _, rfl, hentry⟩

/-- Where no append fails, an attempt ends by both its records or by none. -/
theorem settle_outright {a : AttemptRecord} {o : ReconciliationOutcome} (hbound : s.limits = limits)
    (hjournal : s.journal.limits = limits) (hfaults : ∀ io ∈ s.faults, io = .ok) (houtcome : OutcomeOk o)
    (hfits : (Event.attemptTransition a).Fits limits → (Event.outcomeCommit o).Fits limits) :
    (∃ rest, (s.settle a o).2.directory.log = s.directory.log ++ rest ∧
      (∀ y ∈ rest, y.whole = true → y.acknowledged = true) ∧
      ((s.settle a o).1.code = .ok ∨ ∀ y ∈ rest, outcomeOf y = none) ∧
      ∀ y ∈ rest, ∀ o', outcomeOf y = some o' → o' = o) ∧
    ((s.settle a o).1.code = .ok ∧
        (s.settle a o).2.state.attempts = (applyAttempt limits a s.state).attempts ∨
      (s.settle a o).1.code ≠ .ok ∧ (s.settle a o).2.state.attempts = s.state.attempts) := by
  have htransition : ∀ {whole acknowledged : Bool},
      outcomeOf ((Event.attemptTransition a).appending whole acknowledged) = none := by
    intro whole acknowledged
    rw [Option.eq_none_iff_forall_ne_some]
    intro o' ho'
    exact absurd (outcomeOf_event ho') (by simp)
  obtain ⟨hleft, rest, hlog, htold⟩ := commit_told s "attempt" (.attemptTransition a) hfaults
  obtain ⟨-, rest', hlog', htold'⟩ := commit_told (s.transitionAttempt a).2 "outcome" (.outcomeCommit o) hleft
  have hrest : ∀ y ∈ rest, outcomeOf y = none := by
    intro y hy
    rcases commit_logged s "attempt" (.attemptTransition a) (by simp [Event.isDocument]) with
      hsame | ⟨whole, acknowledged, hmore⟩
    · rw [hsame, List.self_eq_append_right] at hlog
      simp [hlog] at hy
    · rw [hmore, List.append_cancel_left_eq] at hlog
      rw [← hlog, List.mem_singleton] at hy
      rw [hy]
      exact htransition
  have hrest' : ∀ y ∈ rest', ∀ o', outcomeOf y = some o' → o' = o := by
    intro y hy o' ho'
    rcases commit_logged (s.transitionAttempt a).2 "outcome" (.outcomeCommit o) (by simp [Event.isDocument]) with
      hsame | ⟨whole, acknowledged, hmore⟩
    · rw [hsame, List.self_eq_append_right] at hlog'
      simp [hlog'] at hy
    · rw [hmore, List.append_cancel_left_eq] at hlog'
      rw [← hlog', List.mem_singleton] at hy
      rw [hy] at ho'
      injection outcomeOf_event ho' with heq
      exact heq.symm
  by_cases hfirst : (s.commit "attempt" (.attemptTransition a)).1.code = .ok
  · obtain ⟨hfit, hserving⟩ := commit_serving (by simp [Event.isDocument]) hbound hjournal hfaults hfirst
    obtain ⟨hstatus, -, -⟩ := hserving.commit "outcome" (e := .outcomeCommit o) houtcome (hfits hfit)
    have hsettle : s.settle a o = (s.transitionAttempt a).2.commitOutcome o := by
      unfold DurableStore.settle
      exact if_neg (not_not.mpr hfirst)
    have hok : (s.settle a o).1.code = .ok := by
      rw [hsettle, DurableStore.commitOutcome, DurableStore.transitionAttempt, hstatus]
      rfl
    obtain ⟨-, -, q, hq⟩ := settle_ok hok
    refine ⟨⟨rest ++ rest', ?_, ?_, .inl hok, ?_⟩, .inl ⟨hok, ?_⟩⟩
    · rw [hsettle, show ((s.transitionAttempt a).2.commitOutcome o).2.directory.log = _ from hlog',
        show (s.transitionAttempt a).2.directory.log = _ from hlog, List.append_assoc]
    · intro y hy
      rcases List.mem_append.mp hy with hold | hnew
      · exact htold y hold
      · exact htold' y hnew
    · intro y hy o' ho'
      rcases List.mem_append.mp hy with hold | hnew
      · simp [hrest y hold] at ho'
      · exact hrest' y hnew o' ho'
    · rw [hq, hbound]
      rfl
  · have hsettle : s.settle a o = s.transitionAttempt a := by
      unfold DurableStore.settle
      exact if_pos hfirst
    obtain ⟨q, hq⟩ := commit_failed hfirst
    refine ⟨⟨rest, ?_, htold, .inr hrest, ?_⟩, .inr ⟨?_, ?_⟩⟩
    · rw [hsettle]
      exact hlog
    · intro y hy o' ho'
      simp [hrest y hy] at ho'
    · rw [hsettle]
      exact hfirst
    · rw [hsettle, DurableStore.transitionAttempt, hq]

end Records

/-! ## The call -/

section Verify

variable {limits : RuntimeLimits} {e : Engine} {env : CallEnv} {v : VerificationEvidence}

/-- An attempt that `Verify` moved. -/
theorem verified_of_ok {a : AttemptRecord} (hgate : e.admitVerification env v = .ok a)
    (hstored : e.store.state.attempts.find? a.id = some a) (hok : (e.verify env v).1.code = .ok)
    (hconfirms : v.confirmsEffect = true) : Verified e env v (a.move limits (e.verification env v a)) := by
  have hverifiable := admitVerification_ok hgate
  have htarget : (e.verification env v a).target = .verified := by simp [Engine.verification, hconfirms]
  have hkey := List.find?_some hverifiable.found
  obtain ⟨d, hcited, hfresh⟩ := hverifiable.cited
  have hmatches := List.find?_some hcited
  simp only [Bool.and_eq_true, decide_eq_true_eq] at hmatches
  refine ⟨hok, of_decide_eq_true hkey, ⟨a, hstored, hverifiable.applied, ?_⟩, ⟨d, List.mem_of_find?_eq_some hcited,
    hmatches.1.1, ?_, hfresh⟩, hverifiable.independent⟩
  · simp only [AttemptRecord.move, htarget]
  · rw [hmatches.1.2]
    exact hverifiable.newer

/-- **`verify_earned`**: the attempt that is verified then is the one this call verified. -/
theorem verify_earned (h : Consistent limits e) (hslim : Slim e.store.state) (hjournal : e.store.journal.limits = limits)
    (hfaults : ∀ io ∈ env.faults, io = .ok) :
    (∀ k x, (e.verify env v).2.2.store.state.attempts.find? k = some x → x.state = .verified →
      e.store.state.attempts.find? k = some x ∨ Verified e env v x) ∧
    ∃ rest, (e.verify env v).2.2.store.directory.log = e.store.directory.log ++ rest ∧
      (∀ y ∈ rest, y.whole = true → y.acknowledged = true) ∧
      ∀ y ∈ rest, ∀ o, outcomeOf y = some o → o.verified = true → ∃ x, Verified e env v x ∧ o.attempt = x.id := by
  cases hgate : e.admitVerification env v with
  | error status =>
    unfold Engine.verify
    rw [hgate]
    exact ⟨fun k x hx _ => .inl hx, [], (List.append_nil _).symm, by simp, by simp⟩
  | ok a =>
    have hsettles := verification_settles h (admitVerification_ok hgate)
    have hstored := hsettles.moves.stored
    obtain ⟨-, hattempt, -, hfits⟩ := hsettles.fits hslim h.tables
    generalize hstamped : ({ makeOutcome (a.move limits (e.verification env v a)) (e.verification env v a).target
          (e.verification env v a).reason (!v.confirmsEffect) (e.verification env v a).atUnixMs with
        verifiedGeneration := v.generation } : ReconciliationOutcome) = o at hsettles hfits
    have hverify : e.verify env v =
        if ((e.under env).store.settle (a.move limits (e.verification env v a)) o).1.code ≠ .ok then
          (((e.under env).store.settle (a.move limits (e.verification env v a)) o).1, none,
            e.withStore ((e.under env).store.settle (a.move limits (e.verification env v a)) o).2)
        else (Status.ok, some o,
          (e.withStore ((e.under env).store.settle (a.move limits (e.verification env v a)) o).2).maybeCompact env) := by
      unfold Engine.verify
      rw [hgate]
      simp only [h.options, hstamped]
    have hmoved := hsettles.outcome.attempt
    obtain ⟨⟨rest, hlog, htold, hnone, hall⟩, hcases⟩ := settle_outright (s := (e.under env).store) h.store hjournal hfaults
      hsettles.ok hfits
    rcases hcases with ⟨hok, hattempts⟩ | ⟨hbad, hattempts⟩
    · have hgood : (e.verify env v).1.code = .ok := by
        rw [hverify, if_neg (not_not.mpr hok)]
        rfl
      obtain ⟨htables, hlogs⟩ := maybeCompact_state
        (e.withStore ((e.under env).store.settle (a.move limits (e.verification env v a)) o).2) env
      obtain ⟨-, -, -, -, -, -, -, hsame, -, -⟩ := tables_eq_iff.mp htables
      have hconfirms : (a.move limits (e.verification env v a)).state = .verified → v.confirmsEffect = true := by
        intro hstate
        by_contra hdenied
        simp [AttemptRecord.move, Engine.verification, hdenied] at hstate
      rw [hverify, if_neg (not_not.mpr hok)]
      refine ⟨?_, rest, hlogs.trans hlog, htold, ?_⟩
      · intro k x hx hstate
        rw [hsame, show (e.withStore _).store.state.attempts = _ from hattempts] at hx
        rcases find?_applyAttempt hx with ⟨-, rfl⟩ | ⟨-, hold⟩
        · exact .inr (verified_of_ok hgate hstored hgood (hconfirms hstate))
        · exact .inl hold
      · intro y hy o' ho' hverified
        rw [hall y hy o' ho'] at hverified ⊢
        rw [hsettles.outcome.verified, decide_eq_true_eq] at hverified
        exact ⟨_, verified_of_ok hgate hstored hgood (hconfirms hverified), hmoved⟩
    · rw [hverify, if_pos hbad]
      refine ⟨?_, rest, hlog, htold, ?_⟩
      · intro k x hx _
        rw [show (e.withStore _).store.state.attempts = _ from hattempts] at hx
        exact .inl hx
      · intro y hy o' ho'
        simp [hnone.resolve_left hbad y hy] at ho'

end Verify

/-! ## In every run -/

section Run

variable {limits : RuntimeLimits} {p : Process} {v w : View} {a : Step}

theorem Kept.journalBound {e : Engine} (h : Kept limits (.up e) v) : e.store.journal.limits = limits := by
  cases h with
  | up h hoptions hepoch => exact h.handle.journalBound

theorem View.Good.slim {e : Engine} (h : v.Good limits) (hv : Kept limits (.up e) v) : Slim e.store.state := by
  have hslim := h.sane.slim
  rw [show v.memory = e.store.state.tables from hv.tables] at hslim
  exact hslim

/-- A `Complete` that asks for `verified` is refused. -/
theorem Process.Earned.refuses {e : Engine} {request : CompletionRequest} {env : CallEnv}
    (h : (Process.up e).Earned (.call (.complete request) env)) (htarget : request.target = .verified) :
    ((Process.up e).step (.call (.complete request) env)).2 = .up e := by
  cases hgate : e.admitCompletion request with
  | error status => simp [Process.step, Engine.call, Engine.complete, hgate]
  | ok x => exact absurd (admitCompletion_ok.mp hgate) (h.complete e request env rfl rfl htarget x)

/-- One step: the record beyond memory verifies nothing, and what is verified is either inherited or the step's. -/
theorem step_earned (hv : Kept limits p v) (hgood : v.Good limits) (hplain : v.Plain) (ha : p.Earned a)
    (hprogress : Progress limits p a v w) (hw : Kept limits (p.step a).2 w) :
    w.Plain ∧ ∀ k x, w.memory.attempts.find? k = some x → x.state = .verified →
      v.memory.attempts.find? k = some x ∨ p.Verifies a x := by
  have hinherit : ∀ {live : Incarnation} {cause : Option Operation} {u : View}, Acts limits live cause u w →
      ¬ MayVerify cause → u.Plain ∧ Inherited v.memory u.memory → w.Plain ∧ Inherited v.memory w.memory := by
    rintro live cause u hacts hnot ⟨hu, hinherited⟩
    obtain ⟨hw, hacted⟩ := hacts.plain hnot hu
    exact ⟨hw, fun k x hx hstate => hinherited k x (hacted k x hx hstate) hstate⟩
  have hleft : w.Plain ∧ Inherited v.memory w.memory → w.Plain ∧ ∀ k x, w.memory.attempts.find? k = some x →
      x.state = .verified → v.memory.attempts.find? k = some x ∨ p.Verifies a x :=
    fun h => ⟨h.1, fun k x hx hstate => .inl (h.2 k x hx hstate)⟩
  have hself : v.Plain ∧ Inherited v.memory v.memory := ⟨hplain, fun _ _ hx _ => hx⟩
  have hboot : ¬ MayVerify none := by simp [MayVerify]
  cases hprogress with
  | idle => exact hleft hself
  | readOnly dir last opening id env hmode h => exact hleft (h.plain hplain)
  | boot dir last opening id env hmode h hacts => exact hleft (hinherit hacts hboot (h.plain hplain))
  | call e operation env h =>
    have hcons := hv.consistent
    have htables : v.memory = e.store.state.tables := hv.tables
    by_cases hmay : MayVerify (some operation)
    · rcases hmay with ⟨evidence, hop⟩ | ⟨request, hop, htarget⟩
      · -- the appends of `Verify` do not fail, so none of them is beyond memory afterwards
        cases hop
        have hfaults := ha.verify evidence env rfl
        obtain ⟨hattempts, rest, hlog, htold, -⟩ :=
          verify_earned hcons (hgood.slim hv) hv.journalBound hfaults (v := evidence)
        have hafter : w.memory = (e.verify env evidence).2.2.store.state.tables := hw.tables
        have hlogs : v.log = e.store.directory.log := hv.log
        have hlogs' : w.log = (e.verify env evidence).2.2.store.directory.log := hw.log
        refine ⟨?_, ?_⟩
        · intro ev hev
          obtain ⟨-, ⟨hsame, -⟩ | hnone | ⟨ev', hev', hin⟩⟩ := h.beyond
          · exact hplain ev (hsame ▸ hev)
          · simp [hnone] at hev
          · rw [hlogs', hlog, hlogs, List.drop_left] at hin
            simpa [Event.appending] using htold _ hin rfl
        · intro k x hx hstate
          rw [hafter] at hx
          rw [htables]
          rcases hattempts k x hx hstate with hold | hverified
          · exact .inl hold
          · exact .inr ⟨e, env, evidence, rfl, rfl, hverified⟩
      · -- such a `Complete` is refused
        cases hop
        rw [ha.refuses htarget] at hw
        have hsame : w.memory = v.memory := hw.tables.trans htables.symm
        refine ⟨?_, fun k x hx _ => .inl (hsame ▸ hx)⟩
        intro ev hev
        obtain ⟨-, ⟨hpending, -⟩ | hnone | ⟨ev', hev', hin⟩⟩ := h.beyond
        · exact hplain ev (hpending ▸ hev)
        · simp [hnone] at hev
        · rw [hw.log, hv.log, List.drop_length] at hin
          simp at hin
    · exact hleft (hinherit h hmay hself)

/-- The outcomes that a step claims are verified. -/
theorem step_earned_outcomes (hv : Kept limits p v) (hgood : v.Good limits) (ha : p.Earned a)
    (hlimits : ∀ options opening id env, a = .boot options opening id env → options.limits = limits) :
    ∀ y ∈ p.appends a, ∀ o, outcomeOf y = some o → o.verified = true → ∃ x, p.Verifies a x ∧ o.attempt = x.id := by
  have hdenied : ∀ {rest : List Appending}, p.appends a = rest →
      (∀ y ∈ rest, ∀ o, outcomeOf y = some o → o.verified = false) →
      ∀ y ∈ p.appends a, ∀ o, outcomeOf y = some o → o.verified = true → ∃ x, p.Verifies a x ∧ o.attempt = x.id := by
    intro rest hrest hall y hy o ho hverified
    rw [hall y (hrest ▸ hy) o ho] at hverified
    simp at hverified
  cases step_segment hv a hlimits with
  | idle htables hlog =>
    refine @hdenied [] ?_ (by simp)
    rw [Process.appends, hlog, hv.log, List.drop_length]
  | boot hu hs hlog hbound hpaired htables hlog' =>
    obtain ⟨-, rest, hmore, hall⟩ := hpaired.commits.plain (by simp [MayVerify]) hbound
    refine hdenied ?_ hall
    rw [Process.appends, hlog', hmore, hlog, hv.log, List.drop_left]
  | @call e operation env hp hpaired =>
    subst hp
    have hcons := hv.consistent
    by_cases hmay : MayVerify (some operation)
    · rcases hmay with ⟨evidence, hop⟩ | ⟨request, hop, htarget⟩
      · cases hop
        obtain ⟨-, rest, hlog, -, hall⟩ :=
          verify_earned hcons (hgood.slim hv) hv.journalBound (ha.verify evidence env rfl) (v := evidence)
        have hrest : (Process.up e).appends (.call (.verify evidence) env) = rest := by
          rw [Process.appends, show ((Process.up e).step (.call (.verify evidence) env)).2.log = _ from hlog]
          exact List.drop_left
        rw [hrest]
        intro y hy o ho hverified
        obtain ⟨x, hx, hid⟩ := hall y hy o ho hverified
        exact ⟨x, ⟨e, env, evidence, rfl, rfl, hx⟩, hid⟩
      · cases hop
        refine @hdenied [] ?_ (by simp)
        rw [Process.appends, ha.refuses htarget, List.drop_length]
    · obtain ⟨-, rest, hmore, hall⟩ := hpaired.commits.plain hmay hcons.store
      refine hdenied ?_ hall
      rw [Process.appends, show ((Process.up e).step (.call operation env)).2.log = _ from hmore]
      exact List.drop_left

/-- **`verified_by_verify`**: in a run whose steps are all of this kind, an attempt becomes verified, and an outcome says
so, only in a `Verify` that returns OK on that attempt. -/
theorem verified_by_verify (h : Run limits (fun p a => p.Orderly a ∧ p.Earned a) p) (horderly : p.Orderly a)
    (ha : p.Earned a)
    (hlimits : ∀ options opening id env, a = .boot options opening id env → options.limits = limits) :
    (∀ k x, (p.after a).state.attempts.find? k = some x → x.state = .verified →
      (∀ x', p.state.attempts.find? k = some x' → x'.state ≠ .verified) → p.Verifies a x) ∧
    ∀ y ∈ p.appends a, ∀ o, outcomeOf y = some o → o.verified = true → ∃ x, p.Verifies a x ∧ o.attempt = x.id := by
  obtain ⟨v, hv, hgood, hplain⟩ := run_kept (J := fun _ v => v.Good limits ∧ v.Plain)
    ⟨good_initial limits, fun ev hev => by simp [View.initial] at hev⟩
    (fun hv hj ha hprogress hw => ⟨hj.1.progress hprogress, (step_earned hv hj.1 hj.2 ha.2 hprogress hw).1⟩)
    (fun _ _ ha => ha.1) h
  obtain ⟨w, hw, hprogress⟩ := step_progress hv horderly hlimits
  refine ⟨?_, step_earned_outcomes hv hgood ha hlimits⟩
  intro k x hx hstate hnew
  have hx' : w.memory.attempts.find? k = some x := by
    rw [hw.tables]
    exact hx
  refine ((step_earned hv hgood hplain ha hprogress hw).2 k x hx' hstate).resolve_left ?_
  intro hold
  rw [hv.tables] at hold
  exact hnew x hold hstate

end Run

/-- The sample attempt is applied and verified by another reporter's observation. -/
theorem verified_by_verify_applied : ∃ plan e x, played (verifiableSteps plan) = .up e ∧
    (Process.up e).Verifies (.call (.verify (sampleVerification plan)) { now := 2 }) x := by
  obtain ⟨plan, d, h⟩ := sample_planned
  have hrun : Run {} (fun p a => p.Orderly a ∧ p.Earned a) (.up (verifiableEngine d)) := by
    rw [← h.verifiable]
    refine run_played ?_ ?_
    · intro options opening id env hmem
      simp only [verifiableSteps, observingSteps, List.cons_append, List.nil_append, List.mem_cons, Step.boot.injEq,
        reduceCtorEq, List.not_mem_nil, or_false] at hmem
      rw [hmem.1]
    · intro p a hmem
      simp only [verifiableSteps, observingSteps, List.cons_append, List.nil_append, List.mem_cons, List.not_mem_nil,
        or_false] at hmem
      rcases hmem with rfl | rfl | rfl | rfl | rfl | rfl
      all_goals
        refine ⟨?_, ?_, ?_⟩
        · first
            | exact .inl rfl
            | trivial
        · rintro e request env - ⟨⟩
          all_goals simp
        · rintro evidence env ⟨⟩
  have horderly : (Process.up (verifiableEngine d)).Orderly (.call (.verify (sampleVerification plan)) { now := 2 }) :=
    .inl rfl
  have hearned : (Process.up (verifiableEngine d)).Earned (.call (.verify (sampleVerification plan)) { now := 2 }) := by
    refine ⟨by simp, ?_⟩
    rintro evidence env ⟨⟩
    simp
  have hafter : ((Process.up (verifiableEngine d)).after
      (.call (.verify (sampleVerification plan)) { now := 2 })).state.attempts.find? 1 = some (verifiedAttempt d) := by
    simp only [Process.after, Process.step, Engine.call, h.verifies]
    rfl
  have hbefore : (verifiableEngine d).store.state.attempts.find? 1 = some (appliedAttempt d) := rfl
  refine ⟨plan, verifiableEngine d, verifiedAttempt d, h.verifiable,
    (verified_by_verify hrun horderly hearned (by simp)).1 1 _ hafter rfl ?_⟩
  intro x hx
  rw [show (verifiableEngine d).store.state.attempts.find? 1 = some x from hx, Option.some.injEq] at hbefore
  rw [hbefore]
  show AttemptState.applied ≠ .verified
  decide

/-- **`completion_claims_verified`**: the caller of `Complete` says that the applied attempt is verified, and it is. -/
theorem completion_claims_verified : ∃ (p : Process) (request : CompletionRequest) (x : AttemptRecord),
    Run {} Process.Orderly p ∧ (p.after (.call (.complete request) {})).state.attempts.find? 1 = some x ∧
      x.state = .verified ∧ (∀ x', p.state.attempts.find? 1 = some x' → x'.state ≠ .verified) ∧
      (∃ y ∈ p.appends (.call (.complete request) {}), ∃ o, outcomeOf y = some o ∧ o.verified = true) ∧
      ¬ ∃ x, p.Verifies (.call (.complete request) {}) x := by
  let applied := sampleFlight.after (.call (.complete ⟨1, 1, FixedBytes.zero, FixedBytes.zero, .applied, 1, .none⟩) {})
  let request : CompletionRequest := ⟨1, 1, FixedBytes.zero, FixedBytes.zero, .verified, 1, .none⟩
  have hfacts : ((applied.after (.call (.complete request) {})).state.attempts.find? 1).any (fun x =>
        decide (x.state = .verified)) = true ∧
      (applied.state.attempts.find? 1).all (fun x => decide (x.state ≠ .verified)) = true ∧
      (applied.appends (.call (.complete request) {})).any (fun y => (outcomeOf y).any fun o => o.verified) = true := by
    rw [show applied = sampleFlight.after _ from rfl, sampleFlight_eq]
    decide +kernel
  obtain ⟨hafter, hbefore, hlogged⟩ := hfacts
  obtain ⟨x, hx, hverified⟩ := (Option.any_eq_true _ _).mp hafter
  obtain ⟨y, hy, houtcome⟩ := List.any_eq_true.mp hlogged
  obtain ⟨o, ho, hclaims⟩ := (Option.any_eq_true _ _).mp houtcome
  refine ⟨applied, request, x, sampleFlight_run.after (.inl rfl) (by simp), hx, of_decide_eq_true hverified, ?_,
    ⟨y, hy, o, ho, hclaims⟩, ?_⟩
  · intro x' hx'
    rw [hx'] at hbefore
    simpa using hbefore
  · rintro ⟨x, e, env, v, -, heq, -⟩
    simp at heq

end FabricReconciliation
