import FabricReconciliation.Failure

/-!
# Outcomes in the log (lineage.hpp:51-54, engine.cpp:163-211, engine.cpp:911-1191)

An attempt ends by two records, its last transition and its outcome. Four operations write them, each with
its own idea of whether the effect is ambiguous, and an append can fail between the two.

* **`commit_cases`**, **`step_segment`** — what a commit and a step leave in the log;
* **`ambiguity_surfaced`** — where no fence meets an attempt in flight, every outcome says that it is
  ambiguous unless it is a verification;
* **`finished_has_outcome`** — where no outcome's append fails, every attempt that has ended has one.
-/

namespace FabricReconciliation

open Lib

/-! ## Outcomes in the log -/

/-- The outcome an entry of the log carries, when replay accepts it. -/
def outcomeOf (x : Appending) : Option ReconciliationOutcome :=
  if x.type = .outcomeCommit then decodeOutcome.exactly x.payload else none

/-- The attempt an entry of the log records, when replay accepts it. -/
def recordOf (limits : RuntimeLimits) (x : Appending) : Option AttemptRecord :=
  if x.type = .attemptIssued ∨ x.type = .attemptTransition then (decodeAttempt limits).exactly x.payload else none

section Entries

variable {limits : RuntimeLimits} {ev : Event} {whole acknowledged : Bool}

theorem outcome_payload (o : ReconciliationOutcome) : (Event.outcomeCommit o).payload ≠ [] := by
  rw [show (Event.outcomeCommit o).payload = encodeOutcome o from rfl, encodeOutcome_eq o]
  intro hnil
  have hzero := length_image_outcome o
  rw [hnil, List.length_nil] at hzero
  omega

/-- The entry of an outcome. -/
theorem outcomeOf_commit {o : ReconciliationOutcome} (hok : OutcomeOk o) (whole acknowledged : Bool) :
    outcomeOf ((Event.outcomeCommit o).appending whole acknowledged) = some o := by
  have htype : ((Event.outcomeCommit o).appending whole acknowledged).type = .outcomeCommit := rfl
  unfold outcomeOf
  rw [if_pos htype]
  exact decodeOutcome_encoded hok (outcome_payload o)

/-- Only an outcome's entry carries an outcome, and that one. -/
theorem outcomeOf_event {o : ReconciliationOutcome} (h : outcomeOf (ev.appending whole acknowledged) = some o) :
    ev = .outcomeCommit o := by
  unfold outcomeOf at h
  split at h
  next htype =>
    cases ev with
    | outcomeCommit o' =>
      have hread := (reads_outcome o').exactly
      rw [← encodeOutcome_eq o'] at hread
      rw [show ((Event.outcomeCommit o').appending whole acknowledged).payload = encodeOutcome o' from rfl, hread] at h
      split at h
      · rw [Option.some.inj h]
      · simp at h
    | _ => simp [Event.appending, Event.type] at htype
  · simp at h

/-- The record of an attempt is the one that was written. -/
theorem recordOf_event {b : AttemptRecord} (hp : ev.payload ≠ [])
    (h : recordOf limits (ev.appending whole acknowledged) = some b) :
    ev = .attemptIssued b ∨ ev = .attemptTransition b := by
  unfold recordOf at h
  split at h
  next htype =>
    have hread : ∀ a, ev.payload = encodeAttempt a → (decodeAttempt limits).exactly (encodeAttempt a) = some b → a = b := by
      intro a ha hdecoded
      rw [ha] at hp
      obtain ⟨-, hfit, himage⟩ := encoded_ne_nil hp
      rw [encodeAttempt, himage, (@reads_attempt limits a hfit).exactly] at hdecoded
      split at hdecoded
      · exact Option.some.inj hdecoded
      · simp at hdecoded
    cases ev with
    | attemptIssued a =>
      rw [hread a rfl h]
      exact .inl rfl
    | attemptTransition a =>
      rw [hread a rfl h]
      exact .inr rfl
    | _ => simp [Event.appending, Event.type] at htype
  · simp at h

end Entries

/-! ## Commits in the log -/

section Stores

variable {limits : RuntimeLimits} {live : Incarnation} {cause : Option Operation} {env : CallEnv} {s t : DurableStore}

/-- An acknowledged append has put the whole record into the file. -/
theorem append_whole {j j' : Journal} {type : RecordType} {payload file file' : Bytes} {io : WriteIo} {status : Status}
    (h : j.append type payload io file = (status, j', file')) (hs : status.code = .ok) :
    file'.length = file.length + (kRecordHeaderBytes + payload.length) := by
  by_cases hshut : j.readOnly = true ∨ j.isOpen = false
  · obtain ⟨status', hbad, happ⟩ := append_refused hshut type payload io file
    rw [h, Prod.mk.injEq] at happ
    exact absurd hs (happ.1 ▸ hbad)
  push Not at hshut
  rcases append_cases (by simpa using hshut.2) (by simpa using hshut.1) type payload io file with
    ⟨status', hbad, happ, -⟩ | ⟨-, -, -, written, happ⟩ | ⟨-, -, -, status', written, kept, hbad, happ⟩
  · rw [h, Prod.mk.injEq] at happ
    exact absurd hs (happ.1 ▸ hbad)
  · rw [h, Prod.mk.injEq, Prod.mk.injEq] at happ
    rw [happ.2.2, List.length_append, length_buildRecordImage]
  · rw [h, Prod.mk.injEq] at happ
    exact absurd hs (happ.1 ▸ hbad)

/-- **`commit_cases`**: an acknowledged record is whole and has had its effect; any other has had none, and it
was tried unless it could not be encoded. -/
theorem commit_cases (s : DurableStore) (what : String) {ev : Event} (hdoc : ev.isDocument = true → ev.Ok s.limits) :
    ((s.commit what ev).1.code = .ok ∧ s.readOnly = false ∧ ev.payload ≠ [] ∧ ev.Ok s.limits ∧
        (s.commit what ev).2.state.tables = (applyEvent s.limits s.state ev).tables ∧
        (s.commit what ev).2.directory.log = s.directory.log ++ [ev.appending true true]) ∨
      ((s.commit what ev).1.code ≠ .ok ∧ (s.commit what ev).2.state.tables = s.state.tables ∧
        ((s.commit what ev).2.directory.log = s.directory.log ∧ (s.readOnly = true ∨ ev.payload = []) ∨
          ev.payload ≠ [] ∧ ∃ whole acknowledged,
            (s.commit what ev).2.directory.log = s.directory.log ++ [ev.appending whole acknowledged])) := by
  by_cases hs : (s.commit what ev).1.code = .ok
  · left
    obtain ⟨hmode, hp, hok, q, hq⟩ := commit_ok hdoc hs
    refine ⟨hs, hmode, hp, hok, by rw [hq]; rfl, ?_⟩
    unfold DurableStore.commit at hs ⊢
    rw [if_neg (by simp [hmode]), if_neg hp] at hs ⊢
    rcases happ : s.journal.append ev.type ev.payload (s.faults.headD .ok) (s.directory.journal.getD []) with
      ⟨status, j, file⟩
    rw [appendAndApply_eq s ev.type ev.payload happ] at hs ⊢
    by_cases hcode : status.code ≠ .ok
    · rw [if_pos hcode] at hs
      exact absurd hs hcode
    rw [if_neg hcode]
    push Not at hcode
    have hentry : (s.appended ev.type ev.payload status file).log = s.directory.log ++ [ev.appending true true] := by
      simp [DurableStore.appended, Event.appending, append_whole happ hcode, hcode]
    split
    · exact hentry
    · exact hentry
  · right
    refine ⟨hs, commit_failed_tables hs, ?_⟩
    unfold DurableStore.commit
    by_cases hmode : s.readOnly = true
    · rw [if_pos hmode]
      exact .inl ⟨rfl, .inl hmode⟩
    rw [if_neg hmode]
    by_cases hp : ev.payload = []
    · rw [if_pos hp]
      exact .inl ⟨rfl, .inr hp⟩
    rw [if_neg hp]
    rcases happ : s.journal.append ev.type ev.payload (s.faults.headD .ok) (s.directory.journal.getD []) with
      ⟨status, j, file⟩
    rw [appendAndApply_eq s ev.type ev.payload happ]
    have hentry : (s.appended ev.type ev.payload status file).log = s.directory.log ++ [ev.appending
        (decide (file.length = (s.directory.journal.getD []).length + (kRecordHeaderBytes + ev.payload.length)))
        (decide (status.code = .ok))] := rfl
    have hlog : ∀ u : DurableStore, u.directory = s.appended ev.type ev.payload status file → ∃ whole acknowledged,
        u.directory.log = s.directory.log ++ [ev.appending whole acknowledged] :=
      fun u hu => ⟨_, _, hu ▸ hentry⟩
    refine .inr ⟨hp, hlog _ ?_⟩
    split
    · rfl
    split <;> rfl

/-- The end of an attempt: its last record failed and nothing changed, or its outcome was tried too. -/
theorem settle_cases (s : DurableStore) (a : AttemptRecord) (o : ReconciliationOutcome) :
    ((s.settle a o).2.state.tables = s.state.tables ∧ ((s.settle a o).2.directory.log = s.directory.log ∨
        (Event.attemptTransition a).payload ≠ [] ∧ ∃ whole acknowledged, (s.settle a o).2.directory.log =
          s.directory.log ++ [(Event.attemptTransition a).appending whole acknowledged])) ∨
      (AttemptOk s.limits a ∧ (Event.attemptTransition a).payload ≠ [] ∧
        (∃ outcomes, (s.settle a o).2.state.tables =
          ({ applyAttempt s.limits a s.state with outcomes := outcomes } : DurableState).tables) ∧
        ∃ whole acknowledged, (s.settle a o).2.directory.log = s.directory.log ++
          [(Event.attemptTransition a).appending true true, (Event.outcomeCommit o).appending whole acknowledged]) := by
  have hfirst := @commit_cases s "attempt" (.attemptTransition a) (by simp [Event.isDocument])
  have hsecond := @commit_cases (s.transitionAttempt a).2 "outcome" (.outcomeCommit o) (by simp [Event.isDocument])
  unfold DurableStore.settle
  rcases hfirst with ⟨hcode, hmode, hp, hok, htables, hlog⟩ | ⟨hcode, htables, hentry⟩
  · right
    have hnot : ¬ (s.transitionAttempt a).1.code ≠ .ok := by simpa [DurableStore.transitionAttempt] using hcode
    simp only [if_neg hnot]
    refine ⟨hok, hp, ?_⟩
    have hmode' : (s.transitionAttempt a).2.readOnly = false := (commit_readOnly s _ _).trans hmode
    rcases hsecond with ⟨-, -, -, -, htables', hlog'⟩ | ⟨-, htables', ⟨-, hno⟩ | ⟨-, whole, acknowledged, hlog'⟩⟩
    · refine ⟨⟨keepLast s.limits.maxRetainedOutcomes.toNat ((applyAttempt s.limits a s.state).outcomes ++ [o]),
        htables'.trans ?_⟩, true, true, ?_⟩
      · rw [← applyEvent_tables, DurableStore.transitionAttempt, commit_limits, htables, applyEvent_tables]
        rfl
      · rw [show ((s.transitionAttempt a).2.commitOutcome o).2.directory.log = _ from hlog', DurableStore.transitionAttempt,
          hlog, List.append_assoc]
        rfl
    · rcases hno with hread | hempty
      · simp [hmode'] at hread
      · exact absurd hempty (outcome_payload o)
    · refine ⟨⟨(applyAttempt s.limits a s.state).outcomes, htables'.trans htables⟩, whole, acknowledged, ?_⟩
      rw [show ((s.transitionAttempt a).2.commitOutcome o).2.directory.log = _ from hlog', DurableStore.transitionAttempt,
        hlog, List.append_assoc]
      rfl
  · left
    have hnot : (s.transitionAttempt a).1.code ≠ .ok := hcode
    simp only [if_pos hnot]
    refine ⟨htables, ?_⟩
    rcases hentry with ⟨hsame, -⟩ | ⟨hp, hmore⟩
    · exact .inl hsame
    · exact .inr ⟨hp, hmore⟩

end Stores

/-- The commits of a step: those of a call, or those of a boot after it has read the files. -/
inductive Segment (limits : RuntimeLimits) (p : Process) (v : View) : Step → Prop
  | idle {a : Step} (htables : (p.step a).2.state.tables = v.memory) (hlog : (p.step a).2.log = v.log) :
      Segment limits p v a
  | call {e : Engine} {operation : Operation} {env : CallEnv} (hp : p = .up e)
      (h : Paired limits e.live (some operation) env e.store (e.call env operation).2.store) :
      Segment limits p v (.call operation env)
  | boot {a : Step} {u : View} {s t : DurableStore} {live : Incarnation} {env : CallEnv} (hu : Reopened limits v u)
      (hs : s.state.tables = u.memory) (hlog : s.directory.log = v.log) (hbound : s.limits = limits)
      (h : Paired limits live none env s t) (htables : (p.step a).2.state.tables = t.state.tables)
      (hlog' : (p.step a).2.log = t.directory.log) : Segment limits p v a

/-- **`step_segment`**. -/
theorem step_segment {limits : RuntimeLimits} {p : Process} {v : View} (h : Kept limits p v) (a : Step)
    (hlimits : ∀ options opening id env, a = .boot options opening id env → options.limits = limits) :
    Segment limits p v a := by
  have hidle : (p.step a).2 = p → Segment limits p v a := by
    intro hsame
    refine .idle ?_ ?_
    · rw [hsame]
      exact h.tables.symm
    · rw [hsame]
      exact h.log.symm
  cases p with
  | up e =>
    cases a with
    | boot options opening id env => exact hidle rfl
    | exit => exact .idle h.tables.symm h.log.symm
    | call operation env => exact .call rfl (call_paired h.consistent env operation)
  | down dir last =>
    cases a with
    | call operation env => exact hidle rfl
    | exit => exact hidle rfl
    | boot options opening id env =>
      have hoptions := hlimits options opening id env rfl
      subst hoptions
      have htables := h.tables
      have hlog := h.log
      cases h with
      | down h =>
        rcases hopen : DurableStore.open options.limits options.createIfMissing options.readOnly opening dir with
          ⟨dir', answer⟩
        obtain ⟨hbad, hgood⟩ := h.open hopen
        have hstep : Process.step (.down dir last) (.boot options opening id env) =
            Process.boot dir last options opening id env := rfl
        unfold Process.boot at hstep
        rw [hopen] at hstep
        cases answer with
        | error status =>
          refine .idle ?_ ?_
          · rw [hstep]
            exact htables.symm
          · rw [hstep]
            exact (hbad status rfl).log.symm
        | ok result =>
          obtain ⟨opened, report⟩ := result
          obtain ⟨-, u, hreopened, hu⟩ := hgood opened report rfl
          have hlog' : opened.directory.log = v.log := by rw [← hu.log, hreopened.log]
          have hpaired : ∃ live, Paired options.limits live none env opened
              (bootStore (Engine.start options id env opened)) := by
            cases hmode : options.readOnly with
            | true =>
              refine ⟨bootLive opened id, ?_⟩
              unfold Engine.start
              rw [if_pos hmode]
              exact .refl
            | false => exact ⟨_, start_paired id env hu.handle.bound hu.handle.tables hmode⟩
          obtain ⟨live, hpaired⟩ := hpaired
          simp only at hstep
          cases hstart : Engine.start options id env opened with
          | error failed =>
            rw [hstart] at hpaired hstep
            exact .boot hreopened hu.memory.symm hlog' hu.handle.bound hpaired (by rw [hstep]; rfl) (by rw [hstep]; rfl)
          | ok e =>
            rw [hstart] at hpaired hstep
            exact .boot hreopened hu.memory.symm hlog' hu.handle.bound hpaired (by rw [hstep]; rfl) (by rw [hstep]; rfl)

/-- Reading the files keeps what every record preserves. -/
theorem Reopened.memory {limits : RuntimeLimits} {v u : View} {P : DurableState → Prop} (h : Reopened limits v u)
    (hsound : v.Sound limits)
    (hwrite : ∀ {st : DurableState} {ev : Event} {live : Incarnation} {cause : Option Operation}, P st →
      Write limits live cause st ev → ev.Ok limits → ev.Fits limits → P (applyEvent limits st ev))
    (hp : P v.memory) : P u.memory := by
  cases h with
  | same hnone => exact hp
  | caughtUp ev hsome hfits hok =>
    obtain ⟨live, cause, hw⟩ := hsound.writable ev hsome
    exact hwrite hp hw hok hfits

/-- What every step preserves, with its commits at hand. -/
theorem run_segment {limits : RuntimeLimits} {allowed : Process → Step → Prop} {J : Process → View → Prop} {p : Process}
    (hstart : J (.down {} {}) View.initial)
    (hstep : ∀ {p : Process} {a : Step} {v w : View}, Kept limits p v → J p v → allowed p a → Segment limits p v a →
      Progress limits p a v w → Kept limits (p.step a).2 w → J (p.step a).2 w)
    (horderly : ∀ p a, allowed p a → p.Orderly a) (h : Run limits allowed p) : ∃ v, Kept limits p v ∧ J p v := by
  induction h with
  | start => exact ⟨View.initial, .down (.blank ⟨rfl, rfl⟩ rfl rfl), hstart⟩
  | step h a ha hlimits ih =>
    obtain ⟨v, hv, hj⟩ := ih
    obtain ⟨w, hw, hprogress⟩ := step_progress hv (horderly _ a ha) hlimits
    exact ⟨w, hw, hstep hv hj ha (step_segment hv a hlimits) hprogress hw⟩

/-! ## Ambiguity -/

/-- Every attempt has left the process: `Dispatch` issues and dispatches in one record. -/
def Sent (s : DurableState) : Prop := ∀ k a, s.attempts.find? k = some a → a.state ≠ .issued

/-- An outcome that is not a verification says that it is ambiguous. -/
def Appending.Surfaced (x : Appending) : Prop :=
  ∀ o, outcomeOf x = some o → o.ambiguous = decide (o.terminalState ≠ .verified)

/-- The fence of a step is refused, or it meets no attempt in flight. -/
def Process.Unopposed (p : Process) (a : Step) : Prop :=
  ∀ e f env, p = .up e → a = .call (.putFence f) env → e.store.readOnly = false → f.id.empty = false →
    f.scope.empty = false → ∀ k b, e.store.state.attempts.find? k = some b → b.state.isTerminal = false →
      f.covers b.scope b.subject b.epoch = false

section Ambiguity

variable {limits : RuntimeLimits} {live : Incarnation} {cause : Option Operation} {env : CallEnv} {s t : DurableStore}
  {st : DurableState} {p : Process}

theorem transitionLegal_target {source target : AttemptState} (h : transitionLegal source target = true) :
    target ≠ .issued := by
  cases source <;> cases target <;> simp [transitionLegal] at h ⊢

theorem Sent.of_tables {st' : DurableState} (h : Sent st) (he : st.tables = st'.tables) : Sent st' := by
  obtain ⟨-, -, -, -, -, -, -, htable, -, -⟩ := tables_eq_iff.mp he
  unfold Sent
  rw [← htable]
  exact h

theorem Sent.applyAttempt {a : AttemptRecord} (h : Sent st) (ha : a.state ≠ .issued) :
    Sent (applyAttempt limits a st) := by
  intro k b hb
  rcases find?_applyAttempt hb with ⟨-, rfl⟩ | ⟨-, hold⟩
  · exact ha
  · exact h k b hold

theorem Sent.write {ev : Event} (h : Sent st) (hw : Write limits live cause st ev) : Sent (applyEvent limits st ev) := by
  cases hw with
  | attemptIssued p d now hcause hd hact hfree hnone => exact h.applyAttempt (by simp [Engine.newAttempt])
  | attemptTransition a a' hm hc => exact h.applyAttempt (transitionLegal_target hm.legal)
  | _ => exact h

/-- The flag of an outcome, by who ends the attempt. -/
theorem Settles.surfaced {a a' : AttemptRecord} {o : ReconciliationOutcome} (hs : Settles limits live cause st a a' o)
    (hsent : Sent st) (hnot : ∀ f, cause ≠ some (.putFence f)) :
    o.ambiguous = decide (o.terminalState ≠ .verified) := by
  have hstate := hsent _ a hs.moves.stored
  rw [hs.ambiguous, hs.outcome.terminalState]
  cases hs.why with
  | restart h ht =>
    subst h
    rcases ht with ht | ht <;> simp [ambiguityOf, hstate, ht]
  | fence f h ht => exact absurd h (hnot f)
  | complete r h ht hid hlive =>
    subst h
    have hterminal := hs.terminal
    cases hend : a'.state <;> simp [hend, AttemptState.isTerminal, ambiguityOf, AttemptState.isInconclusive] at hterminal ⊢
  | verify v h happlied ht hlive =>
    subst h
    cases hconfirms : v.confirmsEffect <;> simp [ambiguityOf, ht, hconfirms]

/-- Any other record. -/
theorem surfaced_other {ev : Event} (h : ∀ o, ev ≠ .outcomeCommit o) (whole acknowledged : Bool) :
    (ev.appending whole acknowledged).Surfaced := fun o ho => absurd (outcomeOf_event ho) (h o)

/-- The records of a call that is not a `PutFence`, and of a boot. -/
theorem Paired.surfaced (h : Paired limits live cause env s t) (hlim : s.limits = limits)
    (hnot : ∀ f, cause ≠ some (.putFence f)) (hsent : Sent s.state) (hlog : ∀ x ∈ s.directory.log, x.Surfaced) :
    t.limits = limits ∧ Sent t.state ∧ ∀ x ∈ t.directory.log, x.Surfaced := by
  have hadd : ∀ {l : List Appending} {x : Appending}, (∀ y ∈ l, y.Surfaced) → x.Surfaced →
      ∀ y ∈ l ++ [x], y.Surfaced := by
    intro l x hl hx y hy
    rcases List.mem_append.mp hy with hold | hnew
    · exact hl y hold
    · rw [List.mem_singleton.mp hnew]
      exact hx
  induction h with
  | refl => exact ⟨hlim, hsent, hlog⟩
  | @commit t h what ev he hlone ih =>
    obtain ⟨hbound, hst, hall⟩ := ih
    have hother : ∀ o, ev ≠ .outcomeCommit o := by
      rintro o rfl
      exact hlone
    refine ⟨(commit_limits t what ev).trans hbound, ?_⟩
    rcases commit_cases t what (fun hdoc => by rw [hbound]; exact he.document hdoc) with
      ⟨-, -, -, -, htables, hnew⟩ | ⟨-, htables, ⟨hsame, -⟩ | ⟨-, whole, acknowledged, hnew⟩⟩
    · rw [hbound] at htables
      refine ⟨(hst.write he).of_tables htables.symm, ?_⟩
      rw [hnew]
      exact hadd hall (surfaced_other hother _ _)
    · refine ⟨hst.of_tables htables.symm, ?_⟩
      rw [hsame]
      exact hall
    · refine ⟨hst.of_tables htables.symm, ?_⟩
      rw [hnew]
      exact hadd hall (surfaced_other hother _ _)
  | @settle t h a a' o hs ih =>
    obtain ⟨hbound, hst, hall⟩ := ih
    have htransition : ∀ whole acknowledged, ((Event.attemptTransition a').appending whole acknowledged).Surfaced :=
      surfaced_other (by simp)
    refine ⟨(settle_limits t a' o).trans hbound, ?_⟩
    rcases settle_cases t a' o with ⟨htables, hsame | ⟨-, whole, acknowledged, hnew⟩⟩ |
      ⟨-, -, ⟨outcomes, htables⟩, whole, acknowledged, hnew⟩
    · refine ⟨hst.of_tables htables.symm, ?_⟩
      rw [hsame]
      exact hall
    · refine ⟨hst.of_tables htables.symm, ?_⟩
      rw [hnew]
      exact hadd hall (htransition _ _)
    · refine ⟨Sent.of_tables ?_ htables.symm, ?_⟩
      · exact hst.applyAttempt (transitionLegal_target hs.moves.legal)
      · have houtcome : ((Event.outcomeCommit o).appending whole acknowledged).Surfaced := by
          intro o' ho'
          injection outcomeOf_event ho' with heq
          rw [← heq]
          exact hs.surfaced hst hnot
        rw [hnew, show ∀ x y : Appending, [x, y] = [x] ++ [y] from fun _ _ => rfl, ← List.append_assoc]
        exact hadd (hadd hall (htransition _ _)) houtcome
  | compact h hsame ih =>
    obtain ⟨hbound, hst, hall⟩ := ih
    obtain ⟨q, n, hstate⟩ := compact_state _ env.io env.snapshotNow env.headerNow
    refine ⟨(compact_limits _ _ _ _).trans hbound, ?_, ?_⟩
    · rw [hstate]
      exact hst
    · rw [compact_log]
      exact hall
  | faults h ih => exact ih

theorem fenceVictims_nil {f : FenceEntry} (h : ∀ k b, st.attempts.find? k = some b → b.state.isTerminal = false →
    f.covers b.scope b.subject b.epoch = false) : Engine.fenceVictims st f = [] := by
  rw [List.eq_nil_iff_forall_not_mem]
  intro b hb
  unfold Engine.fenceVictims at hb
  rw [mem_sortById, List.mem_filter] at hb
  obtain ⟨hmem, hvictim⟩ := hb
  obtain ⟨k, hk⟩ := OrdMap.mem_values_iff.mp hmem
  simp only [Bool.and_eq_true, Bool.not_eq_true', decide_eq_true_eq] at hvictim
  obtain ⟨⟨⟨hrunning, hscope⟩, hsubject⟩, hepoch⟩ := hvictim
  have hcovers := h k b hk hrunning
  simp [FenceEntry.covers, hscope, hsubject, hepoch] at hcovers

/-- A fence that meets no attempt in flight is the only record of its call. -/
theorem putFence_log {e : Engine} {f : FenceEntry} (h : e.store.readOnly = false → f.id.empty = false →
      f.scope.empty = false → ∀ k b, e.store.state.attempts.find? k = some b → b.state.isTerminal = false →
        f.covers b.scope b.subject b.epoch = false) :
    (e.putFence env f).2.store.directory.log = e.store.directory.log ∨
      ∃ g whole acknowledged, (e.putFence env f).2.store.directory.log =
        e.store.directory.log ++ [(Event.fencePut g).appending whole acknowledged] := by
  unfold Engine.putFence
  split
  · exact .inl rfl
  next hmode =>
    split
    · exact .inl rfl
    next hnamed =>
      split
      · exact .inl rfl
      next hbelow =>
        simp only [Bool.or_eq_true, not_or, Bool.not_eq_true] at hmode hnamed
        have hfree := h hmode hnamed.1 hnamed.2
        generalize (if f.createdUnixMs ≠ 0 then f.createdUnixMs else env.now) = now
        have hcases := @commit_cases (e.under env).store "fence" (.fencePut { f with createdUnixMs := now })
          (by simp [Event.isDocument])
        have hstored : (e.under env).store.putFence { f with createdUnixMs := now } =
            (e.under env).store.commit "fence" (.fencePut { f with createdUnixMs := now }) := rfl
        rw [← hstored] at hcases
        rcases hcases with ⟨hcode, -, -, -, htables, hlog⟩ | ⟨hcode, -, hentry⟩
        · obtain ⟨-, -, -, -, -, -, -, hattempts, -, -⟩ := tables_eq_iff.mp htables
          have hnone : Engine.fenceVictims ((e.under env).store.putFence { f with createdUnixMs := now }).2.state
              { f with createdUnixMs := now } = [] := by
            refine fenceVictims_nil ?_
            rw [hattempts]
            exact hfree
          simp only [hcode, ne_eq, not_true_eq_false, if_false, hnone, DurableStore.settleAll, Status.ok]
          rw [(maybeCompact_state _ env).2]
          exact .inr ⟨_, _, _, hlog⟩
        · simp only [if_pos hcode]
          rcases hentry with ⟨hsame, -⟩ | ⟨-, whole, acknowledged, hlog⟩
          · exact .inl hsame
          · exact .inr ⟨_, _, _, hlog⟩

/-- **`ambiguity_surfaced`**. -/
theorem ambiguity_surfaced (h : Run limits (fun p a => p.Orderly a ∧ p.Unopposed a) p) :
    ∀ x ∈ p.log, ∀ o, outcomeOf x = some o → o.ambiguous = decide (o.terminalState ≠ .verified) := by
  have hview : ∃ v, Kept limits p v ∧ (v.Sound limits ∧ Sent v.memory ∧ ∀ x ∈ v.log, x.Surfaced) := by
    refine run_segment (J := fun _ v => v.Sound limits ∧ Sent v.memory ∧ ∀ x ∈ v.log, x.Surfaced)
      ⟨.of_none rfl, fun k a ha => by simp [View.initial, DurableState.tables, DurableState.core] at ha,
        fun x hx => by simp [View.initial] at hx⟩ ?_ (fun _ _ ha => ha.1) h
    rintro p a v w hv ⟨hsound, hsent, hall⟩ ⟨-, hfree⟩ hsegment hprogress hw
    refine ⟨hprogress.sound hsound, hprogress.memory hsound (fun hst hwr _ _ => hst.write hwr) hsent, ?_⟩
    rw [hw.log]
    cases hsegment with
    | idle htables hlog =>
      rw [hlog]
      exact hall
    | @call e operation env hp hpaired =>
      subst hp
      have hbefore : ∀ x ∈ e.store.directory.log, x.Surfaced := by
        rw [show e.store.directory.log = v.log from hv.log.symm]
        exact hall
      by_cases hfence : ∃ f, operation = .putFence f
      · obtain ⟨f, rfl⟩ := hfence
        show ∀ x ∈ (e.putFence env f).2.store.directory.log, x.Surfaced
        rcases @putFence_log env e f (hfree e f env rfl rfl) with hsame | ⟨g, whole, acknowledged, hnew⟩
        · rw [hsame]
          exact hbefore
        · rw [hnew]
          intro x hx
          rcases List.mem_append.mp hx with hold | hlast
          · exact hbefore x hold
          · rw [List.mem_singleton.mp hlast]
            exact surfaced_other (by simp) _ _
      · refine (hpaired.surfaced hv.consistent.store ?_ (hsent.of_tables ?_) hbefore).2.2
        · intro f heq
          exact hfence ⟨f, Option.some.inj heq⟩
        · rw [hv.tables]
          rfl
    | boot hu hs hlog hbound hpaired htables hlog' =>
      rw [hlog']
      refine (hpaired.surfaced hbound (by simp) ?_ ?_).2.2
      · have hread := hu.memory hsound (fun hst hwr _ _ => hst.write hwr) hsent
        rw [← hs] at hread
        exact hread
      · rw [hlog]
        exact hall
  obtain ⟨v, hv, -, -, hall⟩ := hview
  rw [← hv.log]
  exact hall

end Ambiguity

/-- The client reports that the attempt failed. -/
def sampleFailure : Step := .call (.complete ⟨1, 1, FixedBytes.zero, FixedBytes.zero, .failed, 1, .none⟩) {}

theorem unopposed_other {p : Process} {a : Step} (h : ∀ f env, a ≠ .call (.putFence f) env) : p.Unopposed a :=
  fun _ f env _ ha => absurd ha (h f env)

theorem ambiguity_surfaced_failure : ∃ x ∈ (sampleFlight.after sampleFailure).log, ∃ o, outcomeOf x = some o ∧
    o.terminalState = .failed ∧ o.ambiguous = true := by
  have hlog : (((sampleFlight.after sampleFailure).log.filterMap outcomeOf).map fun o => o.terminalState) = [.failed] := by
    rw [sampleFlight_eq]
    decide +kernel
  have hflight : Run {} (fun p a => p.Orderly a ∧ p.Unopposed a) sampleFlight := by
    apply sampleFlight_allowed
    · exact ⟨trivial, unopposed_other (by simp)⟩
    · exact ⟨.inl rfl, unopposed_other (by simp)⟩
    · exact ⟨.inl rfl, unopposed_other (by simp)⟩
    · exact ⟨.inl rfl, unopposed_other (by simp)⟩
  have hended : Run {} (fun p a => p.Orderly a ∧ p.Unopposed a) (sampleFlight.after sampleFailure) :=
    hflight.after ⟨.inl rfl, unopposed_other (by simp [sampleFailure])⟩ (by simp [sampleFailure])
  obtain ⟨o, ho, hstate⟩ := List.mem_map.mp (hlog ▸ List.mem_cons_self ..)
  obtain ⟨x, hx, hout⟩ := List.mem_filterMap.mp ho
  refine ⟨x, hx, o, hout, hstate, ?_⟩
  rw [ambiguity_surfaced hended x hx o hout, hstate]
  rfl

/-- The attempt was dispatched, and the outcome that a fence gave it says that nothing is ambiguous. -/
theorem fence_hides_ambiguity : ∃ p, Run {} Process.Orderly p ∧ (p.state.attempts.find? 1).any (fun a =>
      a.transitions.any fun t => t.target = .dispatched) = true ∧
    ∃ x ∈ p.log, ∃ o, outcomeOf x = some o ∧ o.attempt = 1 ∧ o.terminalState = .fenced ∧ o.ambiguous = false := by
  have hfacts : ((sampleFlight.after (.call (.putFence (sampleFence ⟨[], .inl rfl⟩ 5)) {})).log.filterMap outcomeOf).map
      (fun o => (o.attempt, o.terminalState, o.ambiguous)) = [(1, .fenced, false)] ∧
      ((sampleFlight.after (.call (.putFence (sampleFence ⟨[], .inl rfl⟩ 5)) {})).state.attempts.find? 1).any (fun a =>
        a.transitions.any fun t => t.target = .dispatched) = true := by
    rw [sampleFlight_eq]
    decide +kernel
  obtain ⟨hlog, hdispatched⟩ := hfacts
  have hrun : Run {} Process.Orderly (sampleFlight.after (.call (.putFence (sampleFence ⟨[], .inl rfl⟩ 5)) {})) :=
    sampleFlight_run.after (.inl rfl) (by simp)
  refine ⟨_, hrun, hdispatched, ?_⟩
  obtain ⟨o, ho, hfields⟩ := List.mem_map.mp (hlog ▸ List.mem_cons_self ..)
  obtain ⟨x, hx, hout⟩ := List.mem_filterMap.mp ho
  rw [Prod.mk.injEq, Prod.mk.injEq] at hfields
  exact ⟨x, hx, o, hout, hfields⟩

/-! ## Attempts that have ended -/

/-- Every attempt that has ended has an outcome in the log. -/
def Finished (s : DurableState) (log : List Appending) : Prop :=
  ∀ k a, s.attempts.find? k = some a → a.state.isTerminal = true →
    ∃ x ∈ log, x.whole = true ∧ ∃ o, outcomeOf x = some o ∧ o.attempt = k ∧ o.terminalState = a.state

/-- No outcome was cut off, and no end of an attempt was reported as failed although it is in the file. -/
def Appending.Undivided (limits : RuntimeLimits) (x : Appending) : Prop :=
  (x.type = .outcomeCommit → x.whole = true) ∧
    ∀ b, recordOf limits x = some b → b.state.isTerminal = true → x.whole = true → x.acknowledged = true

/-- The I/O of a step does not separate the end of an attempt from its outcome. -/
def Process.Undivided (limits : RuntimeLimits) (p : Process) (a : Step) : Prop :=
  ∀ x ∈ p.appends a, x.Undivided limits

section Ends

variable {limits : RuntimeLimits} {live : Incarnation} {cause : Option Operation} {env : CallEnv} {s t : DurableStore}
  {st : DurableState} {log : List Appending} {p : Process}

theorem Finished.of_tables {st' : DurableState} (h : Finished st log) (he : st.tables = st'.tables) : Finished st' log := by
  obtain ⟨-, -, -, -, -, -, -, htable, -, -⟩ := tables_eq_iff.mp he
  unfold Finished
  rw [← htable]
  exact h

theorem Finished.grow (h : Finished st log) (rest : List Appending) : Finished st (log ++ rest) := by
  intro k a ha hterminal
  obtain ⟨x, hx, hmatch⟩ := h k a ha hterminal
  exact ⟨x, List.mem_append_left _ hx, hmatch⟩

theorem Finished.applyAttempt {b : AttemptRecord} (h : Finished st log)
    (hb : b.state.isTerminal = true → ∃ x ∈ log, x.whole = true ∧ ∃ o, outcomeOf x = some o ∧ o.attempt = b.id ∧
      o.terminalState = b.state) : Finished (applyAttempt limits b st) log := by
  intro k a ha hterminal
  rcases find?_applyAttempt ha with ⟨rfl, rfl⟩ | ⟨-, hold⟩
  · exact hb hterminal
  · exact h k a hold hterminal

/-- A record that ends no attempt. -/
theorem Finished.write {ev : Event} (h : Finished st log) (hw : Write limits live cause st ev)
    (hrunning : ∀ b, ev = .attemptTransition b → b.state.isTerminal = false) :
    Finished (applyEvent limits st ev) log := by
  cases hw with
  | attemptIssued p d now hcause hd hact hfree hnone =>
    exact h.applyAttempt (by simp [Engine.newAttempt, AttemptState.isTerminal])
  | attemptTransition a a' hm hc => exact h.applyAttempt (by simp [hrunning a' rfl])
  | _ => exact h

/-- The records of a call or a boot whose outcomes all reached the file. -/
theorem Paired.finished (h : Paired limits live cause env s t) (hlim : s.limits = limits)
    (hst : Finished s.state s.directory.log)
    (hwhole : ∀ x ∈ t.directory.log, x.type = .outcomeCommit → x.whole = true) :
    t.limits = limits ∧ Finished t.state t.directory.log := by
  induction h with
  | refl => exact ⟨hlim, hst⟩
  | @commit t h what ev he hlone ih =>
    obtain ⟨hbound, hfin⟩ := ih fun x hx => hwhole x ((commit_log t what ev).subset hx)
    refine ⟨(commit_limits t what ev).trans hbound, ?_⟩
    have hrunning : ∀ b, ev = .attemptTransition b → b.state.isTerminal = false := by
      rintro b rfl
      exact hlone
    rcases commit_cases t what (fun hdoc => by rw [hbound]; exact he.document hdoc) with
      ⟨-, -, -, -, htables, hnew⟩ | ⟨-, htables, ⟨hsame, -⟩ | ⟨-, whole, acknowledged, hnew⟩⟩
    · rw [hbound] at htables
      rw [hnew]
      exact ((hfin.write he hrunning).of_tables htables.symm).grow _
    · rw [hsame]
      exact hfin.of_tables htables.symm
    · rw [hnew]
      exact (hfin.of_tables htables.symm).grow _
  | @settle t h a a' o hs ih =>
    obtain ⟨hbound, hfin⟩ := ih fun x hx => hwhole x ((settle_log t a' o).subset hx)
    refine ⟨(settle_limits t a' o).trans hbound, ?_⟩
    rcases settle_cases t a' o with ⟨htables, hsame | ⟨-, whole, acknowledged, hnew⟩⟩ |
      ⟨-, -, ⟨outcomes, htables⟩, whole, acknowledged, hnew⟩
    · rw [hsame]
      exact hfin.of_tables htables.symm
    · rw [hnew]
      exact (hfin.of_tables htables.symm).grow _
    · rw [hnew] at hwhole ⊢
      refine Finished.of_tables ?_ htables.symm
      refine (hfin.grow _).applyAttempt fun _ => ?_
      refine ⟨(Event.outcomeCommit o).appending whole acknowledged, by simp, hwhole _ (by simp) rfl, o,
        outcomeOf_commit hs.ok _ _, hs.outcome.attempt, hs.outcome.terminalState⟩
  | @compact t h hsame ih =>
    rw [compact_log] at hwhole
    obtain ⟨hbound, hfin⟩ := ih hwhole
    obtain ⟨q, n, hstate⟩ := compact_state t env.io env.snapshotNow env.headerNow
    refine ⟨(compact_limits t _ _ _).trans hbound, ?_⟩
    rw [compact_log, hstate]
    exact hfin
  | faults h ih => exact ih hwhole

/-- Reading the files does not find an end without its outcome. -/
theorem Reopened.finished {v u : View} (h : Reopened limits v u) (hsound : v.Sound limits) (hmarked : v.Marked)
    (hlog : ∀ x ∈ v.log, x.Undivided limits) (hv : Finished v.memory v.log) : Finished u.memory v.log := by
  cases h with
  | same hnone => exact hv
  | caughtUp ev hsome hfits hok =>
    obtain ⟨live, cause, hw⟩ := hsound.writable ev hsome
    refine hv.write hw ?_
    rintro b rfl
    have hread : recordOf limits ((Event.attemptTransition b).appending true false) = some b := by
      unfold recordOf
      rw [if_pos (.inr rfl)]
      exact decodeAttempt_encoded hok hfits.encoded
    by_contra hterminal
    have hacknowledged := (hlog _ (hmarked _ hsome)).2 b hread (by simpa using hterminal) rfl
    simp [Event.appending] at hacknowledged

/-- **`finished_has_outcome`**. -/
theorem finished_has_outcome (h : Run limits (fun p a => p.Orderly a ∧ p.Undivided limits a) p) :
    Finished p.state p.log := by
  have hview : ∃ v, Kept limits p v ∧ (v.Sound limits ∧ v.Marked ∧ (∀ x ∈ v.log, x.Undivided limits) ∧
      Finished v.memory v.log) := by
    refine run_segment (J := fun _ v => v.Sound limits ∧ v.Marked ∧ (∀ x ∈ v.log, x.Undivided limits) ∧
      Finished v.memory v.log) ⟨.of_none rfl, ?_, by simp [View.initial], ?_⟩ ?_ (fun _ _ ha => ha.1) h
    · intro ev hev
      simp [View.initial] at hev
    · intro k a ha
      simp [View.initial, DurableState.tables, DurableState.core] at ha
    rintro p a v w hv ⟨hsound, hmarked, hlog, hfin⟩ ⟨-, hundivided⟩ hsegment hprogress hw
    have hlog' : ∀ x ∈ w.log, x.Undivided limits := by
      intro x hx
      rw [← List.take_append_drop v.log.length w.log] at hx
      rcases List.mem_append.mp hx with hold | hnew
      · rw [← List.prefix_iff_eq_take.mp hprogress.log] at hold
        exact hlog x hold
      · rw [← hv.appends hw] at hnew
        exact hundivided x hnew
    refine ⟨hprogress.sound hsound, ?_, hlog', ?_⟩
    · cases hprogress with
      | idle => exact hmarked
      | call e operation env h => exact h.marked hmarked
      | readOnly dir last opening id env hmode h => exact h.marked
      | boot dir last opening id env hmode h hacts => exact hacts.marked h.marked
    · have hwhole : ∀ x ∈ (p.step a).2.log, x.type = .outcomeCommit → x.whole = true := by
        rw [← hw.log]
        exact fun x hx => (hlog' x hx).1
      rw [hw.log, hw.tables]
      cases hsegment with
      | idle htables hsame =>
        rw [htables, hsame]
        exact hfin
      | @call e operation env hp hpaired =>
        subst hp
        rw [hv.log] at hfin
        refine (hpaired.finished hv.consistent.store (hfin.of_tables ?_) hwhole).2
        rw [hv.tables]
        rfl
      | boot hu hs hsame hbound hpaired htables hgrown =>
        rw [htables, hgrown]
        rw [hgrown] at hwhole
        have hread := hu.finished hsound hmarked hlog hfin
        rw [← hs, ← hsame] at hread
        exact (hpaired.finished hbound hread hwhole).2
  obtain ⟨v, hv, -, -, -, hfin⟩ := hview
  rw [hv.tables, hv.log] at hfin
  exact hfin

end Ends

theorem undivided_told {limits : RuntimeLimits} {p : Process} {a : Step}
    (h : ((p.appends a).all fun x => x.whole && x.acknowledged) = true) : p.Undivided limits a := by
  intro x hx
  have hx' := List.all_eq_true.mp h x hx
  rw [Bool.and_eq_true] at hx'
  exact ⟨fun _ => hx'.1, fun _ _ _ _ => hx'.2⟩

/-- The attempt as a client leaves it that reports its failure. -/
def sampleFailedAttempt : AttemptRecord :=
  sampleAttempt.move {} ⟨.dispatched, .failed, 1, FixedBytes.zero, 1, .attemptFailed, .none⟩

/-- Its outcome. -/
def sampleFailedOutcome : ReconciliationOutcome := makeOutcome sampleFailedAttempt .failed .attemptFailed true 1

theorem sample_completable : (sampleEngine 16 5).admitCompletion
    ⟨1, 1, FixedBytes.zero, FixedBytes.zero, .failed, 1, .none⟩ = .ok sampleAttempt := by
  rfl

theorem sample_fails : sampleFlight.step sampleFailure = (Status.ok, .up (Engine.on {} {} ⟨1, FixedBytes.zero⟩ 2
    (told (sampleEvents ++ [.attemptTransition sampleFailedAttempt, .outcomeCommit sampleFailedOutcome]))
    (sampleEvents ++ [.attemptTransition sampleFailedAttempt, .outcomeCommit sampleFailedOutcome]))) := by
  rw [sampleFlight_eq, told_append]
  apply complete_ends_recorded rfl sample_completable
  · rfl
  · rfl
  · rfl
  · rfl
  · decide
  · exact (brief_transition (by decide)).fits (sample_ample 16)
  · decide
  · exact (brief_outcome _).fits (sample_ample 16)
  · exact .inr (show (5 : UInt64) < 8192 by decide)

theorem finished_has_outcome_failure : (sampleFlight.after sampleFailure).state.attempts.find? 1 ≠ none ∧
    Finished (sampleFlight.after sampleFailure).state (sampleFlight.after sampleFailure).log := by
  have htold : ∀ {p q : Process} {a : Step} {status : Status}, p.step a = (status, q) →
      ((q.log.drop p.log.length).all fun x => x.whole && x.acknowledged) = true → p.Undivided {} a := by
    intro p q a status hstep hall
    apply undivided_told
    rw [Process.appends, hstep]
    exact hall
  have hflight : Run {} (fun p a => p.Orderly a ∧ p.Undivided {} a) sampleFlight := by
    apply sampleFlight_allowed
    · exact ⟨trivial, htold sample_boots_default rfl⟩
    · rw [sampleStart_eq]
      exact ⟨.inl rfl, htold (sample_intends 16) rfl⟩
    · rw [sampleIntended_eq]
      exact ⟨.inl rfl, htold (sample_observes 16) rfl⟩
    · rw [sampleObserved_eq]
      exact ⟨.inl rfl, htold (sample_issues 16 (by decide)) rfl⟩
  have hended : Run {} (fun p a => p.Orderly a ∧ p.Undivided {} a) (sampleFlight.after sampleFailure) := by
    refine hflight.after ⟨.inl rfl, htold sample_fails ?_⟩ (by simp [sampleFailure])
    rw [sampleFlight_eq]
    rfl
  refine ⟨?_, finished_has_outcome hended⟩
  rw [Process.after, sample_fails]
  decide +kernel

/-- A process that comes back after the outcome's append has failed. -/
def sampleBack : Process :=
  ((sampleFlight.after (.call sampleAbandoned.1 sampleAbandoned.2)).after .exit).after (.boot {} {} FixedBytes.zero {})

/-- What the process that comes back has taken: the failed attempt and a new epoch. -/
def backEvents : List Event := sampleEvents ++ [.attemptTransition sampleFailedAttempt, .epochAdvance 2]

/-- Its log also lists the outcome that was lost. -/
def backLog : List Appending :=
  told sampleEvents ++ told [.attemptTransition sampleFailedAttempt] ++
    [(Event.outcomeCommit sampleFailedOutcome).appending false false] ++ told [.epochAdvance 2]

theorem sampleBack_eq : sampleBack = .up (Engine.on {} {} ⟨2, FixedBytes.zero⟩ 7 backLog backEvents) := by
  have hcut : ∃ e, (Process.up (sampleEngine 16 5)).step (.call sampleAbandoned.1 sampleAbandoned.2) =
        (shortWriteStatus, .up e) ∧
      e.store.directory = (recorded {} {} (told sampleEvents ++ told [.attemptTransition sampleFailedAttempt] ++
        [(Event.outcomeCommit sampleFailedOutcome).appending false false])
        (sampleEvents ++ [.attemptTransition sampleFailedAttempt])).directory := by
    apply complete_cut_recorded rfl sample_completable
    · rfl
    · rfl
    · rfl
    · rfl
    · decide
    · exact (brief_transition (by decide)).fits (sample_ample 16)
    · exact (brief_outcome _).fits (sample_ample 16)
  obtain ⟨e, hstep, hdirectory⟩ := hcut
  have hbrief : ∀ x ∈ sampleEvents ++ [.attemptTransition sampleFailedAttempt], x.Brief := by
    intro x hx
    rcases List.mem_append.mp hx with hx | hx
    · exact sampleEvents_brief x hx
    · rw [List.mem_singleton.mp hx]
      exact brief_transition (by decide)
  have hok : ∀ x ∈ sampleEvents ++ [.attemptTransition sampleFailedAttempt], x.Ok {} := by
    intro x hx
    rcases List.mem_append.mp hx with hx | hx
    · exact sampleEvents_ok (by decide) x hx
    · rw [List.mem_singleton.mp hx]
      exact (show AttemptOk {} sampleFailedAttempt by decide)
  have hreopens := reopens_of_brief (sample_ample 16) hok hbrief (by decide)
  have hback : ∀ log last, Process.step (.down (recorded {} {} log
      (sampleEvents ++ [.attemptTransition sampleFailedAttempt])).directory last) (.boot {} {} FixedBytes.zero {}) =
        (Status.ok, .up (Engine.on {} {} ⟨2, FixedBytes.zero⟩ 7 (log ++ told [.epochAdvance 2])
          (sampleEvents ++ [.attemptTransition sampleFailedAttempt] ++ [.epochAdvance 2]))) := by
    intro log last
    apply reboot_recorded hreopens rfl rfl rfl
    · rfl
    · decide
    · rfl
    · intro x hx
      rw [List.mem_singleton.mp hx]
      exact ⟨trivial, (brief_epoch 2).fits (sample_ample 16)⟩
  rw [sampleBack, Process.after, Process.after, Process.after, sampleFlight_eq, hstep]
  rw [show (Process.up e).step .exit = (Status.ok, .down e.store.directory e.store.state) from rfl, hdirectory, hback]
  rfl

/-- The attempt has failed, the engine is up again, and there is no outcome. -/
theorem crash_loses_outcome : Run {} Process.Orderly sampleBack ∧ (∃ e, sampleBack = .up e) ∧
    (sampleBack.state.attempts.find? 1).map (fun a => a.state) = some .failed ∧
    ∀ x ∈ sampleBack.log, ∀ o, x.whole = true → outcomeOf x = some o → o.attempt ≠ 1 := by
  have hfacts : (sampleBack.runs fun e => (e.store.state.attempts.find? 1).map (fun a => a.state) = some .failed &&
      (e.store.directory.log.all fun x => !x.whole || (outcomeOf x).all fun o => o.attempt ≠ 1)) = true := by
    rw [sampleBack_eq]
    decide +kernel
  obtain ⟨e, he, hfacts⟩ := Process.runs_iff.mp hfacts
  rw [Bool.and_eq_true, decide_eq_true_eq] at hfacts
  have hrun : Run {} Process.Orderly sampleBack := by
    have hcut : Run {} Process.Orderly (sampleFlight.after (.call sampleAbandoned.1 sampleAbandoned.2)) :=
      sampleFlight_run.after (.inl rfl) (by simp)
    have hdown : Run {} Process.Orderly ((sampleFlight.after (.call sampleAbandoned.1 sampleAbandoned.2)).after .exit) :=
      hcut.after trivial (by simp)
    refine hdown.after trivial ?_
    rintro _ _ _ _ ⟨⟩
    rfl
  refine ⟨hrun, ⟨e, he⟩, ?_, ?_⟩
  · rw [he]
    exact hfacts.1
  · intro x hx o hwhole ho
    rw [he] at hx
    have hnone := List.all_eq_true.mp hfacts.2 x hx
    simpa [hwhole, ho] using hnone

end FabricReconciliation
