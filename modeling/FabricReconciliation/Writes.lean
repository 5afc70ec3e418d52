import FabricReconciliation.Cycle
import FabricReconciliation.Engine

/-!
# What a call may write

`Write limits live cause s e`: in state `s`, an engine of incarnation `live` that executes `cause` may
commit the record `e`. `Paired limits live cause env s s'`: the store `s'` comes from `s` by such commits,
where the record that ends an attempt is followed at once by its outcome, and by compactions; each with
any I/O outcome. `Commits W env s s'` forgets which records belong together.

* **`call_paired`**, **`call_commits`** — every call is such a sequence;
* **`start_paired`**, **`start_commits`** — and so is the writable part of a boot.
-/

namespace FabricReconciliation

open Lib

/-! ## One commit -/

theorem applyEvent_sequence (limits : RuntimeLimits) (s : DurableState) (q : RecordSequence) (e : Event) :
    applyEvent limits { s with sequence := q } e = { applyEvent limits s e with sequence := q } := by
  cases e <;> rfl

@[simp] theorem commit_limits (s : DurableStore) (what : String) (e : Event) :
    (s.commit what e).2.limits = s.limits := by
  unfold DurableStore.commit
  split
  · rfl
  split
  · rfl
  rcases happ : s.journal.append e.type e.payload (s.faults.headD .ok) (s.directory.journal.getD []) with
    ⟨status, j, file⟩
  rw [appendAndApply_eq s e.type e.payload happ]
  by_cases hs : status.code ≠ .ok
  · rw [if_pos hs]
  · rw [if_neg hs]
    cases applyPayload s.limits e.type e.payload { s.state with sequence := j.lastSequence } <;> rfl

@[simp] theorem commit_readOnly (s : DurableStore) (what : String) (e : Event) :
    (s.commit what e).2.readOnly = s.readOnly := by
  unfold DurableStore.commit
  split
  · rfl
  split
  · rfl
  · exact appendAndApply_readOnly s e.type e.payload

/-- An acknowledged commit has had its effect. -/
theorem commit_ok {s : DurableStore} {what : String} {e : Event} (hdoc : e.isDocument = true → e.Ok s.limits)
    (h : (s.commit what e).1.code = .ok) :
    s.readOnly = false ∧ e.payload ≠ [] ∧ e.Ok s.limits ∧
      ∃ q, (s.commit what e).2.state = { applyEvent s.limits s.state e with sequence := q } := by
  unfold DurableStore.commit at h ⊢
  by_cases hro : s.readOnly = true
  · simp [hro, DurableStore.readOnlyStatus] at h
  rw [if_neg hro] at h ⊢
  by_cases hp : e.payload = []
  · simp [hp] at h
  rw [if_neg hp] at h ⊢
  rcases happ : s.journal.append e.type e.payload (s.faults.headD .ok) (s.directory.journal.getD []) with
    ⟨status, j, file⟩
  rw [appendAndApply_eq s e.type e.payload happ] at h ⊢
  by_cases hs : status.code ≠ .ok
  · rw [if_pos hs] at h
    exact absurd h hs
  rw [if_neg hs] at h ⊢
  by_cases hok : e.Ok s.limits
  · have happly := applyPayload_event { s.state with sequence := j.lastSequence } hok hp
    rw [happly]
    exact ⟨by simpa using hro, hp, hok, j.lastSequence, applyEvent_sequence _ _ _ _⟩
  · have hnot : e.isDocument = false := by simpa using fun hd => hok (hdoc hd)
    obtain ⟨refused, hrefused⟩ := applyPayload_refused { s.state with sequence := j.lastSequence } hnot hok hp
    rw [hrefused] at h
    exact absurd h (by simp [applyPayload_error hrefused])

/-- An acknowledged commit has no reason to give. -/
theorem commit_status {s : DurableStore} {what : String} {e : Event} (h : (s.commit what e).1.code = .ok) :
    (s.commit what e).1 = Status.ok := by
  unfold DurableStore.commit at h ⊢
  by_cases hro : s.readOnly = true
  · simp [hro, DurableStore.readOnlyStatus] at h
  rw [if_neg hro] at h ⊢
  by_cases hp : e.payload = []
  · simp [hp] at h
  rw [if_neg hp] at h ⊢
  rcases happ : s.journal.append e.type e.payload (s.faults.headD .ok) (s.directory.journal.getD []) with
    ⟨status, j, file⟩
  rw [appendAndApply_eq s e.type e.payload happ] at h ⊢
  by_cases hs : status.code ≠ .ok
  · rw [if_pos hs] at h
    exact absurd h hs
  rw [if_neg hs] at h ⊢
  cases hap : applyPayload s.limits e.type e.payload { s.state with sequence := j.lastSequence } with
  | error refused =>
    rw [hap] at h
    exact absurd h (by simp [applyPayload_error hap])
  | ok state => rfl

/-- A failed commit has changed no table. -/
theorem commit_failed {s : DurableStore} {what : String} {e : Event} (h : (s.commit what e).1.code ≠ .ok) :
    ∃ q, (s.commit what e).2.state = { s.state with sequence := q } := by
  unfold DurableStore.commit at h ⊢
  by_cases hro : s.readOnly = true
  · rw [if_pos hro]
    exact ⟨s.state.sequence, rfl⟩
  rw [if_neg hro] at h ⊢
  by_cases hp : e.payload = []
  · rw [if_pos hp]
    exact ⟨s.state.sequence, rfl⟩
  rw [if_neg hp] at h ⊢
  rcases happ : s.journal.append e.type e.payload (s.faults.headD .ok) (s.directory.journal.getD []) with
    ⟨status, j, file⟩
  rw [appendAndApply_eq s e.type e.payload happ] at h ⊢
  by_cases hs : status.code ≠ .ok
  · rw [if_pos hs]
    exact ⟨s.state.sequence, rfl⟩
  rw [if_neg hs] at h ⊢
  cases hap : applyPayload s.limits e.type e.payload { s.state with sequence := j.lastSequence } with
  | error refused => exact ⟨j.lastSequence, rfl⟩
  | ok state => simp [hap, Status.ok] at h

/-- An acknowledged commit has not broken the journal. -/
theorem commit_journal {s : DurableStore} {what : String} {e : Event} (h : (s.commit what e).1.code = .ok) :
    (s.commit what e).2.journal.writeFailed = s.journal.writeFailed := by
  unfold DurableStore.commit at h ⊢
  by_cases hro : s.readOnly = true
  · rw [if_pos hro]
  rw [if_neg hro] at h ⊢
  by_cases hp : e.payload = []
  · rw [if_pos hp]
  rw [if_neg hp] at h ⊢
  rcases happ : s.journal.append e.type e.payload (s.faults.headD .ok) (s.directory.journal.getD []) with
    ⟨status, j, file⟩
  rw [appendAndApply_eq s e.type e.payload happ] at h ⊢
  by_cases hs : status.code ≠ .ok
  · rw [if_pos hs] at h
    exact absurd h hs
  rw [if_neg hs]
  have hj : j.writeFailed = s.journal.writeFailed := by
    by_cases hshut : s.journal.readOnly = true ∨ s.journal.isOpen = false
    · obtain ⟨status', -, happ'⟩ := append_refused hshut e.type e.payload (s.faults.headD .ok)
        (s.directory.journal.getD [])
      rw [happ, Prod.mk.injEq, Prod.mk.injEq] at happ'
      rw [happ'.2.1]
    push Not at hshut
    rcases append_cases (by simpa using hshut.2) (by simpa using hshut.1) e.type e.payload (s.faults.headD .ok)
      (s.directory.journal.getD []) with ⟨status', -, happ', -⟩ | ⟨-, hwf, -, written, happ'⟩ |
        ⟨-, -, -, status', written, kept, hs', happ'⟩
    · rw [happ, Prod.mk.injEq, Prod.mk.injEq] at happ'
      rw [happ'.2.1]
    · rw [happ, Prod.mk.injEq, Prod.mk.injEq] at happ'
      rw [happ'.2.1]
    · rw [happ, Prod.mk.injEq, Prod.mk.injEq] at happ'
      rw [happ'.1] at hs
      exact absurd hs' hs
  cases applyPayload s.limits e.type e.payload { s.state with sequence := j.lastSequence } <;> exact hj

/-- A commit has had its effect, or it has had none. -/
theorem commit_result {s : DurableStore} (what : String) {e : Event} (hdoc : e.isDocument = true → e.Ok s.limits) :
    (s.commit what e).1.code = .ok ∧ e.Ok s.limits ∧
        (∃ q, (s.commit what e).2.state = { applyEvent s.limits s.state e with sequence := q }) ∨
      (s.commit what e).1.code ≠ .ok ∧ ∃ q, (s.commit what e).2.state = { s.state with sequence := q } := by
  by_cases hs : (s.commit what e).1.code = .ok
  · obtain ⟨-, -, hok, hq⟩ := commit_ok hdoc hs
    exact .inl ⟨hs, hok, hq⟩
  · exact .inr ⟨hs, commit_failed hs⟩

/-- A compaction changes no table. -/
theorem compact_state (s : DurableStore) (io : CompactIo) (now headerNow : UnixMillis) :
    ∃ q n, (s.compact io now headerNow).2.state = { s.state with sequence := q, compactions := n } := by
  have hsame : ∃ q n, s.state = { s.state with sequence := q, compactions := n } :=
    ⟨s.state.sequence, s.state.compactions, rfl⟩
  unfold DurableStore.compact
  split
  · exact hsame
  simp only
  split
  · exact hsame
  split
  · exact hsame
  split
  · exact hsame
  · exact ⟨_, _, rfl⟩

@[simp] theorem compact_limits (s : DurableStore) (io : CompactIo) (now headerNow : UnixMillis) :
    (s.compact io now headerNow).2.limits = s.limits := by
  unfold DurableStore.compact
  split
  · rfl
  simp only
  split
  · rfl
  split
  · rfl
  split <;> rfl

/-! ## The attempt table -/

theorem find?_of_trimAttempts {rounds bound : Nat} {m : OrdMap UInt64 AttemptRecord} {k : UInt64}
    {a : AttemptRecord} (h : (trimAttempts rounds bound m).find? k = some a) : m.find? k = some a := by
  rw [OrdMap.find?_eq_some_iff] at h ⊢
  exact mem_trimAttempts h

/-- Trimming evicts terminal attempts only. -/
theorem find?_trimAttempts {bound : Nat} {k : UInt64} {a : AttemptRecord} (ha : a.state.isTerminal = false) :
    ∀ {rounds : Nat} {m : OrdMap UInt64 AttemptRecord}, m.find? k = some a →
      (trimAttempts rounds bound m).find? k = some a
  | 0, m, h => h
  | rounds + 1, m, h => by
    unfold trimAttempts
    split
    · split
      · exact h
      next victim hvictim =>
        refine find?_trimAttempts ha ?_
        rw [OrdMap.find?_erase, if_neg]
        · exact h
        · rintro rfl
          have hmem := List.mem_of_find?_eq_some hvictim
          have hterminal : victim.2.state.isTerminal = true := by simpa using List.find?_some hvictim
          rw [OrdMap.find?_eq_some_iff.mpr hmem, Option.some.injEq] at h
          rw [← h, hterminal] at ha
          exact absurd ha (by decide)
    · exact h

/-- What is in the table after a record of attempt `a`. -/
theorem find?_applyAttempt {limits : RuntimeLimits} {s : DurableState} {a b : AttemptRecord} {k : UInt64}
    (h : (applyAttempt limits a s).attempts.find? k = some b) :
    k = a.id ∧ b = a ∨ k ≠ a.id ∧ s.attempts.find? k = some b := by
  have h' := find?_of_trimAttempts h
  rw [OrdMap.find?_insert] at h'
  by_cases hk : k = a.id
  · rw [if_pos hk, Option.some.injEq] at h'
    exact .inl ⟨hk, h'.symm⟩
  · rw [if_neg hk] at h'
    exact .inr ⟨hk, h'⟩

/-- An in-flight attempt stays in the table, unless the record is its own. -/
theorem applyAttempt_keeps {limits : RuntimeLimits} {s : DurableState} {a b : AttemptRecord} {k : UInt64}
    (hb : b.state.isTerminal = false) (hk : k ≠ a.id) (h : s.attempts.find? k = some b) :
    (applyAttempt limits a s).attempts.find? k = some b := by
  refine find?_trimAttempts hb ?_
  rw [OrdMap.find?_insert_ne _ _ hk]
  exact h

theorem applyAttempt_stores {limits : RuntimeLimits} {s : DurableState} {a : AttemptRecord}
    (ha : a.state.isTerminal = false) : (applyAttempt limits a s).attempts.find? a.id = some a :=
  find?_trimAttempts ha (OrdMap.find?_insert_self _ _ _)

/-! ## The records a call may write -/

/-- What a writer of a bounded history makes of it: it records its transition, over the oldest one when the
history is full, or a full history stays. -/
inductive Continues (limits : RuntimeLimits) (a a' : AttemptRecord) : Prop
  | recorded (t : AttemptTransition) (front : List AttemptTransition) (h : a'.transitions = front ++ [t])
      (hsource : t.source = a.state) (htarget : t.target = a'.state)
      (hfront : front = a.transitions ∧ a.transitions.length < limits.maxAttemptTransitions.toNat ∨
        front = a.transitions.tail ∧ limits.maxAttemptTransitions.toNat ≤ a.transitions.length)
  | skipped (h : a'.transitions = a.transitions) (hfull : limits.maxAttemptTransitions.toNat ≤ a.transitions.length)

/-- A lifecycle step of a stored attempt: nothing but its state and its history changes. -/
structure Moves (limits : RuntimeLimits) (s : DurableState) (a a' : AttemptRecord) : Prop where
  stored : s.attempts.find? a.id = some a
  running : a.state.isTerminal = false
  legal : transitionLegal a.state a'.state = true
  same : a' = { a with state := a'.state, transitions := a'.transitions }
  grows : a'.transitions.length ≤ a.transitions.length + 1
  history : a.transitions ≠ [] → a.transitions.length ≤ limits.maxAttemptTransitions.toNat →
    a'.transitions ≠ [] ∧ a'.transitions.length ≤ limits.maxAttemptTransitions.toNat
  continues : Continues limits a a'

/-- Why an attempt moves. A boot has no operation. -/
inductive MoveCause (live : Incarnation) (cause : Option Operation) (a : AttemptRecord) (target : AttemptState) : Prop
  | restart (h : cause = none) (ht : target = .interrupted ∨ target = .abandoned)
  | fence (f : FenceEntry) (h : cause = some (.putFence f)) (ht : target = .fenced)
  | complete (r : CompletionRequest) (h : cause = some (.complete r)) (ht : target = r.target)
      (hid : a.id = r.attempt) (hlive : a.epoch = live.epoch ∧ a.boot = live.boot)
  | verify (v : VerificationEvidence) (h : cause = some (.verify v)) (happlied : a.state = .applied)
      (ht : target = if v.confirmsEffect then .verified else .failed)
      (hlive : a.epoch = live.epoch ∧ a.boot = live.boot)

/-- The outcomes that claim a verification come from `Verify`, or from a `Complete` that asks for it. -/
def MayVerify (cause : Option Operation) : Prop :=
  (∃ v, cause = some (.verify v)) ∨ ∃ r : CompletionRequest, cause = some (.complete r) ∧ r.target = .verified

/-- What an engine may commit in state `s`. -/
inductive Write (limits : RuntimeLimits) (live : Incarnation) (cause : Option Operation) (s : DurableState) :
    Event → Prop
  | policyPut (policy : ReconciliationPolicy) (hok : PolicyOk limits policy)
      (hnewer : s.hasPolicy = true → s.policy.version < policy.version) : Write limits live cause s (.policyPut policy)
  | intentCommit (d : IntentDocument) (hok : IntentOk limits d)
      (hcause : ∃ document, cause = some (.commitIntent document) ∧ d.scope = document.scope)
      (hnewer : ∀ old, s.intents.find? d.scope = some old → old.generation < d.generation) :
      Write limits live cause s (.intentCommit d)
  | observationCommit (d : ObservationDocument) (hok : ObservationOk limits d) (hepoch : d.receivedEpoch = live.epoch)
      (hcause : ∃ submission stamp, cause = some (.recordObservationAt submission stamp) ∧
        d.scope = submission.scope)
      (hnewest : ∀ old ∈ (s.observations.find? d.scope).getD [], old.reporter = d.reporter →
        old.generation ≤ d.generation) :
      Write limits live cause s (.observationCommit d)
  | attemptIssued (p : ReconciliationPlan) (d : Decision) (now : UnixMillis) (hcause : cause = some (.dispatch p))
      (hd : d ∈ p.decisions) (hact : d.disposition = .actionable)
      (hfree : fenceHoldsFor s d.scope d.subject live.epoch = false)
      (hnone : Engine.reusable s live.epoch d.idempotencyKey = none) :
      Write limits live cause s (.attemptIssued (Engine.newAttempt live now s.nextAttempt d))
  | attemptTransition (a a' : AttemptRecord) (hm : Moves limits s a a') (hc : MoveCause live cause a a'.state) :
      Write limits live cause s (.attemptTransition a')
  | outcomeCommit (o : ReconciliationOutcome) (hok : OutcomeOk o) (hverified : o.verified = true → MayVerify cause) :
      Write limits live cause s (.outcomeCommit o)
  | fencePut (f : FenceEntry) (now : UnixMillis) (hid : f.id.empty = false) (hscope : f.scope.empty = false)
      (hcause : cause = some (.putFence f)) : Write limits live cause s (.fencePut { f with createdUnixMs := now })
  | fenceClear (id : FenceId) (hid : id.empty = false) (hcause : cause = some (.clearFence id)) :
      Write limits live cause s (.fenceClear id)
  | epochAdvance (hcause : cause = none) (hnewer : s.lastEpoch < live.epoch) :
      Write limits live cause s (.epochAdvance live.epoch)

/-- Documents are validated before they are written. -/
theorem Write.document {limits : RuntimeLimits} {live : Incarnation} {cause : Option Operation} {s : DurableState}
    {e : Event} (h : Write limits live cause s e) (hdoc : e.isDocument = true) : e.Ok limits := by
  cases h with
  | policyPut policy hok hnewer => exact hok
  | intentCommit d hok hcause hnewer => exact hok
  | observationCommit d hok hepoch hcause hnewest => exact hok
  | attemptIssued p d now hcause hd hact hfree hnone => simp [Event.isDocument] at hdoc
  | attemptTransition a a' hm hc => simp [Event.isDocument] at hdoc
  | outcomeCommit o hok hverified => exact hok
  | fencePut f now hid hscope hcause => simp [Event.isDocument] at hdoc
  | fenceClear id hid hcause => exact hid
  | epochAdvance hcause hnewer => trivial

/-- The ambiguity flag of the outcome that ends attempt `a`. -/
def ambiguityOf (cause : Option Operation) (a : AttemptRecord) (target : AttemptState) : Bool :=
  match cause with
  | none => decide (a.state ≠ .issued)
  | some (.putFence _) => false
  | some (.verify v) => !v.confirmsEffect
  | some _ => target.isInconclusive

/-- The outcome of an attempt whose last record is `a'`. -/
structure OutcomeOf (a' : AttemptRecord) (o : ReconciliationOutcome) : Prop where
  attempt : o.attempt = a'.id
  key : o.idempotencyKey = a'.idempotencyKey
  scope : o.scope = a'.scope
  subject : o.subject = a'.subject
  action : o.action = a'.action
  incarnation : o.epoch = a'.epoch ∧ o.boot = a'.boot
  terminalState : o.terminalState = a'.state
  verified : o.verified = decide (a'.state = .verified)

/-- The end of an attempt: its last record `a'` and its outcome `o`. -/
structure Settles (limits : RuntimeLimits) (live : Incarnation) (cause : Option Operation) (s : DurableState)
    (a a' : AttemptRecord) (o : ReconciliationOutcome) : Prop where
  moves : Moves limits s a a'
  why : MoveCause live cause a a'.state
  terminal : a'.state.isTerminal = true
  outcome : OutcomeOf a' o
  ambiguous : o.ambiguous = ambiguityOf cause a a'.state
  ok : OutcomeOk o

/-- The records that are committed on their own. -/
def Event.Lone : Event → Prop
  | .attemptTransition a => a.state.isTerminal = false
  | .outcomeCommit _ => False
  | _ => True

/-- The commits of one call or boot. -/
inductive Paired (limits : RuntimeLimits) (live : Incarnation) (cause : Option Operation) (env : CallEnv)
    (s : DurableStore) : DurableStore → Prop
  | refl : Paired limits live cause env s s
  | commit {t : DurableStore} (h : Paired limits live cause env s t) (what : String) (e : Event)
      (he : Write limits live cause t.state e) (hlone : e.Lone) : Paired limits live cause env s (t.commit what e).2
  | settle {t : DurableStore} (h : Paired limits live cause env s t) (a a' : AttemptRecord)
      (o : ReconciliationOutcome) (hs : Settles limits live cause t.state a a' o) :
      Paired limits live cause env s (t.settle a' o).2
  /-- nothing has failed since the call began -/
  | compact {t : DurableStore} (h : Paired limits live cause env s t)
      (hsame : t.journal.writeFailed = s.journal.writeFailed) :
      Paired limits live cause env s (t.compact env.io env.snapshotNow env.headerNow).2
  /-- the call's I/O outcomes begin -/
  | faults {t : DurableStore} (h : Paired limits live cause env s t) :
      Paired limits live cause env s { t with faults := env.faults }

/-- Commits that `W` allows and compactions, in the environment of one call. -/
inductive Commits (W : DurableState → Event → Prop) (env : CallEnv) (s : DurableStore) : DurableStore → Prop
  | refl : Commits W env s s
  | commit {t : DurableStore} (h : Commits W env s t) (what : String) (e : Event) (he : W t.state e) :
      Commits W env s (t.commit what e).2
  | compact {t : DurableStore} (h : Commits W env s t) :
      Commits W env s (t.compact env.io env.snapshotNow env.headerNow).2
  /-- the call's I/O outcomes begin -/
  | faults {t : DurableStore} (h : Commits W env s t) : Commits W env s { t with faults := env.faults }

section Sequences

variable {W : DurableState → Event → Prop} {env : CallEnv} {s t u : DurableStore}

theorem Commits.trans (h : Commits W env s t) (h' : Commits W env t u) : Commits W env s u := by
  induction h' with
  | refl => exact h
  | commit h' what e he ih => exact ih.commit what e he
  | compact h' ih => exact ih.compact
  | faults h' ih => exact ih.faults

theorem Paired.maybeCompact {limits : RuntimeLimits} {live : Incarnation} {cause : Option Operation} {e : Engine}
    (h : Paired limits live cause env s e.store) (hsame : e.store.journal.writeFailed = s.journal.writeFailed) :
    Paired limits live cause env s (e.maybeCompact env).store := by
  unfold Engine.maybeCompact
  split
  · exact h
  split
  · exact h
  simp only
  split
  · exact h.compact hsame
  · exact h.compact hsame

/-- An attempt's record and its outcome. -/
theorem Commits.settle (h : Commits W env s t) {a : AttemptRecord} {o : ReconciliationOutcome}
    (ha : W t.state (.attemptTransition a)) (ho : ∀ st, W st (.outcomeCommit o)) :
    Commits W env s (t.settle a o).2 := by
  unfold DurableStore.settle
  have hfirst := h.commit "attempt" (.attemptTransition a) ha
  by_cases hs : (t.transitionAttempt a).1.code ≠ .ok
  · simp only [if_pos hs]
    exact hfirst
  · simp only [if_neg hs]
    exact hfirst.commit "outcome" (.outcomeCommit o) (ho _)

@[simp] theorem settle_limits (t : DurableStore) (a : AttemptRecord) (o : ReconciliationOutcome) :
    (t.settle a o).2.limits = t.limits := by
  unfold DurableStore.settle DurableStore.transitionAttempt DurableStore.commitOutcome
  by_cases hs : (t.commit "attempt" (.attemptTransition a)).1.code ≠ .ok
  · simp only [if_pos hs, commit_limits]
  · simp only [if_neg hs, commit_limits]

/-- A settled attempt: its record and its outcome are in the tables. -/
theorem settle_ok {a : AttemptRecord} {o : ReconciliationOutcome} (h : (t.settle a o).1.code = .ok) :
    AttemptOk t.limits a ∧ OutcomeOk o ∧
      ∃ q, (t.settle a o).2.state = { applyOutcome t.limits o (applyAttempt t.limits a t.state) with sequence := q } := by
  unfold DurableStore.settle at h ⊢
  by_cases hs : (t.transitionAttempt a).1.code ≠ .ok
  · simp only [if_pos hs] at h
    exact absurd h hs
  simp only [if_neg hs] at h ⊢
  push Not at hs
  obtain ⟨-, -, hattempt, q, hq⟩ := commit_ok (by simp [Event.isDocument]) hs
  obtain ⟨-, -, houtcome, q', hq'⟩ := commit_ok (by simp [Event.isDocument]) h
  refine ⟨hattempt, houtcome, q', ?_⟩
  rw [show ((t.transitionAttempt a).2.commitOutcome o).2.state = _ from hq', DurableStore.transitionAttempt, hq,
    commit_limits, applyEvent_sequence]
  rfl

/-- The attempts a loop still has to end are in the table, each under its own identity. -/
structure Pending (s : DurableState) (victims : List AttemptRecord) : Prop where
  distinct : (victims.map AttemptRecord.id).Nodup
  stored : ∀ a ∈ victims, s.attempts.find? a.id = some a
  running : ∀ a ∈ victims, a.state.isTerminal = false

theorem Pending.settle {a : AttemptRecord} {rest : List AttemptRecord} {limits : RuntimeLimits} {st : DurableState}
    (h : Pending st (a :: rest)) {ended : AttemptRecord} (hid : ended.id = a.id) (o : ReconciliationOutcome)
    (q : RecordSequence) :
    Pending { applyOutcome limits o (applyAttempt limits ended st) with sequence := q } rest := by
  have hnodup := h.distinct
  rw [List.map_cons, List.nodup_cons] at hnodup
  refine ⟨hnodup.2, ?_, fun b hb => h.running b (List.mem_cons_of_mem a hb)⟩
  intro b hb
  have hne : b.id ≠ ended.id := by
    rw [hid]
    intro heq
    exact hnodup.1 (heq ▸ List.mem_map_of_mem hb)
  exact applyAttempt_keeps (h.running b (List.mem_cons_of_mem a hb)) hne
    (h.stored b (List.mem_cons_of_mem a hb))

/-- A loop that went through has not broken the journal. -/
theorem settle_journal {a : AttemptRecord} {o : ReconciliationOutcome} (h : (t.settle a o).1.code = .ok) :
    (t.settle a o).2.journal.writeFailed = t.journal.writeFailed := by
  unfold DurableStore.settle at h ⊢
  by_cases hs : (t.transitionAttempt a).1.code ≠ .ok
  · simp only [if_pos hs] at h
    exact absurd h hs
  simp only [if_neg hs] at h ⊢
  push Not at hs
  exact (commit_journal h).trans (commit_journal hs)

theorem settleAll_journal {ending : AttemptRecord → AttemptRecord × ReconciliationOutcome}
    {victims : List AttemptRecord} (h : (t.settleAll ending victims).1.code = .ok) :
    (t.settleAll ending victims).2.journal.writeFailed = t.journal.writeFailed := by
  induction victims generalizing t with
  | nil => rfl
  | cons a rest ih =>
    unfold DurableStore.settleAll at h ⊢
    by_cases hs : (t.settle (ending a).1 (ending a).2).1.code ≠ .ok
    · simp only [if_pos hs] at h
      exact absurd h hs
    simp only [if_neg hs] at h ⊢
    push Not at hs
    exact (ih h).trans (settle_journal hs)

/-- The loop over pending attempts ends each of them. -/
theorem Paired.settleAll {limits : RuntimeLimits} {live : Incarnation} {cause : Option Operation}
    {ending : AttemptRecord → AttemptRecord × ReconciliationOutcome} (hid : ∀ a, (ending a).1.id = a.id)
    {victims : List AttemptRecord} (h : Paired limits live cause env s t) (hp : Pending t.state victims)
    (hs : ∀ a ∈ victims, ∀ st, st.attempts.find? a.id = some a →
      Settles limits live cause st a (ending a).1 (ending a).2) :
    Paired limits live cause env s (t.settleAll ending victims).2 := by
  induction victims generalizing t with
  | nil => exact h
  | cons a rest ih =>
    have hfirst := h.settle a _ _ (hs a (List.mem_cons_self ..) t.state (hp.stored a (List.mem_cons_self ..)))
    unfold DurableStore.settleAll
    by_cases hcode : (t.settle (ending a).1 (ending a).2).1.code ≠ .ok
    · simp only [if_pos hcode]
      exact hfirst
    · simp only [if_neg hcode]
      push Not at hcode
      obtain ⟨-, -, q, hq⟩ := settle_ok hcode
      refine ih hfirst ?_ (fun b hb => hs b (List.mem_cons_of_mem a hb))
      rw [hq]
      exact hp.settle (hid a) _ q

/-- A loop that went through has ended all its attempts and touched no other. -/
theorem settleAll_ok {ending : AttemptRecord → AttemptRecord × ReconciliationOutcome}
    (hid : ∀ a, (ending a).1.id = a.id) : ∀ {victims : List AttemptRecord} {t : DurableStore},
    (t.settleAll ending victims).1.code = .ok → ∀ {k : UInt64} {b : AttemptRecord},
    (t.settleAll ending victims).2.state.attempts.find? k = some b →
    (∃ a ∈ victims, b = (ending a).1) ∨ t.state.attempts.find? k = some b ∧ ∀ a ∈ victims, a.id ≠ k := by
  intro victims
  induction victims with
  | nil =>
    intro t _ k b hb
    exact .inr ⟨hb, by simp⟩
  | cons a rest ih =>
    intro t h k b hb
    unfold DurableStore.settleAll at h hb
    by_cases hs : (t.settle (ending a).1 (ending a).2).1.code ≠ .ok
    · simp only [if_pos hs] at h
      exact absurd h hs
    simp only [if_neg hs] at h hb
    push Not at hs
    obtain ⟨-, -, q, hq⟩ := settle_ok hs
    rcases ih h hb with ⟨a', ha', rfl⟩ | ⟨hfind, hrest⟩
    · exact .inl ⟨a', List.mem_cons_of_mem a ha', rfl⟩
    · rw [hq] at hfind
      rcases find?_applyAttempt hfind with ⟨-, rfl⟩ | ⟨hne, hfound⟩
      · exact .inl ⟨a, List.mem_cons_self .., rfl⟩
      · refine .inr ⟨hfound, ?_⟩
        intro a' ha'
        rcases List.mem_cons.mp ha' with rfl | ha'
        · rw [hid] at hne
          exact fun heq => hne heq.symm
        · exact hrest a' ha'

/-- The end of an attempt as two single records. -/
theorem Settles.writes {limits : RuntimeLimits} {live : Incarnation} {cause : Option Operation} {st : DurableState}
    {a a' : AttemptRecord} {o : ReconciliationOutcome} (h : Settles limits live cause st a a' o) :
    Write limits live cause st (.attemptTransition a') ∧ ∀ st', Write limits live cause st' (.outcomeCommit o) := by
  refine ⟨.attemptTransition a a' h.moves h.why, fun st' => .outcomeCommit o h.ok ?_⟩
  intro hverified
  rw [h.outcome.verified, decide_eq_true_eq] at hverified
  rcases h.why with ⟨-, ht⟩ | ⟨f, -, ht⟩ | ⟨r, hc, ht, -⟩ | ⟨v, hc, -⟩
  · rcases ht with ht | ht <;> simp [ht] at hverified
  · simp [ht] at hverified
  · exact .inr ⟨r, hc, ht.symm.trans hverified⟩
  · exact .inl ⟨v, hc⟩

/-- Forgetting the pairs. -/
theorem Paired.commits {limits : RuntimeLimits} {live : Incarnation} {cause : Option Operation}
    (h : Paired limits live cause env s t) : Commits (Write limits live cause) env s t := by
  induction h with
  | refl => exact .refl
  | commit h what e he hlone ih => exact ih.commit what e he
  | settle h a a' o hs ih => exact ih.settle hs.writes.1 hs.writes.2
  | compact h hsame ih => exact ih.compact
  | faults h ih => exact ih.faults

end Sequences

/-! ## Pending attempts of a table -/

theorem values_nodup {limits : RuntimeLimits} {s : DurableState} (h : TablesOk limits s) :
    (s.attempts.values.map AttemptRecord.id).Nodup := by
  have hkeys : s.attempts.values.map AttemptRecord.id = s.attempts.entries.map Prod.fst := by
    rw [OrdMap.values, List.map_map]
    exact List.map_congr_left fun e he => (h.attempts e he).2
  rw [hkeys, List.nodup_iff_pairwise_ne, List.pairwise_map]
  exact s.attempts.sorted.imp fun hlt => ne_of_lt hlt

theorem find?_of_mem_values {limits : RuntimeLimits} {s : DurableState} (h : TablesOk limits s) {a : AttemptRecord}
    (ha : a ∈ s.attempts.values) : s.attempts.find? a.id = some a := by
  obtain ⟨e, he, rfl⟩ := List.mem_map.mp ha
  rw [(h.attempts e he).2]
  exact OrdMap.find?_eq_some_iff.mpr he

theorem mem_sortById {l : List AttemptRecord} {a : AttemptRecord} : a ∈ sortById l ↔ a ∈ l :=
  (List.perm_insertionSort _ l).mem_iff

/-- The in-flight attempts that a predicate selects are pending. -/
theorem pending_filter {limits : RuntimeLimits} {s : DurableState} (h : TablesOk limits s)
    {p : AttemptRecord → Bool} (hp : ∀ a, p a = true → a.state.isTerminal = false) :
    Pending s (sortById (s.attempts.values.filter p)) := by
  refine ⟨?_, ?_, ?_⟩
  · have hperm := (List.perm_insertionSort (fun a b : AttemptRecord => a.id ≤ b.id)
      (s.attempts.values.filter p)).map AttemptRecord.id
    refine hperm.nodup_iff.mpr ?_
    exact (values_nodup h).sublist (List.Sublist.map _ List.filter_sublist)
  · intro a ha
    exact find?_of_mem_values h (List.mem_filter.mp (mem_sortById.mp ha)).1
  · intro a ha
    exact hp a (List.mem_filter.mp (mem_sortById.mp ha)).2

/-! ## The lifecycle table -/

theorem transitionLegal_running {source target : AttemptState} (h : transitionLegal source target = true) :
    source.isTerminal = false := by
  cases source <;> first | rfl | simp [transitionLegal] at h

theorem transitionLegal_fenced {state : AttemptState} (h : state.isTerminal = false) (hv : state ≠ .invalid) :
    transitionLegal state .fenced = true := by
  cases state <;> simp_all [AttemptState.isTerminal, transitionLegal]

theorem transitionLegal_interrupted {state : AttemptState} (h : state.isTerminal = false) (hv : state ≠ .invalid) :
    transitionLegal state (if state ≠ .issued then .interrupted else .abandoned) = true := by
  cases state <;> simp_all [AttemptState.isTerminal, transitionLegal]

theorem transitionLegal_verified {source : AttemptState} (h : transitionLegal source .verified = true) :
    source = .applied := by
  cases source <;> simp [transitionLegal] at h ⊢

/-- Recording a transition keeps the history within its bound, and non-empty. -/
theorem move_history (limits : RuntimeLimits) (a : AttemptRecord) (t : AttemptTransition) (hne : a.transitions ≠ [])
    (hle : a.transitions.length ≤ limits.maxAttemptTransitions.toNat) :
    (a.move limits t).transitions ≠ [] ∧
      (a.move limits t).transitions.length ≤ limits.maxAttemptTransitions.toNat := by
  have hpos : 0 < a.transitions.length := List.length_pos_of_ne_nil hne
  refine ⟨by simp [AttemptRecord.move], ?_⟩
  simp only [AttemptRecord.move, List.length_append, List.length_singleton]
  by_cases hfull : limits.maxAttemptTransitions.toNat ≤ a.transitions.length
  · rw [if_pos hfull, List.length_tail]
    omega
  · rw [if_neg hfull]
    omega

theorem length_move (limits : RuntimeLimits) (a : AttemptRecord) (t : AttemptTransition) :
    (a.move limits t).transitions.length ≤ a.transitions.length + 1 := by
  simp only [AttemptRecord.move, List.length_append, List.length_singleton]
  split
  · rw [List.length_tail]
    omega
  · omega

theorem move_continues (limits : RuntimeLimits) {a : AttemptRecord} {t : AttemptTransition} (ht : t.source = a.state) :
    Continues limits a (a.move limits t) := by
  by_cases hfull : limits.maxAttemptTransitions.toNat ≤ a.transitions.length
  · refine .recorded t a.transitions.tail ?_ ht rfl (.inr ⟨rfl, hfull⟩)
    simp only [AttemptRecord.move, if_pos hfull]
  · refine .recorded t a.transitions ?_ ht rfl (.inl ⟨rfl, by omega⟩)
    simp only [AttemptRecord.move, if_neg hfull]

theorem Moves.of_move {limits : RuntimeLimits} {s : DurableState} {a : AttemptRecord} {t : AttemptTransition}
    (hstored : s.attempts.find? a.id = some a) (hsource : t.source = a.state)
    (hlegal : transitionLegal a.state t.target = true) : Moves limits s a (a.move limits t) :=
  ⟨hstored, transitionLegal_running hlegal, hlegal, rfl, length_move limits a t, move_history limits a t,
    move_continues limits hsource⟩

/-! ## Calls -/

/-- What every engine satisfies that a boot returned. -/
structure Consistent (limits : RuntimeLimits) (e : Engine) : Prop where
  options : e.options.limits = limits
  store : e.store.limits = limits
  tables : TablesOk limits e.store.state

section Calls

variable {limits : RuntimeLimits} {e : Engine} {env : CallEnv}

theorem Consistent.valid (h : Consistent limits e) {k : UInt64} {a : AttemptRecord}
    (ha : e.store.state.attempts.find? k = some a) : AttemptOk limits a ∧ a.id = k :=
  h.tables.attempts (k, a) (OrdMap.find?_eq_some_iff.mp ha)

theorem admitPolicy_ok (h : Consistent limits e) {policy canonical : ReconciliationPolicy} {allow : Bool}
    (hgate : e.admitPolicy policy allow = .ok canonical) :
    PolicyOk limits canonical ∧
      (e.store.state.hasPolicy = true → e.store.state.policy.version < canonical.version) := by
  unfold Engine.admitPolicy at hgate
  by_cases hro : e.store.readOnly = true
  · simp [hro] at hgate
  rw [if_neg hro] at hgate
  cases hc : canonicalisePolicy policy e.options.limits with
  | error status => simp [hc] at hgate
  | ok c =>
    simp only [hc] at hgate
    split at hgate
    · simp at hgate
    next hlt =>
      split at hgate
      · split at hgate <;> simp at hgate
      next heq =>
        rw [Except.ok.injEq] at hgate
        subst hgate
        rw [h.options] at hc
        refine ⟨canonicalisePolicy_ok hc, ?_⟩
        intro hhas
        simp only [hhas, Bool.true_and, decide_eq_true_eq] at hlt heq
        exact lt_of_le_of_ne (not_lt.mp hlt) (Ne.symm heq)

theorem admitIntent_ok (h : Consistent limits e) {document candidate : IntentDocument}
    (hgate : e.admitIntent document = .ok candidate) :
    IntentOk limits candidate ∧
      ∀ old, e.store.state.intents.find? candidate.scope = some old → old.generation < candidate.generation := by
  unfold Engine.admitIntent at hgate
  by_cases hro : e.store.readOnly = true
  · simp [hro] at hgate
  rw [if_neg hro] at hgate
  by_cases hvalid : (validateIntent document e.options.limits).code ≠ .ok
  · simp [hvalid] at hgate
  simp only [if_neg hvalid] at hgate
  push Not at hvalid
  rw [h.options] at hvalid
  obtain ⟨h1, h2, h3, h4⟩ := validateIntent_ok hvalid
  have hok : IntentOk limits { document with digest := computeIntentDigest document } :=
    ⟨h1, h2, h3, h4, (computeIntentDigest_digest document _).symm⟩
  cases hfind : e.store.state.intents.find? document.scope with
  | none =>
    simp only [hfind, Except.ok.injEq] at hgate
    subst hgate
    exact ⟨hok, by simp [hfind]⟩
  | some existing =>
    simp only [hfind] at hgate
    split at hgate
    · simp at hgate
    next hlt =>
      split at hgate
      · split at hgate <;> simp at hgate
      next heq =>
        rw [Except.ok.injEq] at hgate
        subst hgate
        refine ⟨hok, ?_⟩
        intro old hold
        rw [show e.store.state.intents.find? document.scope = some old from hold] at hfind
        rw [Option.some.inj hfind]
        exact lt_of_le_of_ne (not_lt.mp hlt) (Ne.symm heq)

/-- An admitted intent keeps its scope. -/
theorem admitIntent_scope {document candidate : IntentDocument} (hgate : e.admitIntent document = .ok candidate) :
    candidate.scope = document.scope := by
  unfold Engine.admitIntent at hgate
  simp only at hgate
  repeat' split at hgate
  all_goals cases hgate <;> rfl

/-- The scan of a stream ends above every retained generation of the reporter. -/
theorem scanStream_ok {document : ObservationDocument} {stream : List ObservationDocument}
    {highest result : Option ObservationGeneration} (h : Engine.scanStream document stream highest = .ok result) :
    (∀ seen, highest = some seen → ∃ top, result = some top ∧ seen ≤ top) ∧
      ∀ old ∈ stream, old.reporter = document.reporter → ∃ top, result = some top ∧ old.generation ≤ top := by
  induction stream generalizing highest with
  | nil =>
    simp only [Engine.scanStream, Except.ok.injEq] at h
    subst h
    exact ⟨fun seen hseen => ⟨seen, hseen, le_refl _⟩, by simp⟩
  | cons retained rest ih =>
    unfold Engine.scanStream at h
    by_cases hother : retained.reporter ≠ document.reporter
    · rw [if_pos hother] at h
      obtain ⟨hhigh, hrest⟩ := ih h
      refine ⟨hhigh, ?_⟩
      intro old hold hreporter
      rcases List.mem_cons.mp hold with rfl | hold
      · exact absurd hreporter hother
      · exact hrest old hold hreporter
    rw [if_neg hother] at h
    split at h
    · split at h <;> simp at h
    obtain ⟨hhigh, hrest⟩ := ih h
    cases highest with
    | none =>
      obtain ⟨top, htop, hle⟩ := hhigh retained.generation rfl
      refine ⟨by simp, ?_⟩
      intro old hold hreporter
      rcases List.mem_cons.mp hold with rfl | hold
      · exact ⟨top, htop, hle⟩
      · exact hrest old hold hreporter
    | some seen =>
      obtain ⟨top, htop, hle⟩ := hhigh _ rfl
      have hboth : seen ≤ top ∧ retained.generation ≤ top := by
        split at hle
        next hlt => exact ⟨le_trans (le_of_lt hlt) hle, hle⟩
        next hge => exact ⟨hle, le_trans (not_lt.mp hge) hle⟩
      refine ⟨?_, ?_⟩
      · intro seen' hseen'
        rw [← Option.some.inj hseen']
        exact ⟨top, htop, hboth.1⟩
      · intro old hold hreporter
        rcases List.mem_cons.mp hold with rfl | hold
        · exact ⟨top, htop, hboth.2⟩
        · exact hrest old hold hreporter

theorem admitObservation_ok (h : Consistent limits e) {submission : ObservationSubmission} {stamp : UnixMillis}
    {document : ObservationDocument} (hgate : e.admitObservation env submission stamp = .ok document) :
    document = e.stampObservation env submission stamp ∧ ObservationOk limits document ∧
      ∀ old ∈ (e.store.state.observations.find? document.scope).getD [], old.reporter = document.reporter →
        old.generation ≤ document.generation := by
  unfold Engine.admitObservation at hgate
  by_cases hro : e.store.readOnly = true
  · simp [hro] at hgate
  rw [if_neg hro] at hgate
  by_cases hvalid : (validateSubmission submission e.options.limits).code ≠ .ok
  · simp [hvalid] at hgate
  simp only [if_neg hvalid] at hgate
  push Not at hvalid
  rw [h.options] at hvalid
  obtain ⟨h1, h2, h3, h4⟩ := validateSubmission_ok hvalid
  have hok : ObservationOk limits (e.stampObservation env submission stamp) :=
    ⟨h1, h2, h3, h4, (computeObservationDigest_digest _ _).symm⟩
  split at hgate
  · simp at hgate
  next highest hscan =>
    split at hgate
    · simp at hgate
    next hlt =>
      rw [Except.ok.injEq] at hgate
      subst hgate
      refine ⟨rfl, hok, ?_⟩
      intro old hold hreporter
      obtain ⟨top, htop, hle⟩ := (scanStream_ok hscan).2 old hold hreporter
      rw [Option.some.injEq] at htop
      subst htop
      exact le_trans hle (not_lt.mp hlt)
  next hscan =>
    rw [Except.ok.injEq] at hgate
    subst hgate
    refine ⟨rfl, hok, ?_⟩
    intro old hold hreporter
    obtain ⟨top, htop, -⟩ := (scanStream_ok hscan).2 old hold hreporter
    simp at htop

/-- What `Complete` has checked. -/
structure Completable (e : Engine) (request : CompletionRequest) (a : AttemptRecord) : Prop where
  writable : e.store.readOnly = false
  stored : e.store.state.attempts.find? request.attempt = some a
  key : a.idempotencyKey = request.idempotencyKey
  current : request.epoch = e.live.epoch ∧ request.boot = e.live.boot
  live : a.epoch = e.live.epoch ∧ a.boot = e.live.boot
  legal : transitionLegal a.state request.target = true

theorem admitCompletion_ok {request : CompletionRequest} {a : AttemptRecord} :
    e.admitCompletion request = .ok a ↔ Completable e request a := by
  constructor
  · intro hgate
    unfold Engine.admitCompletion at hgate
    by_cases hro : e.store.readOnly = true
    · simp [hro] at hgate
    rw [if_neg hro] at hgate
    split at hgate
    · simp at hgate
    next a' hfind =>
      split at hgate
      · simp at hgate
      next hkey =>
        split at hgate
        · simp at hgate
        next hcurrent =>
          split at hgate
          · simp at hgate
          next hlive =>
            split at hgate
            · simp at hgate
            next hterminal =>
              split at hgate
              · simp at hgate
              next hlegal =>
                rw [Except.ok.injEq] at hgate
                subst hgate
                push Not at hkey hcurrent hlive
                exact ⟨by simpa using hro, hfind, hkey, hcurrent, hlive, by simpa using hlegal⟩
  · rintro ⟨hro, hfind, hkey, hcurrent, hlive, hlegal⟩
    simp [Engine.admitCompletion, hro, hfind, hkey, hcurrent, hlive, transitionLegal_running hlegal, hlegal]

/-- What `Verify` has checked. -/
structure Verifiable (e : Engine) (env : CallEnv) (v : VerificationEvidence) (a : AttemptRecord) : Prop where
  writable : e.store.readOnly = false
  found : e.store.state.attempts.values.find? (fun a => a.idempotencyKey = v.idempotencyKey) = some a
  names : a.scope = v.scope ∧ a.subject = v.subject
  live : a.epoch = e.live.epoch ∧ a.boot = e.live.boot
  applied : a.state = .applied
  independent : e.store.state.policy.requireIndependentVerification = true → v.verifier ≠ v.applier
  epoch : v.receivedEpoch = e.live.epoch
  newer : a.authority.observationGeneration < v.generation
  cited : ∃ d, Engine.citedObservation e.store.state v = some d ∧
    evaluateFreshness d e.store.state.policy.freshness e.live.epoch env.now = .fresh

theorem admitVerification_ok {v : VerificationEvidence} {a : AttemptRecord}
    (hgate : e.admitVerification env v = .ok a) : Verifiable e env v a := by
  unfold Engine.admitVerification at hgate
  by_cases hro : e.store.readOnly = true
  · simp [hro] at hgate
  simp only [hro, Bool.false_eq_true, if_false] at hgate
  split at hgate
  · simp at hgate
  next a' hfind =>
    split at hgate
    · simp at hgate
    next hnames =>
      split at hgate
      · simp at hgate
      next hlive =>
        split at hgate
        · simp at hgate
        next happlied =>
          split at hgate
          · simp at hgate
          next hindependent =>
            split at hgate
            · simp at hgate
            next hepoch =>
              split at hgate
              · simp at hgate
              next hnewer =>
                split at hgate
                · simp at hgate
                next d hcited =>
                  split at hgate
                  · simp at hgate
                  next hfresh =>
                    rw [Except.ok.injEq] at hgate
                    subst hgate
                    push Not at hnames hlive happlied hepoch hfresh
                    refine ⟨by simpa using hro, hfind, hnames, hlive, happlied, ?_, hepoch, by simpa using hnewer,
                      d, hcited, hfresh⟩
                    intro hrequired heq
                    exact hindependent (by simp [hrequired, heq])

/-- Nothing else is asked. -/
theorem Verifiable.admitted {v : VerificationEvidence} {a : AttemptRecord} (h : Verifiable e env v a) : e.admitVerification env v = .ok a := by
  obtain ⟨d, hcited, hfresh⟩ := h.cited
  have hindependent : ¬(e.store.state.policy.requireIndependentVerification &&
      decide (v.verifier = v.applier)) = true := by
    intro hboth
    rw [Bool.and_eq_true, decide_eq_true_eq] at hboth
    exact h.independent hboth.1 hboth.2
  unfold Engine.admitVerification
  simp only [h.found, hcited]
  rw [if_neg (by simp [h.writable]), if_neg (by simp [h.names.1, h.names.2]), if_neg (by simp [h.live.1, h.live.2]),
    if_neg (by simp [h.applied]), if_neg hindependent, if_neg (by simp [h.epoch]), if_neg (by simp [h.newer]),
    if_neg (by simp [hfresh])]

/-! ## Calls are commits -/

/-- The common end of a call: one answer when the write failed, a possible compaction when it did not. -/
theorem finish_paired {cause : Option Operation} {α : Type} {done : Status × DurableStore} {bad good : α}
    (h : Paired limits e.live cause env e.store done.2)
    (hsame : done.1.code = .ok → done.2.journal.writeFailed = e.store.journal.writeFailed) :
    Paired limits e.live cause env e.store (if done.1.code ≠ .ok then (done.1, bad, e.withStore done.2)
      else (Status.ok, good, (e.withStore done.2).maybeCompact env)).2.2.store := by
  split
  · exact h
  next hok =>
    push Not at hok
    exact Paired.maybeCompact h (hsame hok)

theorem putPolicy_paired (h : Consistent limits e) (policy : ReconciliationPolicy) (allow : Bool) :
    Paired limits e.live (some (.putPolicy policy allow)) env e.store (e.putPolicy env policy allow).2.store := by
  unfold Engine.putPolicy
  cases hgate : e.admitPolicy policy allow with
  | error status => exact .refl
  | ok canonical =>
    obtain ⟨hok, hnewer⟩ := admitPolicy_ok h hgate
    exact Paired.commit (.faults .refl) "policy" _ (.policyPut canonical hok hnewer) trivial

theorem commitIntent_paired (h : Consistent limits e) (document : IntentDocument) :
    Paired limits e.live (some (.commitIntent document)) env e.store (e.commitIntent env document).2.2.store := by
  unfold Engine.commitIntent
  cases hgate : e.admitIntent document with
  | error answer => exact .refl
  | ok candidate =>
    obtain ⟨hok, hnewer⟩ := admitIntent_ok h hgate
    exact finish_paired (Paired.commit (.faults .refl) "intent" _ (.intentCommit candidate hok
      ⟨document, rfl, admitIntent_scope hgate⟩ hnewer) trivial) commit_journal

theorem recordObservationAt_paired (h : Consistent limits e) (submission : ObservationSubmission)
    (stamp : UnixMillis) :
    Paired limits e.live (some (.recordObservationAt submission stamp)) env e.store
      (e.recordObservationAt env submission stamp).2.2.store := by
  unfold Engine.recordObservationAt
  cases hgate : e.admitObservation env submission stamp with
  | error answer => exact .refl
  | ok document =>
    obtain ⟨rfl, hok, hnewest⟩ := admitObservation_ok h hgate
    exact finish_paired (Paired.commit (.faults .refl) "observation" _
      (.observationCommit _ hok rfl ⟨submission, stamp, rfl, rfl⟩ hnewest) trivial) commit_journal

/-- `IssueAttempt` is one commit, or nothing. -/
theorem Paired.issue {live : Incarnation} {cause : Option Operation} {s t : DurableStore}
    (h : Paired limits live cause env s t) {a : AttemptRecord}
    (ha : Write limits live cause t.state (.attemptIssued a)) : Paired limits live cause env s (t.issueAttempt a).2 := by
  unfold DurableStore.issueAttempt
  split
  · exact h
  split
  · exact h
  · exact h.commit "attempt" _ ha trivial

theorem issue_journal {t : DurableStore} {a : AttemptRecord} (h : (t.issueAttempt a).1.code = .ok) :
    (t.issueAttempt a).2.journal.writeFailed = t.journal.writeFailed := by
  unfold DurableStore.issueAttempt at h ⊢
  split
  · rfl
  rw [if_neg (by assumption)] at h
  split
  · rfl
  rw [if_neg (by assumption)] at h
  exact commit_journal h

theorem dispatchLoop_paired {plan : ReconciliationPlan} {live : Incarnation} {now : UnixMillis}
    {intent : IntentDocument} {s t : DurableStore} {decisions : List Decision} {result : DispatchResult}
    (hmem : ∀ d ∈ decisions, d ∈ plan.decisions) (h : Paired limits live (some (.dispatch plan)) env s t)
    (hsame : t.journal.writeFailed = s.journal.writeFailed) :
    Paired limits live (some (.dispatch plan)) env s
        (Engine.dispatchLoop live now intent decisions t result).2 ∧
      ∀ answer, (Engine.dispatchLoop live now intent decisions t result).1 = .ok answer →
        (Engine.dispatchLoop live now intent decisions t result).2.journal.writeFailed = s.journal.writeFailed := by
  induction decisions generalizing t result with
  | nil => exact ⟨h, fun _ _ => hsame⟩
  | cons d rest ih =>
    have hrest : ∀ d' ∈ rest, d' ∈ plan.decisions := fun d' hd' => hmem d' (List.mem_cons_of_mem d hd')
    unfold Engine.dispatchLoop
    by_cases hact : d.disposition ≠ .actionable
    · rw [if_pos hact]
      exact ih hrest h hsame
    rw [if_neg hact]
    push Not at hact
    by_cases hfence : fenceHoldsFor t.state d.scope d.subject live.epoch = true
    · rw [if_pos hfence]
      exact ih hrest h hsame
    rw [if_neg hfence]
    cases hreuse : Engine.reusable t.state live.epoch d.idempotencyKey with
    | some existing => exact ih hrest h hsame
    | none =>
      have hissued : Paired limits live (some (.dispatch plan)) env s
          (t.issueAttempt (Engine.newAttempt live now t.state.nextAttempt d)).2 :=
        h.issue (.attemptIssued plan d now rfl (hmem d (List.mem_cons_self ..)) hact (by simpa using hfence) hreuse)
      simp only
      by_cases hs : (t.issueAttempt (Engine.newAttempt live now t.state.nextAttempt d)).1.code ≠ .ok
      · rw [if_pos hs]
        exact ⟨hissued, by simp⟩
      · rw [if_neg hs]
        push Not at hs
        exact ih hrest hissued ((issue_journal hs).trans hsame)

theorem dispatch_paired (plan : ReconciliationPlan) :
    Paired limits e.live (some (.dispatch plan)) env e.store (e.dispatch env plan).2.store := by
  unfold Engine.dispatch
  cases hgate : e.admitPlan plan with
  | error status => exact .refl
  | ok intent =>
    have hloop := @dispatchLoop_paired limits env plan e.live env.now intent e.store (e.under env).store
      plan.decisions {} (fun d hd => hd) (.faults .refl) rfl
    rcases hresult : Engine.dispatchLoop e.live env.now intent plan.decisions (e.under env).store {} with
      ⟨answer, t⟩
    rw [hresult] at hloop
    simp only [hresult]
    cases answer with
    | error status => exact hloop.1
    | ok result => exact Paired.maybeCompact (e := e.withStore t) hloop.1 (hloop.2 result rfl)

theorem complete_paired (h : Consistent limits e) (request : CompletionRequest) :
    Paired limits e.live (some (.complete request)) env e.store (e.complete env request).2.2.store := by
  unfold Engine.complete
  cases hgate : e.admitCompletion request with
  | error status => exact .refl
  | ok a =>
    have hc := admitCompletion_ok.mp hgate
    obtain ⟨hok, hid⟩ := h.valid hc.stored
    have hmoves : Moves limits e.store.state a (a.move limits (e.completion env request a)) :=
      .of_move (by rw [hid]; exact hc.stored) rfl hc.legal
    have hcause : MoveCause e.live (some (.complete request)) a (a.move limits (e.completion env request a)).state :=
      .complete request rfl rfl hid hc.live
    rw [h.options]
    simp only
    split
    next hterminal =>
      refine finish_paired (Paired.settle (.faults .refl) a _ _ ?_) settle_journal
      exact ⟨hmoves, hcause, hterminal, ⟨rfl, rfl, rfl, rfl, rfl, ⟨rfl, rfl⟩, rfl, rfl⟩, rfl,
        ⟨hok.scope, hok.subject⟩⟩
    next hrunning =>
      refine finish_paired (Paired.commit (.faults .refl) "attempt" _ (.attemptTransition a _ hmoves hcause) ?_)
        commit_journal
      show (a.move limits (e.completion env request a)).state.isTerminal = false
      simpa using hrunning

theorem verification_settles (h : Consistent limits e) {v : VerificationEvidence} {a : AttemptRecord}
    (hv : Verifiable e env v a) :
    Settles limits e.live (some (.verify v)) e.store.state a (a.move limits (e.verification env v a))
      { makeOutcome (a.move limits (e.verification env v a)) (e.verification env v a).target
          (e.verification env v a).reason (!v.confirmsEffect) (e.verification env v a).atUnixMs with
        verifiedGeneration := v.generation } := by
  have hstored := find?_of_mem_values h.tables (List.mem_of_find?_eq_some hv.found)
  obtain ⟨hok, -⟩ := h.valid hstored
  have hlegal : transitionLegal a.state (e.verification env v a).target = true := by
    rw [hv.applied]
    cases hconfirms : v.confirmsEffect <;> simp [Engine.verification, hconfirms, transitionLegal]
  have hterminal : (e.verification env v a).target.isTerminal = true := by
    cases hconfirms : v.confirmsEffect <;> simp [Engine.verification, hconfirms, AttemptState.isTerminal]
  exact ⟨.of_move hstored rfl hlegal, .verify v rfl hv.applied rfl hv.live, hterminal,
    ⟨rfl, rfl, rfl, rfl, rfl, ⟨rfl, rfl⟩, rfl, rfl⟩, rfl, ⟨hok.scope, hok.subject⟩⟩

theorem verify_paired (h : Consistent limits e) (v : VerificationEvidence) :
    Paired limits e.live (some (.verify v)) env e.store (e.verify env v).2.2.store := by
  unfold Engine.verify
  cases hgate : e.admitVerification env v with
  | error status => exact .refl
  | ok a =>
    simp only [h.options]
    exact finish_paired (Paired.settle (.faults .refl) a _ _ (verification_settles h (admitVerification_ok hgate)))
      settle_journal

theorem clearFence_paired (h : Consistent limits e) (fence : FenceId) :
    Paired limits e.live (some (.clearFence fence)) env e.store (e.clearFence env fence).2.store := by
  unfold Engine.clearFence
  by_cases hro : e.store.readOnly = true
  · rw [if_pos hro]
    exact .refl
  rw [if_neg hro]
  cases hfind : e.store.state.fences.find? fence with
  | none => exact .refl
  | some f =>
    obtain ⟨hok, hid⟩ := h.tables.fences (fence, f) (OrdMap.find?_eq_some_iff.mp hfind)
    have hid : f.id = fence := hid
    refine Paired.commit (.faults .refl) "fence identity" _ (.fenceClear fence ?_ rfl) trivial
    rw [← hid]
    exact hok.id

theorem compact_paired {cause : Option Operation} :
    Paired limits e.live cause env e.store (e.compact env).2.store := by
  unfold Engine.compact
  split
  · exact .refl
  simp only
  split
  · exact .compact .refl rfl
  · exact .compact .refl rfl

theorem fenceAttempt_id (limits : RuntimeLimits) (live : Incarnation) (now : UnixMillis) (a : AttemptRecord) :
    (Engine.fenceAttempt limits live now a).1.id = a.id := rfl

theorem fence_pending {s : DurableState} (h : TablesOk limits s) (f : FenceEntry) :
    Pending s (Engine.fenceVictims s f) := by
  refine pending_filter h ?_
  intro a ha
  simp only [Bool.and_eq_true, Bool.not_eq_true'] at ha
  exact ha.1.1.1

/-- The end of a fenced attempt, in any state that still has it. -/
theorem fence_settles {s : DurableState} (h : TablesOk limits s) (fence f : FenceEntry) (live : Incarnation)
    (now : UnixMillis) {a : AttemptRecord} (ha : a ∈ Engine.fenceVictims s f) {st : DurableState}
    (hst : st.attempts.find? a.id = some a) :
    Settles limits live (some (.putFence fence)) st a (Engine.fenceAttempt limits live now a).1
      (Engine.fenceAttempt limits live now a).2 := by
  have hpending := fence_pending h f
  obtain ⟨hok, -⟩ := h.attempts (a.id, a) (OrdMap.find?_eq_some_iff.mp (hpending.stored a ha))
  exact ⟨.of_move hst rfl (transitionLegal_fenced (hpending.running a ha) hok.state), .fence fence rfl rfl, rfl,
    ⟨rfl, rfl, rfl, rfl, rfl, ⟨rfl, rfl⟩, rfl, rfl⟩, rfl, ⟨hok.scope, hok.subject⟩⟩

theorem putFence_paired (h : Consistent limits e) (fence : FenceEntry) :
    Paired limits e.live (some (.putFence fence)) env e.store (e.putFence env fence).2.store := by
  unfold Engine.putFence
  by_cases hro : e.store.readOnly = true
  · rw [if_pos hro]
    exact .refl
  rw [if_neg hro]
  by_cases hempty : (fence.id.empty || fence.scope.empty) = true
  · rw [if_pos hempty]
    exact .refl
  rw [if_neg hempty]
  by_cases hzero : fence.fencedBelow = 0
  · rw [if_pos hzero]
    exact .refl
  rw [if_neg hzero]
  have hset : fence.id.empty = false ∧ fence.scope.empty = false := by simpa using hempty
  generalize (if fence.createdUnixMs ≠ 0 then fence.createdUnixMs else env.now) = now
  have hstored : Paired limits e.live (some (.putFence fence)) env e.store
      ((e.under env).store.putFence { fence with createdUnixMs := now }).2 :=
    Paired.commit (.faults .refl) "fence" _ (.fencePut fence now hset.1 hset.2 rfl) trivial
  by_cases hs : ((e.under env).store.putFence { fence with createdUnixMs := now }).1.code ≠ .ok
  · simp only [if_pos hs]
    exact hstored
  simp only [if_neg hs]
  push Not at hs
  obtain ⟨-, -, hok, q, hq⟩ := commit_ok (by simp [Event.isDocument]) hs
  have hlim : (e.under env).store.limits = limits := h.store
  rw [hlim] at hok hq
  -- the fence itself touches no attempt
  have htables : TablesOk limits ((e.under env).store.putFence { fence with createdUnixMs := now }).2.state := by
    rw [show ((e.under env).store.putFence { fence with createdUnixMs := now }).2.state = _ from hq]
    exact { TablesOk.applyFence h.tables hok with }
  have hdone := Paired.settleAll (fenceAttempt_id e.options.limits e.live now) hstored
    (fence_pending htables { fence with createdUnixMs := now })
    (by
      intro a ha st hst
      rw [h.options]
      exact fence_settles htables fence { fence with createdUnixMs := now } e.live now ha hst)
  split
  · exact hdone
  next hcode =>
    push Not at hcode
    exact Paired.maybeCompact hdone ((settleAll_journal hcode).trans (commit_journal hs))

/-- **`call_paired`**. -/
theorem call_paired (h : Consistent limits e) (env : CallEnv) (operation : Operation) :
    Paired limits e.live (some operation) env e.store (e.call env operation).2.store := by
  cases operation with
  | putPolicy policy allow => exact putPolicy_paired h policy allow
  | commitIntent document => exact commitIntent_paired h document
  | recordObservationAt submission stamp => exact recordObservationAt_paired h submission stamp
  | plan request => exact .refl
  | dispatch plan => exact dispatch_paired plan
  | complete request => exact complete_paired h request
  | verify evidence => exact verify_paired h evidence
  | putFence fence => exact putFence_paired h fence
  | clearFence fence => exact clearFence_paired h fence
  | compact => exact compact_paired

/-- **`call_commits`**. -/
theorem call_commits (h : Consistent limits e) (env : CallEnv) (operation : Operation) :
    Commits (Write limits e.live (some operation)) env e.store (e.call env operation).2.store :=
  (call_paired h env operation).commits

theorem maybeCompact_frame (e : Engine) (env : CallEnv) :
    (e.maybeCompact env).options = e.options ∧ (e.maybeCompact env).live = e.live := by
  unfold Engine.maybeCompact
  split
  · exact ⟨rfl, rfl⟩
  split
  · exact ⟨rfl, rfl⟩
  simp only
  split <;> exact ⟨rfl, rfl⟩

/-- Options and incarnation are those of the boot. -/
theorem call_frame (e : Engine) (env : CallEnv) (operation : Operation) :
    (e.call env operation).2.options = e.options ∧ (e.call env operation).2.live = e.live := by
  -- the common end of most calls
  have hfinish : ∀ {α : Type} {done : Status × DurableStore} {bad good : α} {r : Status × α × Engine},
      r = (if done.1.code ≠ .ok then (done.1, bad, e.withStore done.2)
        else (Status.ok, good, (e.withStore done.2).maybeCompact env)) →
      r.2.2.options = e.options ∧ r.2.2.live = e.live := by
    rintro α done bad good r rfl
    split
    · exact ⟨rfl, rfl⟩
    · exact maybeCompact_frame (e.withStore done.2) env
  cases operation with
  | putPolicy policy allow =>
    simp only [Engine.call, Engine.putPolicy]
    split <;> exact ⟨rfl, rfl⟩
  | commitIntent document =>
    simp only [Engine.call, Engine.commitIntent]
    split
    · exact ⟨rfl, rfl⟩
    · exact hfinish rfl
  | recordObservationAt submission stamp =>
    simp only [Engine.call, Engine.recordObservationAt]
    split
    · exact ⟨rfl, rfl⟩
    · exact hfinish rfl
  | plan request => exact ⟨rfl, rfl⟩
  | dispatch plan =>
    simp only [Engine.call, Engine.dispatch]
    split
    · exact ⟨rfl, rfl⟩
    split
    · exact ⟨rfl, rfl⟩
    · exact maybeCompact_frame (e.withStore _) env
  | complete request =>
    simp only [Engine.call, Engine.complete]
    split
    · exact ⟨rfl, rfl⟩
    split
    · exact hfinish rfl
    · exact hfinish rfl
  | verify v =>
    simp only [Engine.call, Engine.verify]
    split
    · exact ⟨rfl, rfl⟩
    · exact hfinish rfl
  | putFence fence =>
    simp only [Engine.call, Engine.putFence]
    generalize (if fence.createdUnixMs ≠ 0 then fence.createdUnixMs else env.now) = now
    split
    · exact ⟨rfl, rfl⟩
    split
    · exact ⟨rfl, rfl⟩
    split
    · exact ⟨rfl, rfl⟩
    split
    · exact ⟨rfl, rfl⟩
    split
    · exact ⟨rfl, rfl⟩
    · exact maybeCompact_frame (e.withStore _) env
  | clearFence fence =>
    simp only [Engine.call, Engine.clearFence]
    split
    · exact ⟨rfl, rfl⟩
    split <;> exact ⟨rfl, rfl⟩
  | compact =>
    simp only [Engine.call, Engine.compact]
    split
    · exact ⟨rfl, rfl⟩
    split <;> exact ⟨rfl, rfl⟩

end Calls

/-! ## Boot -/

section Boot

variable {options : EngineOptions} {id : BootId} {env : CallEnv} {opened : DurableStore}

theorem interrupt_id (limits : RuntimeLimits) (live : Incarnation) (now : UnixMillis) (a : AttemptRecord) :
    (a.interrupt limits live now).1.id = a.id := rfl

theorem interrupt_moves {limits : RuntimeLimits} {s : DurableState} (live : Incarnation) (now : UnixMillis)
    {a : AttemptRecord} (hstored : s.attempts.find? a.id = some a) (hrun : a.state.isTerminal = false)
    (hvalid : a.state ≠ .invalid) : Moves limits s a (a.interrupt limits live now).1 := by
  refine ⟨hstored, hrun, ?_, rfl, ?_, ?_, ?_⟩
  · have := transitionLegal_interrupted hrun hvalid
    simpa [AttemptRecord.interrupt] using this
  · simp only [AttemptRecord.interrupt]
    split
    · simp
    · omega
  · intro hne hle
    simp only [AttemptRecord.interrupt]
    split
    · refine ⟨by simp, ?_⟩
      simp only [List.length_append, List.length_singleton]
      omega
    · exact ⟨hne, hle⟩
  · by_cases hroom : a.transitions.length < limits.maxAttemptTransitions.toNat
    · refine .recorded ⟨a.state, (a.interrupt limits live now).1.state, live.epoch, live.boot, now,
        if decide (a.state ≠ .issued) then .attemptInterruptedByRestart else .attemptAbandoned, .none⟩
        a.transitions ?_ rfl rfl (.inl ⟨rfl, hroom⟩)
      simp only [AttemptRecord.interrupt, if_pos hroom]
    · refine .skipped ?_ (by omega)
      simp only [AttemptRecord.interrupt, if_neg hroom]

theorem interrupt_state (limits : RuntimeLimits) (live : Incarnation) (now : UnixMillis) (a : AttemptRecord) :
    (a.interrupt limits live now).1.state = .interrupted ∨ (a.interrupt limits live now).1.state = .abandoned := by
  by_cases h : a.state = .issued
  · exact .inr (by simp [AttemptRecord.interrupt, h])
  · exact .inl (by simp [AttemptRecord.interrupt, h])

/-- The store behind a boot, whatever its outcome. -/
def bootStore : Except (Status × DurableStore) Engine → DurableStore
  | .error failed => failed.2
  | .ok e => e.store

theorem installPolicy_paired (options : EngineOptions) (env : CallEnv) (opened : DurableStore) (live : Incarnation) :
    Paired options.limits live none env opened (installPolicy options { opened with faults := env.faults }).2 := by
  unfold installPolicy
  by_cases hhas : opened.state.hasPolicy = true
  · rw [if_pos hhas]
    exact .faults .refl
  rw [if_neg hhas]
  split
  · exact .faults .refl
  generalize (if options.initialPolicy.id.empty = true then defaultPolicy else options.initialPolicy) = policy
  cases hc : canonicalisePolicy policy options.limits with
  | error status => exact .faults .refl
  | ok canonical =>
    exact Paired.commit (.faults .refl) "policy" _
      (.policyPut canonical (canonicalisePolicy_ok hc) fun hp => absurd hp hhas) trivial

/-- The policy step of a boot leaves everything but the policy. -/
theorem installPolicy_frame (env : CallEnv) (hlim : opened.limits = options.limits) (htab : TablesOk options.limits opened.state) :
    (installPolicy options { opened with faults := env.faults }).2.limits = options.limits ∧
      (installPolicy options { opened with faults := env.faults }).2.state.lastEpoch = opened.state.lastEpoch ∧
      (installPolicy options { opened with faults := env.faults }).2.state.attempts = opened.state.attempts ∧
      TablesOk options.limits (installPolicy options { opened with faults := env.faults }).2.state := by
  have hsame : ({ opened with faults := env.faults } : DurableStore).limits = options.limits ∧
      ({ opened with faults := env.faults } : DurableStore).state.lastEpoch = opened.state.lastEpoch ∧
      ({ opened with faults := env.faults } : DurableStore).state.attempts = opened.state.attempts ∧
      TablesOk options.limits ({ opened with faults := env.faults } : DurableStore).state := ⟨hlim, rfl, rfl, htab⟩
  unfold installPolicy
  split
  · exact hsame
  split
  · exact hsame
  split
  · exact hsame
  next canonical hc =>
    have hok := canonicalisePolicy_ok hc
    unfold DurableStore.putPolicy
    rw [commit_limits]
    have hdoc : (Event.policyPut canonical).isDocument = true →
        (Event.policyPut canonical).Ok ({ opened with faults := env.faults } : DurableStore).limits := by
      intro _
      rw [hsame.1]
      exact hok
    rcases commit_result "policy" hdoc with ⟨-, -, q, hq⟩ | ⟨-, q, hq⟩
    · rw [hq]
      exact ⟨hlim, rfl, rfl, { TablesOk.applyPolicy htab hok with }⟩
    · rw [hq]
      exact ⟨hlim, rfl, rfl, { htab with }⟩

theorem advanceEpoch_paired {limits : RuntimeLimits} {live : Incarnation} {s t : DurableStore}
    (h : Paired limits live none env s t) : Paired limits live none env s (t.advanceEpoch live.epoch).2 := by
  unfold DurableStore.advanceEpoch
  split
  · exact h
  split
  · exact h
  next hlt => exact h.commit "epoch" _ (.epochAdvance rfl (not_le.mp hlt)) trivial

theorem advanceEpoch_ok {t : DurableStore} {epoch : CoordinatorEpoch} (h : (t.advanceEpoch epoch).1.code = .ok) :
    t.state.lastEpoch < epoch ∧ (t.advanceEpoch epoch).2.limits = t.limits ∧
      ∃ q, (t.advanceEpoch epoch).2.state = { t.state with lastEpoch := epoch, sequence := q } := by
  unfold DurableStore.advanceEpoch at h ⊢
  by_cases hro : t.readOnly = true
  · simp [hro, DurableStore.readOnlyStatus] at h
  rw [if_neg hro] at h ⊢
  by_cases hle : epoch ≤ t.state.lastEpoch
  · simp [hle] at h
  rw [if_neg hle] at h ⊢
  have hlt : t.state.lastEpoch < epoch := not_le.mp hle
  obtain ⟨-, -, -, q, hq⟩ := commit_ok (by simp [Event.isDocument]) h
  refine ⟨hlt, commit_limits _ _ _, q, ?_⟩
  rw [hq]
  simp [applyEvent, applyEpoch, hlt]

theorem advanceEpoch_journal {t : DurableStore} {epoch : CoordinatorEpoch} (h : (t.advanceEpoch epoch).1.code = .ok) :
    (t.advanceEpoch epoch).2.journal.writeFailed = t.journal.writeFailed := by
  unfold DurableStore.advanceEpoch at h ⊢
  split
  · rfl
  next hro =>
    rw [if_neg hro] at h
    split
    · rfl
    next hnew =>
      rw [if_neg hnew] at h
      exact commit_journal h

theorem installPolicy_journal {t : DurableStore} (h : (installPolicy options t).1.code = .ok) :
    (installPolicy options t).2.journal.writeFailed = t.journal.writeFailed := by
  unfold installPolicy at h ⊢
  split
  · rfl
  next hnone =>
    rw [if_neg hnone] at h
    split
    · rfl
    next hmay =>
      rw [if_neg hmay] at h
      cases hc : canonicalisePolicy (if options.initialPolicy.id.empty then defaultPolicy else options.initialPolicy)
          options.limits with
      | error status => rfl
      | ok policy =>
        simp only [hc] at h
        exact commit_journal h

/-- The in-flight attempts at a boot. -/
theorem restart_pending {limits : RuntimeLimits} {s : DurableState} (h : TablesOk limits s) :
    Pending s (sortById (s.attempts.values.filter fun a => !a.state.isTerminal)) :=
  pending_filter h fun a ha => by simpa using ha

theorem restartFencing_paired {limits : RuntimeLimits} {live : Incarnation} (now : UnixMillis) {s t : DurableStore}
    (h : Paired limits live none env s t) (htab : TablesOk limits t.state) :
    Paired limits live none env s (commitRestartFencing limits live now t).2 := by
  have hpending := restart_pending htab
  refine Paired.settleAll (interrupt_id limits live now) h hpending ?_
  intro a ha st hst
  obtain ⟨hok, -⟩ := htab.attempts (a.id, a) (OrdMap.find?_eq_some_iff.mp (hpending.stored a ha))
  refine ⟨interrupt_moves live now hst (hpending.running a ha) hok.state,
    .restart rfl (interrupt_state limits live now a), ?_, ⟨rfl, rfl, rfl, rfl, rfl, ⟨rfl, rfl⟩, rfl, rfl⟩, rfl,
    ⟨hok.scope, hok.subject⟩⟩
  rcases interrupt_state limits live now a with hs | hs
  · rw [hs]
    rfl
  · rw [hs]
    rfl

theorem settleAll_lastEpoch {ending : AttemptRecord → AttemptRecord × ReconciliationOutcome} :
    ∀ {victims : List AttemptRecord} {t : DurableStore}, (t.settleAll ending victims).1.code = .ok →
      (t.settleAll ending victims).2.state.lastEpoch = t.state.lastEpoch := by
  intro victims
  induction victims with
  | nil =>
    intro t _
    rfl
  | cons a rest ih =>
    intro t h
    unfold DurableStore.settleAll at h ⊢
    by_cases hs : (t.settle (ending a).1 (ending a).2).1.code ≠ .ok
    · simp only [if_pos hs] at h
      exact absurd h hs
    simp only [if_neg hs] at h ⊢
    push Not at hs
    obtain ⟨-, -, q, hq⟩ := settle_ok hs
    rw [ih h, hq]
    rfl

/-- The incarnation a writable boot creates. -/
def bootLive (opened : DurableStore) (id : BootId) : Incarnation := ⟨opened.state.lastEpoch + 1, id⟩

/-- **`start_paired`**: a writable boot commits a policy, an epoch and the ends of all attempts. -/
theorem start_paired (id : BootId) (env : CallEnv) (hlim : opened.limits = options.limits)
    (htab : TablesOk options.limits opened.state) (hwrite : options.readOnly = false) :
    Paired options.limits (bootLive opened id) none env opened (bootStore (Engine.start options id env opened)) := by
  obtain ⟨hlim1, hepoch1, -, htab1⟩ := installPolicy_frame env hlim htab
  have hinstalled := installPolicy_paired options env opened (bootLive opened id)
  have hnext : (⟨(installPolicy options { opened with faults := env.faults }).2.state.lastEpoch + 1, id⟩ : Incarnation) =
      bootLive opened id := by rw [hepoch1]; rfl
  unfold Engine.start
  rw [if_neg (by simp [hwrite])]
  simp only
  split
  · exact hinstalled
  have hadvanced := advanceEpoch_paired hinstalled
  rw [show (installPolicy options { opened with faults := env.faults }).2.state.lastEpoch + 1 =
    (bootLive opened id).epoch by rw [hepoch1]; rfl]
  split
  · exact hadvanced
  next hok =>
    push Not at hok
    obtain ⟨-, -, q, hq⟩ := advanceEpoch_ok hok
    have htab2 : TablesOk options.limits ((installPolicy options { opened with faults := env.faults }).2.advanceEpoch
        (bootLive opened id).epoch).2.state := by
      rw [hq]
      exact { htab1 with }
    have hfenced := restartFencing_paired env.now hadvanced htab2
    split
    · exact hfenced
    · exact hfenced

theorem start_commits (id : BootId) (env : CallEnv) (hlim : opened.limits = options.limits)
    (htab : TablesOk options.limits opened.state) (hwrite : options.readOnly = false) :
    Commits (Write options.limits (bootLive opened id) none) env opened
      (bootStore (Engine.start options id env opened)) :=
  (start_paired id env hlim htab hwrite).commits

/-- A writable boot that returns OK has not broken the journal. -/
theorem start_journal (hwrite : options.readOnly = false) {e : Engine} (h : Engine.start options id env opened = .ok e) :
    e.store.journal.writeFailed = opened.journal.writeFailed := by
  unfold Engine.start at h
  rw [if_neg (by simp [hwrite])] at h
  simp only at h
  split at h
  · simp at h
  next hinstalled =>
    split at h
    · simp at h
    next hadvanced =>
      split at h
      · simp at h
      next hfenced =>
        push Not at hinstalled hadvanced hfenced
        rw [Except.ok.injEq] at h
        rw [← h]
        exact (settleAll_journal hfenced).trans ((advanceEpoch_journal hadvanced).trans (installPolicy_journal hinstalled))

/-- What a writable boot that returns OK leaves. -/
structure Booted (options : EngineOptions) (id : BootId) (opened : DurableStore) (e : Engine) : Prop where
  options : e.options = options
  live : e.live = bootLive opened id
  newer : opened.state.lastEpoch < e.live.epoch
  epoch : e.store.state.lastEpoch = e.live.epoch
  ended : ∀ k a, e.store.state.attempts.find? k = some a → a.state.isTerminal = true

theorem start_ok (hlim : opened.limits = options.limits) (htab : TablesOk options.limits opened.state)
    (hwrite : options.readOnly = false) {e : Engine} (h : Engine.start options id env opened = .ok e) :
    Booted options id opened e := by
  obtain ⟨hlim1, hepoch1, -, htab1⟩ := installPolicy_frame env hlim htab
  unfold Engine.start at h
  rw [if_neg (by simp [hwrite])] at h
  simp only at h
  split at h
  · simp at h
  split at h
  · simp at h
  next hadvanced =>
    push Not at hadvanced
    obtain ⟨hlt, -, q, hq⟩ := advanceEpoch_ok hadvanced
    split at h
    · simp at h
    next hfenced =>
      push Not at hfenced
      rw [Except.ok.injEq] at h
      subst h
      have hepoch := settleAll_lastEpoch hfenced
      refine ⟨rfl, ?_, ?_, ?_, ?_⟩
      · show (⟨_, id⟩ : Incarnation) = bootLive opened id
        rw [hepoch1]
        rfl
      · show opened.state.lastEpoch < _
        rw [← hepoch1]
        exact hlt
      · show (commitRestartFencing _ _ _ _).2.state.lastEpoch = _
        unfold commitRestartFencing
        rw [hepoch, hq]
      · intro k a ha
        rcases settleAll_ok (interrupt_id _ _ _) hfenced ha with ⟨b, -, rfl⟩ | ⟨hfind, hnot⟩
        · rcases interrupt_state options.limits _ env.now b with hs | hs
          · rw [hs]
            rfl
          · rw [hs]
            rfl
        · -- an attempt that was not ended had already been terminal
          by_contra hrun
          have htab2 : TablesOk options.limits ((installPolicy options { opened with faults := env.faults }).2.advanceEpoch
              ((installPolicy options { opened with faults := env.faults }).2.state.lastEpoch + 1)).2.state := by
            rw [hq]
            exact { htab1 with }
          have hid := (htab2.attempts (k, a) (OrdMap.find?_eq_some_iff.mp hfind)).2
          refine hnot a ?_ hid
          rw [mem_sortById, List.mem_filter]
          exact ⟨OrdMap.mem_values_iff.mpr ⟨k, hfind⟩, by simpa using hrun⟩

end Boot

end FabricReconciliation
