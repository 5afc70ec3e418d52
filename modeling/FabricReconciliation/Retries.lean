import Mathlib.Data.List.Pairwise
import FabricReconciliation.Durability
import FabricReconciliation.Verification

/-!
# Recording an observation again (`engine.cpp:336-407`, `document.cpp:89-108`)

`RecordObservation` stamps the document with the epoch and its clock before it looks for it in the window,
and the digest that tells a duplicate from a conflict binds the stamp. A reporter that repeats a
submission is recognised only when the clock has not moved.

* **`distinct_run`** — no window holds two documents of one reporter, observation and generation;
* **`idempotent_iff`** — a repeated submission is recognised, and a conflict reported for other content
  only, exactly when no retained document says the same under another stamp;
* **`retry_conflicts`** — the retry of a report one millisecond later is a conflict with itself.
-/

namespace FabricReconciliation

open Lib

/-! ## Windows without repetition -/

/-- Documents of one reporter, observation and generation. -/
def ObservationDocument.Twin (x y : ObservationDocument) : Prop :=
  x.reporter = y.reporter ∧ x.observation = y.observation ∧ x.generation = y.generation

instance (x y : ObservationDocument) : Decidable (x.Twin y) := by
  unfold ObservationDocument.Twin
  infer_instance

/-- No window holds two of them. -/
def Distinct (s : DurableState) : Prop := ∀ scope, (s.stream scope).Pairwise fun x y => ¬x.Twin y

theorem Distinct.apart {s : DurableState} (h : Distinct s) {scope : ScopeId} {x y : ObservationDocument}
    (hx : x ∈ s.stream scope) (hy : y ∈ s.stream scope) (htwin : x.Twin y) : x = y := by
  have hsymm : Std.Symm fun x y : ObservationDocument => ¬x.Twin y :=
    ⟨fun _ _ hapart htwin => hapart ⟨htwin.1.symm, htwin.2.1.symm, htwin.2.2.symm⟩⟩
  by_contra hne
  exact (h scope).forall hx hy hne htwin

/-- The window has no document with the new one's identity. -/
def Unknown (s : DurableState) (d : ObservationDocument) : Prop := ∀ x ∈ s.stream d.scope, ¬x.Twin d

theorem unknown_windowed : Windowed Unknown := by
  intro s t d h hs
  unfold Unknown
  rw [← stream_congr h]
  exact hs

section Scan

variable {document x : ObservationDocument} {stream : List ObservationDocument}
  {highest result : Option ObservationGeneration}

/-- The scan goes on to the end past documents of other identities only. -/
theorem scanStream_unknown (h : Engine.scanStream document stream highest = .ok result) :
    ∀ y ∈ stream, ¬y.Twin document := by
  induction stream generalizing highest with
  | nil => simp
  | cons retained rest ih =>
    unfold Engine.scanStream at h
    intro y hy htwin
    by_cases hother : retained.reporter ≠ document.reporter
    · rw [if_pos hother] at h
      rcases List.mem_cons.mp hy with rfl | hrest
      · exact hother htwin.1
      · exact ih h y hrest htwin
    rw [if_neg hother] at h
    by_cases hsame : retained.observation = document.observation ∧ retained.generation = document.generation
    · rw [if_pos hsame] at h
      split at h <;> simp at h
    · rw [if_neg hsame] at h
      rcases List.mem_cons.mp hy with rfl | hrest
      · exact hsame htwin.2
      · exact ih h y hrest htwin

/-- It stops at the document that has the identity. -/
theorem scanStream_twin (hx : x ∈ stream) (htwin : x.Twin document)
    (hdistinct : stream.Pairwise fun x y => ¬x.Twin y) :
    Engine.scanStream document stream highest =
      if x.digest = document.digest then .error (Status.okWith .duplicateObservationIdentical, x)
      else .error (⟨.conflictState, .conflictingRepublishers,
        "observation identity and generation already recorded with other content"⟩, document) := by
  induction stream generalizing highest with
  | nil => simp at hx
  | cons retained rest ih =>
    rw [List.pairwise_cons] at hdistinct
    unfold Engine.scanStream
    rcases List.mem_cons.mp hx with rfl | hrest
    · rw [if_neg (by simp [htwin.1]), if_pos ⟨htwin.2.1, htwin.2.2⟩]
    have hapart : ¬retained.Twin document := fun h =>
      hdistinct.1 x hrest ⟨h.1.trans htwin.1.symm, h.2.1.trans htwin.2.1.symm, h.2.2.trans htwin.2.2.symm⟩
    by_cases hother : retained.reporter ≠ document.reporter
    · rw [if_pos hother]
      exact ih hrest hdistinct.2
    · rw [if_neg hother, if_neg fun h => hapart ⟨not_not.mp hother, h⟩]
      exact ih hrest hdistinct.2

end Scan

section Runs

variable {limits : RuntimeLimits} {p : Process} {s t : DurableState}

theorem Observes.distinct (h : Observes limits Unknown s t) (hs : Distinct s) : Distinct t := by
  induction h with
  | same hsame =>
    intro scope
    rw [stream_congr hsame]
    exact hs scope
  | @commit t u h live cause d hd hc htables hu ih =>
    intro scope
    rw [stream_congr hu, stream_applyObservation]
    split
    next hscope =>
      refine List.Pairwise.sublist (List.drop_sublist _ _) (List.pairwise_append.mpr ⟨ih scope, by simp, ?_⟩)
      intro x hx y hy
      rw [List.mem_singleton.mp hy]
      exact hc x (hscope ▸ hx)
    · exact ih scope

/-- Only documents of new identities are admitted. -/
theorem watching_unknown {a : Step} (h : p.Orderly a) : Watching Unknown p a := by
  refine ⟨h, ?_⟩
  rintro e env submission stamp d rfl rfl hgate
  unfold Engine.admitObservation at hgate
  split at hgate
  · simp at hgate
  dsimp only at hgate
  split at hgate
  · simp at hgate
  have hscanned : ∀ {result}, Engine.scanStream (e.stampObservation env submission stamp)
      (e.store.state.stream submission.scope) none = .ok result → d = e.stampObservation env submission stamp →
      Unknown e.store.state d := by
    rintro result hscan rfl
    exact scanStream_unknown hscan
  split at hgate
  · simp at hgate
  next highest hscan =>
    split at hgate
    · simp at hgate
    · exact hscanned hscan (Except.ok.inj hgate).symm
  next hscan => exact hscanned hscan (Except.ok.inj hgate).symm

/-- **`distinct_run`**. -/
theorem distinct_run (h : Run limits Process.Orderly p) : Distinct p.state := by
  have hinitial : Kept limits (.down {} {}) View.initial := .down (.blank ⟨rfl, rfl⟩ rfl rfl)
  obtain ⟨v, hv, -, ho⟩ := watching_later unknown_windowed hinitial ⟨good_initial limits, by simp [View.initial]⟩
    (h.ofStart.mono fun _ _ => watching_unknown)
  have hdistinct := ho.distinct (fun scope => by simp [DurableState.stream, View.initial, DurableState.tables,
    DurableState.core])
  rw [hv.tables] at hdistinct
  exact hdistinct

end Runs

/-! ## Repeated submissions -/

/-- Only the stamps differ, if anything. -/
def ObservationDocument.Carries (d : ObservationDocument) (submission : ObservationSubmission) : Prop :=
  d = (submission.document d.receivedEpoch d.receivedUnixMs).withKeyIds

instance (d : ObservationDocument) (submission : ObservationSubmission) : Decidable (d.Carries submission) :=
  inferInstanceAs (Decidable (_ = _))

/-- `RecordObservation` (`engine.cpp:336`). -/
def Engine.recordObservation (e : Engine) (env : CallEnv) (submission : ObservationSubmission) :
    Status × Option ObservationCommitResult × Engine := e.recordObservationAt env submission 0

/-- The engine, or the one it has become by calls since, accepted the submission as `d` and still retains it. -/
structure Held (limits : RuntimeLimits) (e : Engine) (submission : ObservationSubmission) (d : ObservationDocument) :
    Prop where
  accepted : ∃ recorder env stamp, Run limits Process.Orderly (.up recorder) ∧
    Accepted (.up recorder) (.call (.recordObservationAt submission stamp) env) submission ∧
    d = (recorder.stampObservation env submission stamp).withKeyIds ∧
    Calls (fun _ _ _ => True) (recorder.call env (.recordObservationAt submission stamp)).2 e
  retained : d ∈ e.store.state.stream submission.scope

/-- Recording again what was accepted is a duplicate and changes nothing, and only a retained document that
says something else is a conflict. -/
structure Idempotent (limits : RuntimeLimits) (e : Engine) (env : CallEnv) (submission : ObservationSubmission) :
    Prop where
  recognised : ∀ d, Held limits e submission d → e.recordObservation env submission =
    (Status.okWith .duplicateObservationIdentical, some ⟨true, d⟩, e)
  conflict : (e.recordObservation env submission).1.code = .conflictState →
    ∃ d ∈ e.store.state.stream submission.scope, d.reporter = submission.reporter ∧
      d.observation = submission.observation ∧ d.generation = submission.generation ∧ ¬d.Carries submission

/-- A retained document says what is submitted, under a stamp that the call does not give. -/
structure Restamped (e : Engine) (env : CallEnv) (submission : ObservationSubmission) (d : ObservationDocument) :
    Prop where
  retained : d ∈ e.store.state.stream submission.scope
  content : d.Carries submission
  stamp : d.receivedEpoch ≠ e.live.epoch ∨ d.receivedUnixMs ≠ env.now
  /-- the two documents, which differ in their stamps, do not collide -/
  digest : d.digest ≠ (submission.document e.live.epoch env.now).digest

theorem ObservationDocument.Carries.twin {d : ObservationDocument} {submission : ObservationSubmission}
    (h : d.Carries submission) (epoch : CoordinatorEpoch) (received : UnixMillis) :
    d.Twin (submission.document epoch received) := by
  unfold ObservationDocument.Carries at h
  rw [h]
  exact ⟨rfl, rfl, rfl⟩

/-! Answers -/

section Answers

variable {limits : RuntimeLimits} {e : Engine} {env : CallEnv} {submission : ObservationSubmission}
  {d : ObservationDocument}

theorem append_code (j : Journal) (type : RecordType) (payload : Bytes) (io : WriteIo) (file : Bytes) :
    (j.append type payload io file).1.code ≠ .conflictState := by
  unfold Journal.append
  split
  · simp
  split
  · simp
  split
  · simp
  have hwrite : ∀ image, (j.writeAndFlush image io file).1.code ≠ .conflictState := by
    intro image
    unfold Journal.writeAndFlush
    split
    · simp
    split
    · simp [integrityFailure]
    cases io <;> simp [shortWriteStatus, flushFailedStatus, integrityFailure, Status.ok]
  simp only
  split
  · simp [Status.ok]
  · exact hwrite _

/-- The journal's failures are no conflicts. -/
theorem commitObservation_code (s : DurableStore) (d : ObservationDocument) :
    (s.commitObservation d).1.code ≠ .conflictState := by
  unfold DurableStore.commitObservation DurableStore.commit
  split
  · simp [DurableStore.readOnlyStatus]
  split
  · simp
  rcases happ : s.journal.append (Event.observationCommit d).type (Event.observationCommit d).payload
    (s.faults.headD .ok) (s.directory.journal.getD []) with ⟨status, j, file⟩
  rw [appendAndApply_eq s _ _ happ]
  split
  · have hcode := append_code s.journal (Event.observationCommit d).type (Event.observationCommit d).payload
      (s.faults.headD .ok) (s.directory.journal.getD [])
    rw [happ] at hcode
    exact hcode
  · simp only [Event.type, applyPayload, applyDecoded]
    cases decodeObservationExact (Event.observationCommit d).payload s.limits <;> simp [invalidRecord, Status.ok]

theorem stampObservation_document : e.stampObservation env submission 0 = submission.document e.live.epoch env.now := rfl

/-- The answer when a document of the identity is retained. -/
theorem recordObservation_twin (hdistinct : Distinct e.store.state) (hmode : e.store.readOnly = false)
    (hvalid : (validateSubmission submission e.options.limits).code = .ok)
    (hd : d ∈ e.store.state.stream submission.scope) (htwin : d.Twin (submission.document e.live.epoch env.now)) :
    e.recordObservation env submission =
      if d.digest = (submission.document e.live.epoch env.now).digest then
        (Status.okWith .duplicateObservationIdentical, some ⟨true, d⟩, e)
      else (⟨.conflictState, .conflictingRepublishers,
        "observation identity and generation already recorded with other content"⟩,
        some ⟨false, submission.document e.live.epoch env.now⟩, e) := by
  have hscan : Engine.scanStream _ _ none = _ := scanStream_twin hd htwin (hdistinct submission.scope)
  unfold Engine.recordObservation Engine.recordObservationAt Engine.admitObservation
  rw [if_neg (by simp [hmode])]
  dsimp only
  rw [if_neg (by simp [hvalid]), stampObservation_document]
  unfold DurableState.stream at hscan
  rw [hscan]
  by_cases hsame : d.digest = (submission.document e.live.epoch env.now).digest
  · rw [if_pos hsame, if_pos hsame]
    rfl
  · rw [if_neg hsame, if_neg hsame]
    rfl

theorem validateSubmission_code : (validateSubmission submission limits).code ≠ .conflictState := by
  have hstate : ∀ (state : SubjectState) what, (validateState state limits what).code ≠ .conflictState := by
    intro state what
    unfold validateState
    split
    · simp
    split
    · split <;> simp
    · simp [Status.ok]
  have hgo : ∀ (l : List (SubjectId × SubjectEntry)) what,
      (validateSubjects.go limits what l).code ≠ .conflictState := by
    intro l what
    induction l with
    | nil => simp [validateSubjects.go, Status.ok]
    | cons x rest ih =>
      unfold validateSubjects.go
      split
      · simp
      split
      · exact ih
      · exact hstate _ _
  unfold validateSubmission validateSubjects
  split
  · simp
  split
  · simp
  · exact hgo _ _

/-- The scan stops at a document of the identity only. -/
theorem scanStream_stopped {document x : ObservationDocument} {stream : List ObservationDocument}
    {highest : Option ObservationGeneration} {status : Status}
    (h : Engine.scanStream document stream highest = .error (status, x)) (hcode : status.code = .conflictState) :
    ∃ y ∈ stream, y.Twin document ∧ y.digest ≠ document.digest := by
  induction stream generalizing highest with
  | nil => simp [Engine.scanStream] at h
  | cons retained rest ih =>
    unfold Engine.scanStream at h
    have hrest : ∀ {seen}, Engine.scanStream document rest seen = .error (status, x) →
        ∃ y ∈ retained :: rest, y.Twin document ∧ y.digest ≠ document.digest := by
      intro seen hscan
      obtain ⟨y, hy, hfound⟩ := ih hscan
      exact ⟨y, List.mem_cons_of_mem retained hy, hfound⟩
    by_cases hother : retained.reporter ≠ document.reporter
    · rw [if_pos hother] at h
      exact hrest h
    rw [if_neg hother] at h
    by_cases hsame : retained.observation = document.observation ∧ retained.generation = document.generation
    · rw [if_pos hsame] at h
      by_cases hdigest : retained.digest = document.digest
      · rw [if_pos hdigest, Except.error.injEq, Prod.mk.injEq] at h
        rw [← h.1] at hcode
        simp [Status.okWith] at hcode
      · exact ⟨retained, List.mem_cons_self .., ⟨not_not.mp hother, hsame⟩, hdigest⟩
    · rw [if_neg hsame] at h
      exact hrest h

/-- A conflict is about a retained document of the identity with another digest. -/
theorem recordObservation_conflict (h : (e.recordObservation env submission).1.code = .conflictState) :
    e.store.readOnly = false ∧ (validateSubmission submission e.options.limits).code = .ok ∧
      ∃ d ∈ e.store.state.stream submission.scope, d.Twin (submission.document e.live.epoch env.now) ∧
        d.digest ≠ (submission.document e.live.epoch env.now).digest := by
  unfold Engine.recordObservation Engine.recordObservationAt at h
  cases hgate : e.admitObservation env submission 0 with
  | ok document =>
    simp only [hgate] at h
    split at h
    · exact absurd h (commitObservation_code _ _)
    · simp [Status.ok] at h
  | error answer =>
    obtain ⟨status, out⟩ := answer
    simp only [hgate] at h
    unfold Engine.admitObservation at hgate
    by_cases hmode : e.store.readOnly = true
    · rw [if_pos hmode, Except.error.injEq, Prod.mk.injEq] at hgate
      rw [← hgate.1] at h
      simp [Engine.readOnlyStatus] at h
    rw [if_neg hmode] at hgate
    dsimp only at hgate
    by_cases hvalid : (validateSubmission submission e.options.limits).code ≠ .ok
    · rw [if_pos hvalid, Except.error.injEq, Prod.mk.injEq] at hgate
      rw [← hgate.1] at h
      exact absurd h validateSubmission_code
    rw [if_neg hvalid] at hgate
    refine ⟨by simpa using hmode, not_not.mp hvalid, ?_⟩
    split at hgate
    next status' stamped hscan =>
      rw [Except.error.injEq, Prod.mk.injEq] at hgate
      exact scanStream_stopped hscan (by rw [hgate.1]; exact h)
    · split at hgate
      · rw [Except.error.injEq, Prod.mk.injEq] at hgate
        rw [← hgate.1] at h
        simp at h
      · simp at hgate
    · simp at hgate

theorem Commits.readOnly {W : DurableState → Event → Prop} {s t : DurableStore} (h : Commits W env s t) :
    t.readOnly = s.readOnly := by
  induction h with
  | refl => rfl
  | commit h what ev he ih => exact (commit_readOnly _ what ev).trans ih
  | compact h ih => exact (compact_readOnly _ _ _ _).trans ih
  | faults h ih => exact ih

/-- Calls leave the incarnation, the options and the mode as they are. -/
theorem Calls.frame {allowed : Engine → Operation → CallEnv → Prop} {later : Engine} (h : Calls allowed e later)
    (ht : Tracked limits (.up e)) : Tracked limits (.up later) ∧ later.live = e.live ∧
      later.store.readOnly = e.store.readOnly := by
  induction h with
  | refl => exact ⟨ht, rfl, rfl⟩
  | @call t h operation env ha ih =>
    obtain ⟨hup, hlive, hmode⟩ := ih
    exact ⟨hup.step (.call operation env) (by simp), (call_frame t env operation).2.trans hlive,
      (call_commits hup.consistent env operation).readOnly.trans hmode⟩

/-- What is held was received in this incarnation, by a writable engine, as a valid submission. -/
theorem Held.facts (h : Held limits e submission d) : d.Carries submission ∧ d.receivedEpoch = e.live.epoch ∧
    e.store.readOnly = false ∧ (validateSubmission submission limits).code = .ok := by
  obtain ⟨recorder, env, stamp, hrun, haccepted, hd, hcalls⟩ := h.accepted
  have htracked := run_tracked hrun
  obtain ⟨-, hlive, hmode⟩ := hcalls.frame (htracked.step (.call (.recordObservationAt submission stamp) env) (by simp))
  have hwritable : recorder.store.readOnly = false ∧
      (validateSubmission submission recorder.options.limits).code = .ok := by
    cases haccepted with
    | new _ _ _ _ out hok hout hnew =>
      obtain ⟨document, hgate, -⟩ := accepted_admitted hok hout hnew
      unfold Engine.admitObservation at hgate
      by_cases hmode : recorder.store.readOnly = true
      · simp [hmode] at hgate
      rw [if_neg hmode] at hgate
      dsimp only at hgate
      by_cases hvalid : (validateSubmission submission recorder.options.limits).code ≠ .ok
      · simp [hvalid] at hgate
      · exact ⟨by simpa using hmode, not_not.mp hvalid⟩
  refine ⟨?_, ?_, ?_, htracked.consistent.options ▸ hwritable.2⟩
  · rw [hd]
    rfl
  · rw [hd, hlive, (call_frame recorder env _).2]
    rfl
  · rw [hmode, ← hwritable.1]
    exact (call_commits htracked.consistent env (.recordObservationAt submission stamp)).readOnly

/-- **`idempotent_iff`**: the one thing that makes a repeated submission a conflict with itself is its stamp. -/
theorem idempotent_iff (hrun : Run limits Process.Orderly (.up e)) : Idempotent limits e env submission ↔
    (e.store.readOnly = false → (validateSubmission submission limits).code = .ok →
      ∀ d, ¬Restamped e env submission d) := by
  have hdistinct : Distinct e.store.state := distinct_run hrun
  have hlimits : e.options.limits = limits := (run_tracked hrun).consistent.options
  constructor
  · intro h hmode hvalid d hd
    have hanswer := recordObservation_twin hdistinct hmode (by rw [hlimits]; exact hvalid) hd.retained
      (hd.content.twin _ env.now)
    rw [if_neg hd.digest] at hanswer
    obtain ⟨x, hx, hreporter, hobservation, hgeneration, hother⟩ := h.conflict (by rw [hanswer])
    -- the conflicting document is the one that carries the submission
    obtain ⟨h1, h2, h3⟩ := hd.content.twin e.live.epoch env.now
    have hsame : x = d :=
      hdistinct.apart hx hd.retained ⟨hreporter.trans h1.symm, hobservation.trans h2.symm, hgeneration.trans h3.symm⟩
    exact hother (hsame ▸ hd.content)
  · intro h
    have hstamped : ∀ d, d ∈ e.store.state.stream submission.scope → d.Carries submission →
        e.store.readOnly = false → (validateSubmission submission limits).code = .ok →
        d.digest = (submission.document e.live.epoch env.now).digest := by
      intro d hd hcarries hmode hvalid
      by_contra hdigest
      refine h hmode hvalid d ⟨hd, hcarries, ?_, hdigest⟩
      by_contra hstamp
      push Not at hstamp
      refine hdigest ?_
      rw [hcarries, hstamp.1, hstamp.2]
      rfl
    refine ⟨?_, ?_⟩
    · intro d hd
      obtain ⟨hcarries, hepoch, hmode, hvalid⟩ := hd.facts
      rw [recordObservation_twin hdistinct hmode (by rw [hlimits]; exact hvalid) hd.retained (hcarries.twin _ _),
        if_pos (hstamped d hd.retained hcarries hmode hvalid)]
    · intro hconflict
      obtain ⟨hmode, hvalid, d, hd, ⟨hreporter, hobservation, hgeneration⟩, hdigest⟩ :=
        recordObservation_conflict hconflict
      refine ⟨d, hd, hreporter, hobservation, hgeneration, ?_⟩
      intro hcarries
      exact hdigest (hstamped d hd hcarries hmode (by rw [← hlimits]; exact hvalid))

end Answers

/-- The sample report is recorded at clock 1. -/
theorem sample_recorded : ∃ e d, Run {} Process.Orderly (.up e) ∧ Held {} e (sampleReport 1) d ∧
    (∀ x ∈ e.store.state.stream sampleScope, x.receivedEpoch = e.live.epoch ∧ x.receivedUnixMs = 1) ∧
    (e.recordObservation { now := 2 } (sampleReport 1)).1.code = .conflictState := by
  have hruns : (sampleIntended.runs fun r =>
      let recorded := r.recordObservationAt { now := 1 } (sampleReport 1) 0
      decide (recorded.1.code = .ok ∧ recorded.2.1.any (fun out => !out.duplicate) = true ∧
        (r.stampObservation { now := 1 } (sampleReport 1) 0).withKeyIds ∈ recorded.2.2.store.state.stream sampleScope ∧
        (∀ x ∈ recorded.2.2.store.state.stream sampleScope,
          x.receivedEpoch = recorded.2.2.live.epoch ∧ x.receivedUnixMs = 1) ∧
        (recorded.2.2.recordObservation { now := 2 } (sampleReport 1)).1.code = .conflictState)) = true := by
    rw [sampleIntended_eq]
    decide +kernel
  obtain ⟨r, hr, hfacts⟩ := Process.runs_iff.mp hruns
  obtain ⟨hok, hout, hretained, hstamps, hconflict⟩ := of_decide_eq_true hfacts
  obtain ⟨out, hout, hnew⟩ := (Option.any_eq_true _ _).mp hout
  have hintended : Run {} Process.Orderly (.up r) := by
    rw [← hr]
    exact sampleIntended_allowed trivial (.inl rfl)
  have hrun := hintended.call (.recordObservationAt (sampleReport 1) 0) { now := 1 } (.inl rfl)
  refine ⟨_, _, hrun, ⟨⟨r, { now := 1 }, 0, hintended, ?_, rfl, .refl⟩, hretained⟩, hstamps, hconflict⟩
  exact .new r { now := 1 } (sampleReport 1) 0 out hok hout (by simpa using hnew)

/-- At the same clock reading the repeated report is recognised. -/
theorem idempotent_iff_same_clock : ∃ e d, Held {} e (sampleReport 1) d ∧
    Idempotent {} e { now := 1 } (sampleReport 1) := by
  obtain ⟨e, d, hrun, hheld, hstamps, -⟩ := sample_recorded
  refine ⟨e, d, hheld, (idempotent_iff hrun).mpr ?_⟩
  intro _ _ x hx
  obtain ⟨hepoch, hreceived⟩ := hstamps x hx.retained
  rcases hx.stamp with hstamp | hstamp
  · exact hstamp hepoch
  · exact hstamp hreceived

/-- **`retry_conflicts`**: a millisecond later it is a conflict. -/
theorem retry_conflicts : ∃ e d, Run {} Process.Orderly (.up e) ∧ Held {} e (sampleReport 1) d ∧
    ¬Idempotent {} e { now := 2 } (sampleReport 1) := by
  obtain ⟨e, d, hrun, hheld, -, hconflict⟩ := sample_recorded
  refine ⟨e, d, hrun, hheld, ?_⟩
  intro h
  rw [h.recognised d hheld] at hconflict
  simp [Status.okWith] at hconflict

end FabricReconciliation
