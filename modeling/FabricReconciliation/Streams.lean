import FabricReconciliation.Guard

/-!
# Observation streams (`engine.cpp:341-407`, `store.cpp:459-468`, `drift.cpp:314-343`)

One window per scope keeps the last observations of all its reporters in the order of their arrival.
The admission check and the selection look at what the window still holds. `Observes limits C s t`: the
windows of `t` come from those of `s` by admitted documents, each of which satisfied `C` where it arrived.

* **`watching_step`**, **`watching_later`** — this is all that a run does to the windows;
* **`stream_never_regresses`** — the accepted generations of one reporter do not decrease, as long as no
  reporter's last observation is pushed out;
* **`evidence_never_falls_back`** — the highest generation and a conflict at it stay, as long as neither
  is pushed out.
-/

namespace FabricReconciliation

open Lib

/-- The retained observations of a scope, oldest first. -/
def DurableState.stream (s : DurableState) (scope : ScopeId) : List ObservationDocument :=
  (s.observations.find? scope).getD []

section Window

variable {limits : RuntimeLimits} {s t : DurableState} {scope : ScopeId}

theorem stream_congr (h : s.observations = t.observations) : s.stream scope = t.stream scope := by
  unfold DurableState.stream
  rw [h]

theorem stream_applyObservation (d : ObservationDocument) :
    (applyEvent limits s (.observationCommit d)).stream scope =
      if scope = d.scope then
        keepLast limits.maxRetainedObservationsPerScope.toNat (s.stream scope ++ [d.withKeyIds])
      else s.stream scope := by
  show ((s.observations.insert d.scope _).find? scope).getD [] = _
  rw [OrdMap.find?_insert]
  by_cases hscope : scope = d.scope
  · subst hscope
    rw [if_pos rfl, if_pos rfl]
    rfl
  · rw [if_neg hscope, if_neg hscope]
    rfl

theorem length_stream_le (h : TablesOk limits s) (scope : ScopeId) :
    (s.stream scope).length ≤ limits.maxRetainedObservationsPerScope.toNat := by
  unfold DurableState.stream
  cases hfind : s.observations.find? scope with
  | none => simp
  | some stream => exact (h.streams _ (OrdMap.find?_eq_some_iff.mp hfind)).2

/-- What a window of `n` places keeps of `l ++ [d]`: all of it, all but the oldest, or nothing. -/
theorem keepLast_concat {α : Type} {n : Nat} {l : List α} (h : l.length ≤ n) (d : α) :
    l.length < n ∧ keepLast n (l ++ [d]) = l ++ [d] ∨
      (∃ oldest rest, l = oldest :: rest ∧ n = rest.length + 1 ∧ keepLast n (l ++ [d]) = rest ++ [d]) ∨
      n = 0 ∧ l = [] ∧ keepLast n (l ++ [d]) = [] := by
  unfold keepLast
  rw [List.length_append, List.length_singleton]
  by_cases hroom : l.length < n
  · left
    rw [show l.length + 1 - n = 0 by omega]
    exact ⟨hroom, rfl⟩
  right
  cases l with
  | nil =>
    right
    have hn : n = 0 := by simpa using hroom
    subst hn
    exact ⟨rfl, rfl, rfl⟩
  | cons oldest rest =>
    left
    rw [List.length_cons] at h hroom
    refine ⟨oldest, rest, rfl, by omega, ?_⟩
    rw [List.length_cons, show rest.length + 1 + 1 - n = 1 by omega]
    rfl

end Window

/-! ## What a run does to the windows -/

/-- The windows evolve by admitted documents that satisfy `C` where they arrive. -/
inductive Observes (limits : RuntimeLimits) (C : DurableState → ObservationDocument → Prop) (s : DurableState) :
    DurableState → Prop
  | same {t : DurableState} (h : t.observations = s.observations) : Observes limits C s t
  | commit {t u : DurableState} (h : Observes limits C s t) {live : Incarnation} {cause : Option Operation}
      (d : ObservationDocument) (hd : Write limits live cause t (.observationCommit d)) (hc : C t d)
      (htables : TablesOk limits t)
      (hu : u.observations = (applyEvent limits t (.observationCommit d)).observations) : Observes limits C s u

/-- `C` reads nothing of a state but its windows. -/
def Windowed (C : DurableState → ObservationDocument → Prop) : Prop :=
  ∀ s t d, s.observations = t.observations → C s d → C t d

/-- Each document that a step admits satisfies `C`. -/
structure Watching (C : DurableState → ObservationDocument → Prop) (p : Process) (a : Step) : Prop where
  orderly : p.Orderly a
  admitted : ∀ e env submission stamp d, p = .up e → a = .call (.recordObservationAt submission stamp) env →
    e.admitObservation env submission stamp = .ok d → C e.store.state d

/-- The document beyond memory satisfies `C`, too. -/
structure View.Watched (limits : RuntimeLimits) (C : DurableState → ObservationDocument → Prop) (v : View) : Prop
    extends v.Good limits where
  pending : ∀ d, v.pending = some (.observationCommit d) → C v.memory d

section Watch

variable {limits : RuntimeLimits} {C : DurableState → ObservationDocument → Prop} {s t u : DurableState}

theorem Observes.trans (h : Observes limits C s t) (h' : Observes limits C t u) : Observes limits C s u := by
  induction h' with
  | same hsame =>
    cases h with
    | same h => exact .same (hsame.trans h)
    | commit h d hd hc htables hu => exact .commit h d hd hc htables (hsame.trans hu)
  | commit h' d hd hc htables hu ih => exact .commit ih d hd hc htables hu

variable {live : Incarnation} {cause : Option Operation} {v w : View} {e : Engine} {env : CallEnv}

/-- Calls other than `RecordObservation` and boots touch no window. -/
theorem View.Watched.acts (h : v.Watched limits C)
    (hcause : ∀ submission stamp, cause ≠ some (.recordObservationAt submission stamp))
    (hcongr : Windowed C) (hacts : Acts limits live cause v w) :
    w.Watched limits C ∧ w.memory.observations = v.memory.observations := by
  have hgood := h.toGood.acts hacts
  obtain ⟨hsame, hpending⟩ := hacts.each (J := fun u => u.memory.observations = v.memory.observations ∧
    ∀ d, u.pending = some (.observationCommit d) → C u.memory d) ⟨rfl, h.pending⟩
    (by
      rintro u x e ok ⟨hsame, hpending⟩ he happend
      have hother : ∀ d, e ≠ .observationCommit d := by
        rintro d rfl
        cases he with
        | observationCommit d hok hepoch hc hnewest =>
          obtain ⟨submission, stamp, hc, -⟩ := hc
          exact hcause submission stamp hc
      have hmem : x.memory.observations = u.memory.observations := by
        rcases happend.memory with ⟨-, -, -, hmem⟩ | ⟨-, hmem⟩
        · rw [hmem]
          cases he with
          | observationCommit d hok hepoch hc hnewest => exact absurd rfl (hother d)
          | _ => rfl
        · rw [hmem]
      refine ⟨hmem.trans hsame, ?_⟩
      intro d hd
      rcases happend.pending with ⟨hkept, -⟩ | hnone | ⟨hnew, -, -⟩
      · exact hcongr _ _ _ hmem.symm (hpending d (hkept ▸ hd))
      · simp [hnone] at hd
      · rw [hnew, Option.some.injEq] at hd
        exact absurd hd (hother d))
    (by
      rintro u ⟨hsame, -⟩
      exact ⟨hsame, by simp⟩)
  exact ⟨⟨hgood, hpending⟩, hsame⟩

/-- `RecordObservationAt` appends at most one record. -/
theorem recordObservationAt_view (h : Follows limits e.store v) (hcons : Consistent limits e)
    (submission : ObservationSubmission) (stamp : UnixMillis)
    (hserial : env.io.reopened = true ∨
      (e.recordObservationAt env submission stamp).2.2.store.directory.log.length < 2 ^ 64) :
    ∃ w, Follows limits (e.recordObservationAt env submission stamp).2.2.store w ∧
      (w = v ∨ ∃ d, e.admitObservation env submission stamp = .ok d ∧
        Write limits e.live (some (.recordObservationAt submission stamp)) v.memory (.observationCommit d) ∧
        ∃ ok u, Append limits v (.observationCommit d) ok u ∧ (w = u ∨ w = { u with pending := none })) := by
  unfold Engine.recordObservationAt at hserial ⊢
  cases hgate : e.admitObservation env submission stamp with
  | error answer => exact ⟨v, h, .inl rfl⟩
  | ok d =>
    simp only [hgate] at hserial ⊢
    obtain ⟨hd, hok, hnewest⟩ := admitObservation_ok hcons hgate
    have hwrite : Write limits e.live (some (.recordObservationAt submission stamp)) v.memory (.observationCommit d) := by
      rw [h.memory]
      refine Write.tables (.observationCommit d hok ?_ ⟨submission, stamp, rfl, ?_⟩ hnewest)
      · rw [hd]
        rfl
      · rw [hd]
        rfl
    obtain ⟨ok, u, happend, hu, hcode⟩ := (h.faults env.faults).commit "observation"
      (e := .observationCommit d) (fun _ => hok)
    have hdone : ∀ {w}, w = u ∨ w = { u with pending := none } →
        (w = v ∨ ∃ d', Except.ok d = (Except.ok d' : Except (Status × Option ObservationCommitResult) _) ∧
          Write limits e.live (some (.recordObservationAt submission stamp)) v.memory (.observationCommit d') ∧
          ∃ ok u, Append limits v (.observationCommit d') ok u ∧ (w = u ∨ w = { u with pending := none })) :=
      fun hw => .inr ⟨d, rfl, hwrite, ok, u, happend, hw⟩
    by_cases hs : ((e.under env).store.commitObservation d).1.code ≠ .ok
    · simp only [if_pos hs]
      exact ⟨u, hu, hdone (.inl rfl)⟩
    simp only [if_neg hs] at hserial ⊢
    rw [(maybeCompact_state _ env).2] at hserial
    obtain ⟨w, hw, hcase⟩ := hu.maybeCompact (e := e.withStore ((e.under env).store.commitObservation d).2) hserial
    exact ⟨w, hw, hdone hcase⟩

/-- One admitted document in the view. -/
theorem View.Watched.append {d : ObservationDocument} {ok : Bool} {x : View} (h : v.Watched limits C)
    (hd : Write limits live cause v.memory (.observationCommit d)) (hc : C v.memory d)
    (happend : Append limits v (.observationCommit d) ok x) :
    x.Watched limits C ∧ Observes limits C v.memory x.memory := by
  have hpending : ∀ d', x.pending = some (.observationCommit d') → C x.memory d' := by
    intro d' hd'
    rcases happend.pending with ⟨hkept, hmem⟩ | hnone | ⟨hnew, hmem, -⟩
    · rw [hmem]
      exact h.pending d' (hkept ▸ hd')
    · simp [hnone] at hd'
    · rw [hnew, Option.some.injEq, Event.observationCommit.injEq] at hd'
      rw [hmem, ← hd']
      exact hc
  have hsound := happend.sound h.sound hd
  rcases happend.memory with ⟨-, hok, -, hmem⟩ | ⟨-, hmem⟩
  · refine ⟨⟨⟨hsound, ?_⟩, hpending⟩, .commit (.same rfl) d hd hc h.sane.tables (by rw [hmem])⟩
    rw [hmem]
    exact h.sane.write hd hok
  · refine ⟨⟨⟨hsound, ?_⟩, hpending⟩, .same (by rw [hmem])⟩
    rw [hmem]
    exact h.sane

theorem Reopened.watched (h : Reopened limits v w) (hv : v.Watched limits C) :
    w.Watched limits C ∧ Observes limits C v.memory w.memory := by
  cases h with
  | same hnone => exact ⟨hv, .same rfl⟩
  | caughtUp e hsome hfits hok =>
    obtain ⟨live, cause, he⟩ := hv.sound.writable e hsome
    refine ⟨⟨⟨.of_none rfl, hv.sane.write he hok⟩, by simp⟩, ?_⟩
    cases he with
    | observationCommit d hok' hepoch hcause hnewest =>
      exact .commit (.same rfl) d (.observationCommit d hok' hepoch hcause hnewest) (hv.pending d hsome)
        hv.sane.tables rfl
    | _ => exact .same rfl

variable {p q : Process}

/-- **`watching_step`**. -/
theorem watching_step (hcongr : Windowed C) (hv : Kept limits p v)
    (hwatched : v.Watched limits C) {a : Step} (ha : Watching C p a)
    (hlimits : ∀ options opening id env, a = .boot options opening id env → options.limits = limits) :
    ∃ w, Kept limits (p.step a).2 w ∧ w.Watched limits C ∧ Observes limits C v.memory w.memory := by
  by_cases hobserves : ∃ e env submission stamp, p = .up e ∧ a = .call (.recordObservationAt submission stamp) env
  · obtain ⟨e, env, submission, stamp, rfl, rfl⟩ := hobserves
    have hcons := hv.consistent
    have hstate : v.memory.observations = e.store.state.observations := by
      rw [hv.tables]
      rfl
    cases hv with
    | up hf hoptions hepoch =>
      obtain ⟨w, hw, hcase⟩ := recordObservationAt_view hf hcons submission stamp ha.orderly
      obtain ⟨hopt, hlive⟩ := call_frame e env (.recordObservationAt submission stamp)
      have hgood : w.Watched limits C ∧ Observes limits C v.memory w.memory := by
        rcases hcase with rfl | ⟨d, hgate, hd, ok, u, happend, rfl | rfl⟩
        · exact ⟨hwatched, .same rfl⟩
        · exact hwatched.append hd (hcongr _ _ _ hstate.symm (ha.admitted e env submission stamp d rfl rfl hgate)) happend
        · obtain ⟨hu, ho⟩ :=
            hwatched.append hd (hcongr _ _ _ hstate.symm (ha.admitted e env submission stamp d rfl rfl hgate)) happend
          exact ⟨⟨⟨.of_none rfl, hu.sane⟩, by simp⟩, ho⟩
      refine ⟨w, .up hw ?_ ?_, hgood⟩
      · rw [hopt]
        exact hoptions
      · -- the epoch moves at a boot only
        obtain ⟨w', hw', hacts⟩ := hf.paired (call_paired hcons env (.recordObservationAt submission stamp)) ha.orderly
        have hepochs := hacts.lastEpoch
        rw [hw'.memory, hf.memory] at hepochs
        rw [hlive, hepoch]
        exact hepochs.symm
  · obtain ⟨w, hw, hprogress⟩ := step_progress hv ha.orderly hlimits
    refine ⟨w, hw, ?_⟩
    cases hprogress with
    | idle => exact ⟨hwatched, .same rfl⟩
    | readOnly dir last opening id env hmode h => exact h.watched hwatched
    | boot dir last opening id env hmode h hacts =>
      obtain ⟨hu, ho⟩ := h.watched hwatched
      obtain ⟨hw', hsame⟩ := hu.acts (by simp) hcongr hacts
      exact ⟨hw', ho.trans (.same hsame)⟩
    | call e operation env hacts =>
      obtain ⟨hw', hsame⟩ := hwatched.acts (by
        intro submission stamp hcause
        exact hobserves ⟨e, env, submission, stamp, rfl, by rw [Option.some.inj hcause]⟩) hcongr hacts
      exact ⟨hw', .same hsame⟩

/-- **`watching_later`**. -/
theorem watching_later (hcongr : Windowed C) (hv : Kept limits p v)
    (hwatched : v.Watched limits C) (h : Later limits (Watching C) p q) :
    ∃ w, Kept limits q w ∧ w.Watched limits C ∧ Observes limits C v.memory w.memory := by
  induction h with
  | refl => exact ⟨v, hv, hwatched, .same rfl⟩
  | step h a ha hlimits ih =>
    obtain ⟨u, hu, hwu, ho⟩ := ih
    obtain ⟨w, hw, hww, ho'⟩ := watching_step hcongr hu hwu ha hlimits
    exact ⟨w, hw, hww, ho.trans ho'⟩

theorem watching_run (hcongr : Windowed C) (h : Run limits (Watching C) p) :
    ∃ v, Kept limits p v ∧ v.Watched limits C ∧ Observes limits C {} v.memory := by
  have hinitial : Kept limits (.down {} {}) View.initial := .down (.blank ⟨rfl, rfl⟩ rfl rfl)
  exact watching_later hcongr hinitial ⟨good_initial limits, by simp [View.initial]⟩ h.ofStart

end Watch

/-! ## Submissions that are accepted -/

/-- The step recorded the submission as a new one. -/
inductive Accepted : Process → Step → ObservationSubmission → Prop
  | new (e : Engine) (env : CallEnv) (submission : ObservationSubmission) (stamp : UnixMillis)
      (out : ObservationCommitResult) (hok : (e.recordObservationAt env submission stamp).1.code = .ok)
      (hout : (e.recordObservationAt env submission stamp).2.1 = some out) (hnew : out.duplicate = false) :
      Accepted (.up e) (.call (.recordObservationAt submission stamp) env) submission

section Accept

variable {limits : RuntimeLimits} {e : Engine} {env : CallEnv} {submission : ObservationSubmission}
  {stamp : UnixMillis}

/-- The scan answers OK for a repeated document only. -/
theorem admitObservation_error {status : Status} {answer : Option ObservationCommitResult}
    (h : e.admitObservation env submission stamp = .error (status, answer)) (hok : status.code = .ok) :
    ∃ out, answer = some out ∧ out.duplicate = true := by
  unfold Engine.admitObservation at h
  split at h
  · cases h
    simp [Engine.readOnlyStatus] at hok
  dsimp only at h
  split at h
  next hinvalid =>
    cases h
    exact absurd hok hinvalid
  split at h
  · cases h
    exact ⟨_, rfl, by simpa using hok⟩
  · split at h
    · cases h
      simp at hok
    · simp at h
  · simp at h

/-- An accepted submission went through the admission checks and was stored. -/
theorem accepted_admitted {out : ObservationCommitResult} (hok : (e.recordObservationAt env submission stamp).1.code = .ok)
    (hout : (e.recordObservationAt env submission stamp).2.1 = some out) (hnew : out.duplicate = false) :
    ∃ d, e.admitObservation env submission stamp = .ok d ∧ ((e.under env).store.commitObservation d).1.code = .ok := by
  unfold Engine.recordObservationAt at hok hout
  cases hgate : e.admitObservation env submission stamp with
  | error answer =>
    obtain ⟨status, answer⟩ := answer
    simp only [hgate] at hok hout
    obtain ⟨out', hout', hduplicate⟩ := admitObservation_error hgate hok
    rw [hout', Option.some.injEq] at hout
    rw [← hout, hduplicate] at hnew
    simp at hnew
  | ok d =>
    refine ⟨d, rfl, ?_⟩
    by_contra hs
    simp only [hgate, if_pos hs] at hok
    exact hs hok

/-- The window of the scope after an accepted submission. -/
theorem accepted_stream (hcons : Consistent limits e) {d : ObservationDocument}
    (hgate : e.admitObservation env submission stamp = .ok d)
    (hs : ((e.under env).store.commitObservation d).1.code = .ok) (scope : ScopeId) :
    (e.recordObservationAt env submission stamp).2.2.store.state.stream scope =
      (applyEvent limits e.store.state (.observationCommit d)).stream scope := by
  obtain ⟨-, hok, -⟩ := admitObservation_ok hcons hgate
  have hlim : (e.under env).store.limits = limits := hcons.store
  obtain ⟨-, -, -, q, hq⟩ := commit_ok (s := (e.under env).store) (fun _ => by rw [hlim]; exact hok) hs
  unfold Engine.recordObservationAt
  simp only [hgate]
  rw [if_neg (by simp [hs])]
  obtain ⟨-, -, -, -, -, -, hobservations, -⟩ := tables_eq_iff.mp
    (maybeCompact_state (e.withStore ((e.under env).store.commitObservation d).2) env).1
  rw [stream_congr hobservations, show (e.withStore ((e.under env).store.commitObservation d).2).store.state = _ from hq,
    hlim]
  rfl

/-- What is accepted is retained. -/
theorem accepted_retained {p : Process} {v : View} {a : Step} (hpos : 1 ≤ limits.maxRetainedObservationsPerScope)
    (hv : Kept limits p v) (h : Accepted p a submission) :
    ∃ d ∈ (p.step a).2.state.stream submission.scope, d.reporter = submission.reporter ∧
      d.generation = submission.generation := by
  cases h with
  | new e env submission stamp out hok hout hnew =>
    have hcons := hv.consistent
    obtain ⟨d, hgate, hs⟩ := accepted_admitted hok hout hnew
    obtain ⟨hd, -, -⟩ := admitObservation_ok hcons hgate
    refine ⟨d.withKeyIds, ?_, by rw [hd]; rfl, by rw [hd]; rfl⟩
    show _ ∈ (e.recordObservationAt env submission stamp).2.2.store.state.stream submission.scope
    rw [accepted_stream hcons hgate hs, stream_applyObservation, if_pos (by rw [hd]; rfl)]
    have hn : 1 ≤ limits.maxRetainedObservationsPerScope.toNat := by simpa using UInt64.le_iff_toNat_le.mp hpos
    unfold keepLast
    rw [List.drop_append_of_le_length (by simp only [List.length_append, List.length_singleton]; omega)]
    simp

/-- The window holds nothing but older observations of the document's own reporter. -/
def Alone (s : DurableState) (d : ObservationDocument) : Prop :=
  ∀ old ∈ s.stream d.scope, old.reporter = d.reporter ∧ old.generation < d.generation

theorem watching_alone {C : DurableState → ObservationDocument → Prop} (hC : ∀ s d, Alone s d → C s d) {p : Process}
    {v : View} (hv : Kept limits p v) (horderly : p.Orderly (.call (.recordObservationAt submission stamp) env))
    (h : ∀ old ∈ p.state.stream submission.scope,
      old.reporter = submission.reporter ∧ old.generation < submission.generation) :
    Watching C p (.call (.recordObservationAt submission stamp) env) := by
  refine ⟨horderly, ?_⟩
  rintro e env submission stamp d rfl heq hgate
  injection heq with hoperation
  injection hoperation with hsubmission
  subst hsubmission
  obtain ⟨hd, -, -⟩ := admitObservation_ok hv.consistent hgate
  rw [hd]
  exact hC _ _ h

end Accept

/-- Windows with one place. -/
def narrow : RuntimeLimits := { maxRetainedObservationsPerScope := 1 }

def narrowStart : Process := Process.after (.down {} {}) (.boot { limits := narrow } {} FixedBytes.zero {})

/-- A report by `r` comes in. -/
def reported (p : Process) (generation : ObservationGeneration) : Process :=
  p.after (.call (.recordObservationAt (sampleReport generation) 1) {})

/-- A first report by `q` comes in. -/
def reportedByOther (p : Process) : Process :=
  p.after (.call (.recordObservationAt { sampleReport 1 with reporter := ⟨[0x71], .inr rfl⟩ } 1) {})

theorem narrow_runs {allowed : Process → Step → Prop}
    (h : allowed (.down {} {}) (.boot { limits := narrow } {} FixedBytes.zero {})) : Run narrow allowed narrowStart := by
  rw [narrowStart]
  refine Run.start.after h ?_
  intro options opening id env heq
  injection heq with hoptions
  rw [← hoptions]

section Narrow

variable {allowed : Process → Step → Prop} {p q : Process} {generation : ObservationGeneration}

theorem reported_eq (p : Process) (generation : ObservationGeneration) :
    reported p generation = (p.step (.call (.recordObservationAt (sampleReport generation) 1) {})).2 := rfl

theorem Run.reported (h : Run narrow allowed p)
    (ha : allowed p (.call (.recordObservationAt (sampleReport generation) 1) {})) :
    Run narrow allowed (reported p generation) := h.call _ {} ha

theorem Later.reported (h : Later narrow allowed p q)
    (ha : allowed q (.call (.recordObservationAt (sampleReport generation) 1) {})) :
    Later narrow allowed p (FabricReconciliation.reported q generation) := h.step _ ha (by simp)

theorem Later.reportedByOther (h : Later narrow Process.Orderly p q) :
    Later narrow Process.Orderly p (FabricReconciliation.reportedByOther q) := h.step _ (.inl rfl) (by simp)

end Narrow

/-- The submission would be recorded as a new one. -/
def Process.accepts (p : Process) (submission : ObservationSubmission) : Bool := p.runs fun e =>
  decide ((e.recordObservationAt {} submission 1).1.code = .ok) &&
    (e.recordObservationAt {} submission 1).2.1.any fun out => !out.duplicate

theorem Process.accepts.accepted {p : Process} {submission : ObservationSubmission} (h : p.accepts submission = true) :
    Accepted p (.call (.recordObservationAt submission 1) {}) submission := by
  obtain ⟨e, rfl, he⟩ := Process.runs_iff.mp h
  rw [Bool.and_eq_true, Option.any_eq_true] at he
  obtain ⟨hok, out, hout, hnew⟩ := he
  exact .new e {} submission 1 out (of_decide_eq_true hok) hout (by simpa using hnew)

/-- What the store has taken after some reports. -/
def narrowEvents (submissions : List ObservationSubmission) : List Event :=
  sampleEvents.take 2 ++ submissions.map fun submission => .observationCommit (submission.document 1 1)

/-- The engine after some reports. -/
def narrowEngine (submissions : List ObservationSubmission) : Engine :=
  Engine.on { limits := narrow } {} ⟨1, FixedBytes.zero⟩ 2 (told (narrowEvents submissions)) (narrowEvents submissions)

theorem narrow_ample : Ample narrow := ⟨rfl, rfl⟩

theorem narrowStart_eq : narrowStart = .up (narrowEngine []) := by
  have hboot : Process.step (.down {} {}) (.boot { limits := narrow } {} FixedBytes.zero {}) =
      (Status.ok, .up (narrowEngine [])) := by
    apply boot_recorded rfl rfl rfl rfl rfl
    · exact canonicalisePolicy_self (defaultPolicy_canonical _)
    · exact (sampleEvents_brief _ (by simp [sampleEvents])).fits narrow_ample
    · exact (sampleEvents_brief _ (by simp [sampleEvents])).fits narrow_ample
  rw [narrowStart, Process.after, hboot]

/-- A report without subjects is recorded behind the others. -/
theorem narrow_records {submissions : List ObservationSubmission} {submission : ObservationSubmission}
    (hvalid : (validateSubmission submission narrow).code = .ok) (hempty : submission.subjects = OrdMap.empty)
    {highest : Option ObservationGeneration} (hscan : Engine.scanStream (submission.document 1 1)
      (((tablesAfter narrow FixedBytes.zero (narrowEvents submissions)).observations.find? submission.scope).getD []) none =
        .ok highest) (hnew : ∀ seen, highest = some seen → ¬ submission.generation < seen)
    (hundue : UInt64.ofNat (2 + submissions.length + 1) - 2 < 8192) :
    (narrowEngine submissions).recordObservationAt {} submission 1 =
      (Status.ok, some ⟨false, submission.document 1 1⟩, narrowEngine (submissions ++ [submission])) := by
  have hevents : narrowEvents (submissions ++ [submission]) =
      narrowEvents submissions ++ [.observationCommit (submission.document 1 1)] := by
    simp [narrowEvents]
  have hlength : (narrowEvents submissions).length = 2 + submissions.length := by
    simp only [narrowEvents, List.length_append, List.length_map]
    rfl
  have hsubjects : (encodeSubjects (submission.document 1 1).subjects).Total ∧
      (encodeSubjects (submission.document 1 1).subjects).image.length ≤ 1000 := by
    rw [show (submission.document 1 1).subjects = OrdMap.empty from hempty]
    decide
  have hdone := @recordObservationAt_on {} (told (narrowEvents submissions)) (narrowEvents submissions)
    { limits := narrow } ⟨1, FixedBytes.zero⟩ 2 {} submission 1 rfl hvalid (submission.document 1 1) rfl highest hscan
    hnew ((brief_observation hsubjects.1 hsubjects.2).fits narrow_ample) (.inr (by rw [hlength]; exact hundue))
  rw [narrowEngine, hdone, narrowEngine, hevents, told_append]

section Recording

variable {e e' : Engine} {submission : ObservationSubmission} {d : ObservationDocument}
  (h : e.recordObservationAt {} submission 1 = (Status.ok, some ⟨false, d⟩, e'))
include h

theorem accepts_recorded : (Process.up e).accepts submission = true := by
  simp only [Process.accepts, Process.runs, h, Status.ok, Option.any_some]
  decide

theorem after_recorded : (Process.up e).after (.call (.recordObservationAt submission 1) {}) = .up e' := by
  simp only [Process.after, Process.step, Engine.call, h]

end Recording

theorem narrow_facts :
    (narrowStart.accepts (sampleReport 1) = true ∧
      (reported (reported narrowStart 1) 2).accepts (sampleReport 3) = true ∧
      narrowStart.state.stream sampleScope = [] ∧
      ((reported narrowStart 1).state.stream sampleScope).map (fun d => d.generation) = [1] ∧
      ((reported (reported narrowStart 1) 2).state.stream sampleScope).map (fun d => d.generation) = [2] ∧
      ∀ old ∈ (reported narrowStart 1).state.stream sampleScope,
        old.reporter = (sampleReport 2).reporter ∧ old.generation < (sampleReport 2).generation) ∧
    narrowStart.accepts (sampleReport 5) = true ∧
      (reportedByOther (reported narrowStart 5)).accepts (sampleReport 1) = true ∧
      ∃ d ∈ (reported narrowStart 5).state.stream sampleScope,
        (reportedByOther (reported narrowStart 5)).state.stream sampleScope ≠ [] ∧
        ∀ d' ∈ (reportedByOther (reported narrowStart 5)).state.stream sampleScope, d'.generation < d.generation := by


  have hone := @narrow_records [] (sampleReport 1) rfl rfl none rfl (by simp) (by decide)
  have htwo := @narrow_records [sampleReport 1] (sampleReport 2) rfl rfl (some 1) (by decide)
    (by simp; decide) (by decide)
  have hthree := @narrow_records [sampleReport 1, sampleReport 2] (sampleReport 3) rfl rfl (some 2)
    (by decide) (by simp; decide) (by decide)
  have hfive := @narrow_records [] (sampleReport 5) rfl rfl none rfl (by simp) (by decide)
  have hother := @narrow_records [sampleReport 5] { sampleReport 1 with reporter := ⟨[0x71], .inr rfl⟩ } rfl rfl none
    (by decide) (by simp) (by decide)
  have hagain := @narrow_records [sampleReport 5, { sampleReport 1 with reporter := ⟨[0x71], .inr rfl⟩ }] (sampleReport 1)
    rfl rfl none (by decide) (by simp) (by decide)
  have hfirst : reported narrowStart 1 = .up (narrowEngine [sampleReport 1]) := by
    rw [reported, narrowStart_eq, after_recorded hone]
    rfl
  have hsecond : reported (reported narrowStart 1) 2 = .up (narrowEngine [sampleReport 1, sampleReport 2]) := by
    rw [hfirst, reported, after_recorded htwo]
    rfl
  have hfifth : reported narrowStart 5 = .up (narrowEngine [sampleReport 5]) := by
    rw [reported, narrowStart_eq, after_recorded hfive]
    rfl
  have hlast : reportedByOther (reported narrowStart 5) =
      .up (narrowEngine [sampleReport 5, { sampleReport 1 with reporter := ⟨[0x71], .inr rfl⟩ }]) := by
    rw [hfifth, reportedByOther, after_recorded hother]
    rfl
  rw [hlast, hsecond, hfifth, hfirst, narrowStart_eq]
  refine ⟨⟨accepts_recorded hone, accepts_recorded hthree, ?_⟩, accepts_recorded hfive, accepts_recorded hagain, ?_⟩
  · decide
  · decide

/-! ## One reporter's stream -/

/-- The document pushes out no other reporter's last observation. -/
def Spares (limits : RuntimeLimits) (s : DurableState) (d : ObservationDocument) : Prop :=
  ∀ oldest rest, s.stream d.scope = oldest :: rest →
    limits.maxRetainedObservationsPerScope.toNat = rest.length + 1 →
    oldest.reporter = d.reporter ∨ ∃ kept ∈ rest, kept.reporter = oldest.reporter

/-- Each reporter's retained generations are in the order of their arrival. -/
def Ordered (s : DurableState) : Prop :=
  ∀ scope, (s.stream scope).Pairwise fun x y => x.reporter = y.reporter → x.generation ≤ y.generation

/-- A retained observation shows that the reporter has reached the generation. -/
def Reached (s : DurableState) (scope : ScopeId) (reporter : ReporterId) (generation : ObservationGeneration) : Prop :=
  ∃ d ∈ s.stream scope, d.reporter = reporter ∧ generation ≤ d.generation

section Reporter

variable {limits : RuntimeLimits} {s t : DurableState} {scope : ScopeId} {reporter : ReporterId}
  {generation : ObservationGeneration}

theorem windowed_spares (limits : RuntimeLimits) : Windowed (Spares limits) := by
  intro s t d h hs oldest rest hstream
  rw [← stream_congr h] at hstream
  exact hs oldest rest hstream

theorem Ordered.commit {live : Incarnation} {cause : Option Operation} {d : ObservationDocument} (h : Ordered s)
    (hd : Write limits live cause s (.observationCommit d)) : Ordered (applyEvent limits s (.observationCommit d)) := by
  intro scope
  rw [stream_applyObservation]
  split
  next hscope =>
    subst hscope
    have hnewest : ∀ old ∈ s.stream d.scope, old.reporter = d.reporter → old.generation ≤ d.generation := by
      cases hd with
      | observationCommit d hok hepoch hcause hnewest => exact hnewest
    refine List.Pairwise.sublist (List.drop_sublist _ _) ?_
    rw [List.pairwise_append]
    refine ⟨h d.scope, by simp, ?_⟩
    intro old hold new hnew hreporter
    rw [List.mem_singleton.mp hnew] at hreporter ⊢
    exact hnewest old hold hreporter
  next hother => exact h scope

theorem Ordered.observes {C : DurableState → ObservationDocument → Prop} (h : Observes limits C s t) (hs : Ordered s) :
    Ordered t := by
  induction h with
  | same h =>
    intro scope
    rw [stream_congr h]
    exact hs scope
  | commit h d hd hc htables hu ih =>
    intro scope
    rw [stream_congr hu]
    exact ih.commit hd scope

/-- What a reporter has reached outlives a document that spares it. -/
theorem Reached.commit {d : ObservationDocument} (h : Reached s scope reporter generation) (hs : Ordered s)
    (htables : TablesOk limits s) {live : Incarnation} {cause : Option Operation}
    (hd : Write limits live cause s (.observationCommit d)) (hspares : Spares limits s d) :
    Reached (applyEvent limits s (.observationCommit d)) scope reporter generation := by
  obtain ⟨old, hold, hreporter, hle⟩ := h
  unfold Reached
  rw [stream_applyObservation]
  split
  swap
  · exact ⟨old, hold, hreporter, hle⟩
  next hscope =>
    subst hscope
    have hnewest : ∀ old ∈ s.stream d.scope, old.reporter = d.reporter → old.generation ≤ d.generation := by
      cases hd with
      | observationCommit d hok hepoch hcause hnewest => exact hnewest
    rcases keepLast_concat (length_stream_le htables _) d.withKeyIds with
      ⟨-, hkeep⟩ | ⟨oldest, rest, hstream, hfull, hkeep⟩ | ⟨-, hnil, -⟩
    · rw [hkeep]
      exact ⟨old, List.mem_append_left _ hold, hreporter, hle⟩
    · rw [hkeep]
      rw [hstream] at hold
      rcases List.mem_cons.mp hold with rfl | hrest
      swap
      · exact ⟨old, List.mem_append_left _ hrest, hreporter, hle⟩
      -- the witness itself is pushed out
      have hordered := hs d.scope
      rw [hstream, List.pairwise_cons] at hordered
      rcases hspares old rest hstream hfull with hown | ⟨kept, hkept, hsame⟩
      · refine ⟨d.withKeyIds, by simp, hown.symm.trans hreporter, ?_⟩
        exact le_trans hle (hnewest old (by rw [hstream]; exact List.mem_cons_self ..) hown)
      · exact ⟨kept, List.mem_append_left _ hkept, hsame.trans hreporter,
          le_trans hle (hordered.1 kept hkept hsame.symm)⟩
    · rw [hnil] at hold
      simp at hold

theorem Reached.observes (h : Observes limits (Spares limits) s t) (hs : Ordered s)
    (hr : Reached s scope reporter generation) : Reached t scope reporter generation := by
  induction h with
  | same h =>
    unfold Reached
    rw [stream_congr h]
    exact hr
  | commit h d hd hc htables hu ih =>
    have := ih.commit (hs.observes h) htables hd hc
    unfold Reached at this ⊢
    rw [stream_congr hu]
    exact this

/-- **`stream_never_regresses`**. -/
theorem stream_never_regresses {p q : Process} (hpos : 1 ≤ limits.maxRetainedObservationsPerScope)
    (hp : Run limits (Watching (Spares limits)) p) {a b : Step} (ha : Watching (Spares limits) p a)
    (hq : Later limits (Watching (Spares limits)) (p.step a).2 q) {first second : ObservationSubmission}
    (hfirst : Accepted p a first) (hsecond : Accepted q b second) (hscope : first.scope = second.scope)
    (hreporter : first.reporter = second.reporter) : first.generation ≤ second.generation := by
  obtain ⟨v, hv, hwatched, ho⟩ := watching_run (windowed_spares limits) hp
  have hempty : Ordered {} := by
    intro scope
    simp [DurableState.stream]
  have hordered := hempty.observes ho
  -- the submission is retained when it is accepted
  have hreached : Reached (p.step a).2.state first.scope first.reporter first.generation := by
    obtain ⟨d, hd, hsame, hgeneration⟩ := accepted_retained hpos hv hfirst
    exact ⟨d, hd, hsame, le_of_eq hgeneration.symm⟩
  cases hfirst with
  | new e env first stamp out hok hout hnew =>
    obtain ⟨w, hw, hwatched', ho'⟩ := watching_step (windowed_spares limits) hv hwatched ha (by simp)
    obtain ⟨x, hx, -, hox⟩ := watching_later (windowed_spares limits) hw hwatched' hq
    have hreached' : Reached w.memory first.scope first.reporter first.generation := by
      rw [hw.tables]
      exact hreached
    have hlast := Reached.observes hox (hordered.observes ho') hreached'
    cases hsecond with
    | new e' env' second stamp' out' hok' hout' hnew' =>
      have hcons' := hx.consistent
      obtain ⟨d', hgate', -⟩ := accepted_admitted hok' hout' hnew'
      obtain ⟨hd', -, hnewest⟩ := admitObservation_ok hcons' hgate'
      obtain ⟨old, hold, hsame, hle⟩ := hlast
      rw [hx.tables] at hold
      have hmem : old ∈ (e'.store.state.observations.find? d'.scope).getD [] := by
        rw [hd', show (e'.stampObservation env' second stamp').scope = second.scope from rfl, ← hscope]
        exact hold
      have hbound := hnewest old hmem (by rw [hd', hsame, hreporter]; rfl)
      rw [hd'] at hbound
      exact le_trans hle hbound

theorem spares_alone (s : DurableState) (d : ObservationDocument) (h : Alone s d) : Spares limits s d := by
  intro oldest rest hstream _
  left
  exact (h oldest (by rw [hstream]; exact List.mem_cons_self ..)).1

/-- A reporter that has a window of one place to itself. -/
theorem stream_never_regresses_alone :
    Accepted narrowStart (.call (.recordObservationAt (sampleReport 1) 1) {}) (sampleReport 1) ∧
      Accepted (reported (reported narrowStart 1) 2) (.call (.recordObservationAt (sampleReport 3) 1) {})
        (sampleReport 3) ∧ (sampleReport 1).generation ≤ (sampleReport 3).generation := by
  obtain ⟨hone, hthree, hempty, -, -, hown⟩ := narrow_facts.1
  have hstart : Run narrow (Watching (Spares narrow)) narrowStart := narrow_runs ⟨trivial, by simp⟩
  obtain ⟨v, hv, -, -⟩ := watching_run (windowed_spares narrow) hstart
  have hfirst : Watching (Spares narrow) narrowStart (.call (.recordObservationAt (sampleReport 1) 1) {}) := by
    refine watching_alone spares_alone hv (.inl rfl) ?_
    rw [show (sampleReport 1).scope = sampleScope from rfl, hempty]
    simp
  have hreported : Run narrow (Watching (Spares narrow)) (reported narrowStart 1) := hstart.reported hfirst
  obtain ⟨w, hw, -, -⟩ := watching_run (windowed_spares narrow) hreported
  have hsecond : Watching (Spares narrow) (reported narrowStart 1) (.call (.recordObservationAt (sampleReport 2) 1) {}) :=
    watching_alone spares_alone hw (.inl rfl) hown
  have hlater : Later narrow (Watching (Spares narrow)) (reported narrowStart 1) (reported (reported narrowStart 1) 2) :=
    Later.refl.reported hsecond
  have haccepted := Process.accepts.accepted hone
  have haccepted' := Process.accepts.accepted hthree
  refine ⟨haccepted, haccepted', ?_⟩
  rw [reported_eq narrowStart] at hlater haccepted'
  exact stream_never_regresses (by decide) hstart hfirst hlater haccepted haccepted' rfl rfl

/-- Another reporter takes the only place, and the first one may start again. -/
theorem stream_regresses :
    ∃ p a q b first second, 1 ≤ narrow.maxRetainedObservationsPerScope ∧ Run narrow Process.Orderly p ∧ p.Orderly a ∧
      Later narrow Process.Orderly (p.step a).2 q ∧ Accepted p a first ∧ Accepted q b second ∧
      first.scope = second.scope ∧ first.reporter = second.reporter ∧ second.generation < first.generation := by
  obtain ⟨hfive, hone, -⟩ := narrow_facts.2
  have hstart : Run narrow Process.Orderly narrowStart := narrow_runs trivial
  have hlater : Later narrow Process.Orderly (reported narrowStart 5) (reportedByOther (reported narrowStart 5)) :=
    Later.refl.reportedByOther
  have haccepted := Process.accepts.accepted hone
  rw [reported_eq narrowStart] at hlater haccepted
  exact ⟨narrowStart, .call (.recordObservationAt (sampleReport 5) 1) {}, _, _, sampleReport 5, sampleReport 1,
    by decide, hstart, .inl rfl, hlater, Process.accepts.accepted hfive, haccepted, rfl, rfl, by decide⟩

end Reporter

/-! ## The evidence of a scope -/

/-- What a decision about the scope may rest on. -/
def DurableState.selection (s : DurableState) (scope : ScopeId) : Selection ObservationDocument :=
  selectCurrentObservation (observationCandidates s scope)

/-- `generation` is the highest one. -/
def Latest (documents : List ObservationDocument) (generation : ObservationGeneration) : Prop :=
  (∃ d ∈ documents, d.generation = generation) ∧ ∀ d ∈ documents, d.generation ≤ generation

/-- Two documents of the generation differ. -/
def Disagree (documents : List ObservationDocument) (generation : ObservationGeneration) : Prop :=
  ∃ x ∈ documents, ∃ y ∈ documents, x.generation = generation ∧ y.generation = generation ∧ x.digest ≠ y.digest

/-- The selection is conflicted, and `generation` is where. -/
def Conflicted (s : DurableState) (scope : ScopeId) (generation : ObservationGeneration) : Prop :=
  (s.selection scope).conflicted = true ∧ Latest (s.stream scope) generation

/-- Evidence of a generation beyond this one is retained. -/
def Surpassed (s : DurableState) (scope : ScopeId) (generation : ObservationGeneration) : Prop :=
  ∃ d ∈ s.stream scope, generation < d.generation

/-- What the document pushes out is neither the only one of the highest generation, nor one side of the
only conflict at it, unless the document itself is as high or higher. -/
structure Retains (limits : RuntimeLimits) (s : DurableState) (d : ObservationDocument) : Prop where
  highest : ∀ oldest rest, s.stream d.scope = oldest :: rest →
    limits.maxRetainedObservationsPerScope.toNat = rest.length + 1 →
    ∃ kept ∈ rest ++ [d], oldest.generation ≤ kept.generation
  conflict : ∀ oldest rest generation, s.stream d.scope = oldest :: rest →
    limits.maxRetainedObservationsPerScope.toNat = rest.length + 1 → Latest (oldest :: rest) generation →
    Disagree (oldest :: rest) generation → generation < d.generation ∨ Disagree (rest ++ [d]) generation

section Evidence

variable {limits : RuntimeLimits} {s t : DurableState} {scope : ScopeId} {generation : ObservationGeneration}

/-- The selection of a scope in terms of its window. -/
theorem selection_cases (s : DurableState) (scope : ScopeId) :
    s.stream scope = [] ∧ s.selection scope = ⟨none, false, .noObservationForScope⟩ ∨
    ∃ current ∈ s.stream scope, (∀ d ∈ s.stream scope, d.generation ≤ current.generation) ∧
      ((∃ d ∈ s.stream scope, d.generation = current.generation ∧ d.digest ≠ current.digest) ∧
        s.selection scope = ⟨none, true, .conflictingRepublishers⟩ ∨
      (∀ d ∈ s.stream scope, d.generation = current.generation → d.digest = current.digest) ∧
        s.selection scope = ⟨some current, false, .none⟩) := by
  have hmem : ∀ d, some d ∈ observationCandidates s scope ↔ d ∈ s.stream scope := by
    intro d
    simp [observationCandidates, DurableState.stream]
  rcases selectCurrent_cases ObservationDocument.digest .noObservationForScope (observationCandidates s scope)
      (fun x y => (observationKeyLess_generation x y).1) (fun x y => (observationKeyLess_generation x y).2) with
    ⟨hnone, hselection⟩ | ⟨current, hcurrent, htop, hcase⟩
  · left
    refine ⟨List.eq_nil_iff_forall_not_mem.mpr fun d hd => hnone d ((hmem d).mpr hd), hselection⟩
  · right
    simp only [hmem] at hcurrent htop hcase
    exact ⟨current, hcurrent, htop, hcase⟩

theorem conflicted_iff : Conflicted s scope generation ↔
    Latest (s.stream scope) generation ∧ Disagree (s.stream scope) generation := by
  unfold Conflicted
  rw [and_comm]
  refine and_congr_right fun hlatest => ?_
  obtain ⟨⟨top, htop, hgeneration⟩, hall⟩ := hlatest
  rcases selection_cases s scope with ⟨hnil, -⟩ | ⟨current, hcurrent, hle, hcase⟩
  · rw [hnil] at htop
    simp at htop
  have hsame : current.generation = generation :=
    le_antisymm (hall current hcurrent) (hgeneration ▸ hle top htop)
  rcases hcase with ⟨⟨d, hd, hat, hdiffers⟩, hselection⟩ | ⟨hagree, hselection⟩
  · rw [hselection]
    exact ⟨fun _ => ⟨d, hd, current, hcurrent, hat.trans hsame, hsame, hdiffers⟩, fun _ => rfl⟩
  · rw [hselection]
    refine ⟨by simp, ?_⟩
    rintro ⟨x, hx, y, hy, hgx, hgy, hdiffers⟩
    refine absurd ?_ hdiffers
    rw [hagree x hx (hgx.trans hsame.symm), hagree y hy (hgy.trans hsame.symm)]

theorem windowed_retains (limits : RuntimeLimits) : Windowed (Retains limits) := by
  intro s t d h hs
  refine ⟨?_, ?_⟩
  · intro oldest rest hstream
    rw [← stream_congr h] at hstream
    exact hs.highest oldest rest hstream
  · intro oldest rest generation hstream
    rw [← stream_congr h] at hstream
    exact hs.conflict oldest rest generation hstream

/-- Keys do not matter for a disagreement. -/
theorem Disagree.withKeyIds {rest : List ObservationDocument} {d : ObservationDocument}
    (h : Disagree (rest ++ [d]) generation) : Disagree (rest ++ [d.withKeyIds]) generation := by
  have hstored : ∀ x ∈ rest ++ [d], ∃ y ∈ rest ++ [d.withKeyIds], y.generation = x.generation ∧ y.digest = x.digest := by
    intro x hx
    rcases List.mem_append.mp hx with hx | hx
    · exact ⟨x, List.mem_append_left _ hx, rfl, rfl⟩
    · rw [List.mem_singleton.mp hx]
      exact ⟨d.withKeyIds, by simp, rfl, rfl⟩
  obtain ⟨x, hx, y, hy, hgx, hgy, hdiffers⟩ := h
  obtain ⟨x', hx', hgx', hdx'⟩ := hstored x hx
  obtain ⟨y', hy', hgy', hdy'⟩ := hstored y hy
  exact ⟨x', hx', y', hy', hgx'.trans hgx, hgy'.trans hgy, by rw [hdx', hdy']; exact hdiffers⟩

/-- A document that retains the highest generation. -/
theorem Retains.highest_commit {d : ObservationDocument} (h : Retains limits s d) (htables : TablesOk limits s)
    {x : ObservationDocument} (hx : x ∈ s.stream scope) :
    ∃ y ∈ (applyEvent limits s (.observationCommit d)).stream scope, x.generation ≤ y.generation := by
  rw [stream_applyObservation]
  split
  swap
  · exact ⟨x, hx, le_refl _⟩
  next hscope =>
    subst hscope
    rcases keepLast_concat (length_stream_le htables _) d.withKeyIds with
      ⟨-, hkeep⟩ | ⟨oldest, rest, hstream, hfull, hkeep⟩ | ⟨-, hnil, -⟩
    · rw [hkeep]
      exact ⟨x, List.mem_append_left _ hx, le_refl _⟩
    · rw [hkeep]
      rw [hstream] at hx
      rcases List.mem_cons.mp hx with rfl | hrest
      · obtain ⟨kept, hkept, hle⟩ := h.highest x rest hstream hfull
        rcases List.mem_append.mp hkept with hkept | hkept
        · exact ⟨kept, List.mem_append_left _ hkept, hle⟩
        · rw [List.mem_singleton.mp hkept] at hle
          exact ⟨d.withKeyIds, by simp, hle⟩
      · exact ⟨x, List.mem_append_left _ hrest, le_refl _⟩
    · rw [hnil] at hx
      simp at hx

/-- A document that retains a conflict, or settles it. -/
theorem Retains.conflict_commit {d : ObservationDocument} (h : Retains limits s d) (htables : TablesOk limits s)
    (hconflict : Conflicted s scope generation) :
    Conflicted (applyEvent limits s (.observationCommit d)) scope generation ∨
      Surpassed (applyEvent limits s (.observationCommit d)) scope generation := by
  obtain ⟨hlatest, hdisagree⟩ := conflicted_iff.mp hconflict
  rw [conflicted_iff]
  unfold Surpassed
  rw [stream_applyObservation]
  split
  swap
  · exact .inl ⟨hlatest, hdisagree⟩
  next hscope =>
    subst hscope
    -- what stays in the window together with the document
    have hfinish : ∀ kept : List ObservationDocument, (∀ x ∈ kept, x ∈ s.stream d.scope) →
        Disagree (kept ++ [d.withKeyIds]) generation ∨ generation < d.generation →
        (Latest (kept ++ [d.withKeyIds]) generation ∧ Disagree (kept ++ [d.withKeyIds]) generation) ∨
          ∃ x ∈ kept ++ [d.withKeyIds], generation < x.generation := by
      intro kept hkept hcase
      by_cases hhigher : generation < d.generation
      · exact .inr ⟨d.withKeyIds, by simp, hhigher⟩
      have hdisagree := hcase.resolve_right hhigher
      obtain ⟨x, hx, y, hy, hgx, hgy, hdiffers⟩ := hdisagree
      refine .inl ⟨⟨⟨x, hx, hgx⟩, ?_⟩, x, hx, y, hy, hgx, hgy, hdiffers⟩
      intro z hz
      rcases List.mem_append.mp hz with hz | hz
      · exact hlatest.2 z (hkept z hz)
      · rw [List.mem_singleton.mp hz]
        exact not_lt.mp hhigher
    rcases keepLast_concat (length_stream_le htables _) d.withKeyIds with
      ⟨-, hkeep⟩ | ⟨oldest, rest, hstream, hfull, hkeep⟩ | ⟨-, hnil, -⟩
    · rw [hkeep]
      obtain ⟨x, hx, y, hy, hrest⟩ := hdisagree
      exact hfinish _ (fun x hx => hx) (.inl ⟨x, List.mem_append_left _ hx, y, List.mem_append_left _ hy, hrest⟩)
    · rw [hkeep]
      refine hfinish rest (fun x hx => by rw [hstream]; exact List.mem_cons_of_mem _ hx) ?_
      rw [hstream] at hlatest hdisagree
      rcases h.conflict oldest rest generation hstream hfull hlatest hdisagree with hhigher | hstays
      · exact .inr hhigher
      · exact .inl hstays.withKeyIds
    · obtain ⟨⟨x, hx, -⟩, -⟩ := hlatest
      rw [hnil] at hx
      simp at hx

/-- The evidence of `t` does not lag behind that of `s`. -/
structure Advances (s t : DurableState) (scope : ScopeId) : Prop where
  highest : ∀ d ∈ s.stream scope, ∃ d' ∈ t.stream scope, d.generation ≤ d'.generation
  conflict : ∀ generation, Conflicted s scope generation → Conflicted t scope generation ∨ Surpassed t scope generation

theorem Advances.of_observations (h : t.observations = s.observations) : Advances s t scope := by
  have hstream : t.stream scope = s.stream scope := stream_congr h
  refine ⟨fun d hd => ⟨d, by rw [hstream]; exact hd, le_refl _⟩, fun generation hs => .inl ?_⟩
  rw [conflicted_iff, hstream]
  exact conflicted_iff.mp hs

theorem Advances.trans {u : DurableState} (h : Advances s t scope) (h' : Advances t u scope) : Advances s u scope := by
  refine ⟨?_, ?_⟩
  · intro d hd
    obtain ⟨mid, hmid, hle⟩ := h.highest d hd
    obtain ⟨last, hlast, hle'⟩ := h'.highest mid hmid
    exact ⟨last, hlast, le_trans hle hle'⟩
  · intro generation hs
    rcases h.conflict generation hs with ht | ⟨mid, hmid, hlt⟩
    · exact h'.conflict generation ht
    · obtain ⟨last, hlast, hle⟩ := h'.highest mid hmid
      exact .inr ⟨last, hlast, lt_of_lt_of_le hlt hle⟩

theorem Observes.advances (h : Observes limits (Retains limits) s t) (scope : ScopeId) : Advances s t scope := by
  induction h with
  | same h => exact .of_observations h
  | commit h d hd hc htables hu ih =>
    have hcommit : Advances _ (applyEvent limits _ (.observationCommit d)) scope :=
      ⟨fun x hx => hc.highest_commit htables hx, fun generation hs => hc.conflict_commit htables hs⟩
    exact (ih.trans hcommit).trans (.of_observations hu)

/-- A plan rests on an observation of the highest generation, or on none. -/
theorem buildPlan_latest {live : Incarnation} {request : PlanRequest} {clock : UnixMillis} {plan : ReconciliationPlan}
    (hplan : buildPlan limits s live request clock = .ok plan) (hset : plan.observation ≠ StringId.none) :
    Latest (s.stream request.scope) plan.observationGeneration := by
  obtain ⟨report, hreport, rfl⟩ := buildPlan_ok hplan
  obtain ⟨policy, -, hevidence, -⟩ := classifyScope_ok hreport
  have hset : report.evidence.observation ≠ StringId.none := hset
  show Latest (s.stream request.scope) report.evidence.observationGeneration
  rw [hevidence] at hset ⊢
  change (evidenceOf _ (s.selection request.scope).selected _ _ _).observation ≠ _ at hset
  change Latest _ (evidenceOf _ (s.selection request.scope).selected _ _ _).observationGeneration
  have hnone : ∀ intent policy epoch now, (evidenceOf intent none policy epoch now).observation = StringId.none := by
    intro intent policy epoch now
    cases intent <;> rfl
  rcases selection_cases s request.scope with ⟨-, hselection⟩ | ⟨current, hcurrent, htop, ⟨-, hselection⟩ | ⟨-, hselection⟩⟩
  · rw [hselection] at hset
    exact absurd (hnone _ _ _ _) hset
  · rw [hselection] at hset
    exact absurd (hnone _ _ _ _) hset
  · rw [hselection]
    have hgeneration : ∀ intent policy epoch now,
        (evidenceOf intent (some current) policy epoch now).observationGeneration = current.generation := by
      intro intent policy epoch now
      cases intent <;> rfl
    rw [hgeneration]
    exact ⟨⟨current, hcurrent, rfl⟩, htop⟩

/-- **`evidence_never_falls_back`**. -/
theorem evidence_never_falls_back {p q : Process} (hp : Run limits (Watching (Retains limits)) p)
    (hq : Later limits (Watching (Retains limits)) p q) :
    (∀ scope, Advances p.state q.state scope) ∧
    (∀ e env request plan, q = .up e → e.plan env request = .ok plan → plan.observation ≠ StringId.none →
      ∀ d ∈ p.state.stream request.scope, d.generation ≤ plan.observationGeneration) ∧
    ∀ a submission r, Watching (Retains limits) p a → Accepted p a submission →
      Later limits (Watching (Retains limits)) (p.step a).2 r → ∀ e env request plan, r = .up e →
      e.plan env request = .ok plan → plan.observation ≠ StringId.none → request.scope = submission.scope →
      submission.generation ≤ plan.observationGeneration := by
  have hadvances : ∀ {p q : Process}, Run limits (Watching (Retains limits)) p →
      Later limits (Watching (Retains limits)) p q → ∀ scope, Advances p.state q.state scope := by
    intro p q hp hq scope
    obtain ⟨v, hv, hwatched, -⟩ := watching_run (windowed_retains limits) hp
    obtain ⟨w, hw, -, ho⟩ := watching_later (windowed_retains limits) hv hwatched hq
    have hbefore : v.memory.observations = p.state.observations := by rw [hv.tables]; rfl
    have hafter : w.memory.observations = q.state.observations := by rw [hw.tables]; rfl
    exact ((Advances.of_observations hbefore).trans (ho.advances scope)).trans (.of_observations hafter.symm)
  refine ⟨hadvances hp hq, ?_, ?_⟩
  · rintro e env request plan rfl hplan hset d hd
    obtain ⟨d', hd', hle⟩ := (hadvances hp hq request.scope).highest d hd
    exact le_trans hle ((buildPlan_latest hplan hset).2 d' hd')
  · rintro a submission r ha haccepted hr e env request plan rfl hplan hset hscope
    obtain ⟨v, hv, -, -⟩ := watching_run (windowed_retains limits) hp
    have hq : Run limits (Watching (Retains limits)) (p.step a).2 := .step hp a ha (by
      cases haccepted
      simp)
    have hlatest := buildPlan_latest hplan hset
    by_cases hpos : 1 ≤ limits.maxRetainedObservationsPerScope
    · obtain ⟨d, hd, -, hgeneration⟩ := accepted_retained hpos hv haccepted
      rw [← hscope] at hd
      obtain ⟨d', hd', hle⟩ := (hadvances hq hr request.scope).highest d hd
      rw [← hgeneration]
      exact le_trans hle (hlatest.2 d' hd')
    · -- a window without places retains nothing to plan on
      obtain ⟨w, hw, -, -⟩ := watching_run (windowed_retains limits) (hq.later hr)
      have hzero : limits.maxRetainedObservationsPerScope.toNat = 0 := by
        have := UInt64.le_iff_toNat_le.not.mp hpos
        simpa using this
      have hlength := length_stream_le hw.tablesOk request.scope
      rw [hw.tables, hzero] at hlength
      obtain ⟨⟨d, hd, -⟩, -⟩ := hlatest
      have hnil : (e.store.state.stream request.scope) = [] := List.length_eq_zero_iff.mp (Nat.le_zero.mp hlength)
      rw [hnil] at hd
      simp at hd

theorem retains_alone (s : DurableState) (d : ObservationDocument) (h : Alone s d) : Retains limits s d := by
  have hbefore : ∀ {oldest rest}, s.stream d.scope = oldest :: rest → ∀ x ∈ oldest :: rest, x.generation < d.generation := by
    intro oldest rest hstream x hx
    exact (h x (by rw [hstream]; exact hx)).2
  refine ⟨?_, ?_⟩
  · intro oldest rest hstream _
    exact ⟨d, by simp, le_of_lt (hbefore hstream oldest (List.mem_cons_self ..))⟩
  · intro oldest rest generation hstream _ hlatest _
    obtain ⟨⟨x, hx, rfl⟩, -⟩ := hlatest
    exact .inl (hbefore hstream x hx)

/-- The only place goes to a later report. -/
theorem evidence_never_falls_back_alone :
    ((reported narrowStart 1).state.stream sampleScope).map (fun d => d.generation) = [1] ∧
      ((reported (reported narrowStart 1) 2).state.stream sampleScope).map (fun d => d.generation) = [2] ∧
      Advances (reported narrowStart 1).state (reported (reported narrowStart 1) 2).state sampleScope := by
  obtain ⟨-, -, hempty, hone, htwo, hown⟩ := narrow_facts.1
  have hstart : Run narrow (Watching (Retains narrow)) narrowStart := narrow_runs ⟨trivial, by simp⟩
  obtain ⟨v, hv, -, -⟩ := watching_run (windowed_retains narrow) hstart
  have hfirst : Watching (Retains narrow) narrowStart (.call (.recordObservationAt (sampleReport 1) 1) {}) := by
    refine watching_alone retains_alone hv (.inl rfl) ?_
    rw [show (sampleReport 1).scope = sampleScope from rfl, hempty]
    simp
  have hreported : Run narrow (Watching (Retains narrow)) (reported narrowStart 1) := hstart.reported hfirst
  obtain ⟨w, hw, -, -⟩ := watching_run (windowed_retains narrow) hreported
  have hsecond : Watching (Retains narrow) (reported narrowStart 1) (.call (.recordObservationAt (sampleReport 2) 1) {}) :=
    watching_alone retains_alone hw (.inl rfl) hown
  have hlater : Later narrow (Watching (Retains narrow)) (reported narrowStart 1) (reported (reported narrowStart 1) 2) :=
    Later.refl.reported hsecond
  exact ⟨hone, htwo, (evidence_never_falls_back hreported hlater).1 sampleScope⟩

/-- The only place goes to an earlier report of another reporter. -/
theorem evidence_falls_back :
    ∃ p q, Run narrow Process.Orderly p ∧ Later narrow Process.Orderly p q ∧
      ∃ d ∈ p.state.stream sampleScope, q.state.stream sampleScope ≠ [] ∧
        ∀ d' ∈ q.state.stream sampleScope, d'.generation < d.generation := by
  obtain ⟨-, -, hfacts⟩ := narrow_facts.2
  have hstart : Run narrow Process.Orderly narrowStart := narrow_runs trivial
  have hrun : Run narrow Process.Orderly (reported narrowStart 5) := hstart.reported (.inl rfl)
  have hlater : Later narrow Process.Orderly (reported narrowStart 5) (reportedByOther (reported narrowStart 5)) :=
    Later.refl.reportedByOther
  exact ⟨_, _, hrun, hlater, hfacts⟩

end Evidence

end FabricReconciliation
