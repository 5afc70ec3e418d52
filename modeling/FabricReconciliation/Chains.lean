import Mathlib.Data.List.Chain
import FabricReconciliation.Guard
import FabricReconciliation.Histories

/-!
# The history of an attempt (`engine.cpp:174-196`, `engine.cpp:971-989`, `engine.cpp:1086-1109`)

`Complete`, `Verify` and `PutFence` drop the oldest transition of a full history before they record theirs;
`CommitRestartFencing` leaves a full history as it is and changes the state only.

* **`Chained.records`** — a writer that records its transition keeps the chain, at every bound;
* **`linear_write`** — with room for four transitions every record that is written has such a history;
* **`history_chained_iff`** — with less room than that, some restart ends an attempt without a trace in its history.
-/

namespace FabricReconciliation

open Lib

/-- The history of an attempt: lifecycle steps, each from where the one before it led, up to its state. -/
structure AttemptRecord.Chained (limits : RuntimeLimits) (a : AttemptRecord) : Prop where
  recorded : 1 ≤ a.transitions.length
  bounded : a.transitions.length ≤ limits.maxAttemptTransitions.toNat
  linked : a.transitions.IsChain fun previous next => previous.target = next.source
  legal : ∀ t ∈ a.transitions, transitionLegal t.source t.target = true
  ends : a.transitions.getLast?.map AttemptTransition.target = some a.state

/-! ## One record -/

section Record

variable {limits : RuntimeLimits} {s : DurableState} {a a' : AttemptRecord} {live : Incarnation}
  {cause : Option Operation} {e : Event}

/-- A new attempt's only transition led to `dispatched`. -/
theorem chained_newAttempt (hroom : 1 ≤ limits.maxAttemptTransitions.toNat) (live : Incarnation) (now : UnixMillis)
    (next : AttemptId) (d : Decision) : (Engine.newAttempt live now next d).Chained limits := by
  refine ⟨le_refl _, hroom, List.isChain_singleton _, ?_, rfl⟩
  intro t ht
  rw [List.mem_singleton.mp ht]
  rfl

/-- **`Chained.records`**: whether or not the oldest transition goes. -/
theorem AttemptRecord.Chained.records (h : a.Chained limits) (hlegal : transitionLegal a.state a'.state = true)
    {t : AttemptTransition} {front : List AttemptTransition} (ht : a'.transitions = front ++ [t])
    (hsource : t.source = a.state) (htarget : t.target = a'.state)
    (hfront : front = a.transitions ∧ a.transitions.length < limits.maxAttemptTransitions.toNat ∨
      front = a.transitions.tail ∧ limits.maxAttemptTransitions.toNat ≤ a.transitions.length) :
    a'.Chained limits := by
  have hrecorded := h.recorded
  have hbounded := h.bounded
  have hlength : front.length + 1 ≤ limits.maxAttemptTransitions.toNat := by
    rcases hfront with ⟨rfl, hroom⟩ | ⟨rfl, hfull⟩
    · exact hroom
    · rw [List.length_tail]
      omega
  have hsuffix : front <:+ a.transitions := by
    rcases hfront with ⟨rfl, -⟩ | ⟨rfl, -⟩
    · exact List.suffix_refl _
    · exact List.tail_suffix _
  refine ⟨?_, ?_, ?_, ?_, ?_⟩
  · rw [ht, List.length_append, List.length_singleton]
    omega
  · rw [ht, List.length_append, List.length_singleton]
    exact hlength
  · rw [ht]
    apply List.isChain_append.mpr
    refine ⟨h.linked.suffix hsuffix, List.isChain_singleton _, ?_⟩
    intro last hlast first hfirst
    have hsame : t = first := by simpa using hfirst
    -- what is left of the history ends where the whole history did
    have hends : a.transitions.getLast? = some last := by
      obtain ⟨dropped, hdropped⟩ := hsuffix
      rw [← hdropped, List.getLast?_append, Option.mem_def.mp hlast]
      rfl
    have hstate := h.ends
    rw [hends, Option.map_some, Option.some.injEq] at hstate
    rw [← hsame, hsource, hstate]
  · intro u hu
    rw [ht] at hu
    rcases List.mem_append.mp hu with hold | hnew
    · exact h.legal u (hsuffix.subset hold)
    · rw [List.mem_singleton.mp hnew, hsource, htarget]
      exact hlegal
  · rw [ht, List.getLast?_concat, Option.map_some, htarget]

/-- The histories of the attempts in the table are chains. -/
def Linear (limits : RuntimeLimits) (s : DurableState) : Prop :=
  ∀ k a, s.attempts.find? k = some a → a.Chained limits

/-- No running attempt has made four moves, so nothing is skipped where four fit. -/
theorem Linear.moves (hroom : 4 ≤ limits.maxAttemptTransitions.toNat) (h : Linear limits s) (hslim : Slim s)
    (hm : Moves limits s a a') : a'.Chained limits := by
  have hchained := h a.id a hm.stored
  cases hm.continues with
  | recorded t front ht hsource htarget hfront => exact hchained.records hm.legal ht hsource htarget hfront
  | skipped hsame hfull =>
    have hshort := (hslim a.id a hm.stored).2
    have hstep := transitionLegal_rank hm.legal
    have hlast := rank_le a'.state
    omega

theorem Linear.applyAttempt (h : Linear limits s) (ha : a.Chained limits) : Linear limits (applyAttempt limits a s) := by
  intro k b hb
  rcases find?_applyAttempt hb with ⟨-, rfl⟩ | ⟨-, hold⟩
  · exact ha
  · exact h k b hold

/-- **`linear_write`**. -/
theorem linear_write (hroom : 4 ≤ limits.maxAttemptTransitions.toNat) (h : Linear limits s) (hslim : Slim s)
    (he : Write limits live cause s e) : Linear limits (applyEvent limits s e) := by
  cases he with
  | attemptIssued p d now hcause hd hact hfree hnone =>
    apply h.applyAttempt
    exact chained_newAttempt (by omega) live now s.nextAttempt d
  | attemptTransition a a' hm hc =>
    apply h.applyAttempt
    exact h.moves hroom hslim hm
  | _ => exact h

end Record

/-! ## In every run -/

/-- With room for four transitions. -/
theorem run_linear {limits : RuntimeLimits} (hroom : 4 ≤ limits.maxAttemptTransitions.toNat) {p : Process}
    (hp : Run limits Process.Orderly p) : Linear limits p.state := by
  have hinitial : Linear limits View.initial.memory := by
    intro k a ha
    simp [View.initial, DurableState.tables, DurableState.core] at ha
  obtain ⟨v, hv, -, -, hlinear⟩ := run_kept
    (J := fun _ v => v.Good limits ∧ Sane limits v.memory ∧ Linear limits v.memory)
    ⟨good_initial limits, (good_initial limits).sane, hinitial⟩
    (fun _ hj _ hprogress _ => ⟨hj.1.progress hprogress,
      hprogress.memory (P := fun st => Sane limits st ∧ Linear limits st) hj.1.sound
        (fun hst he hok _ => ⟨hst.1.write he hok, linear_write hroom hst.2 hst.1.slim he⟩) hj.2⟩)
    (fun _ _ ha => ha) hp
  rw [hv.tables] at hlinear
  exact hlinear

/-- An attempt is under way in a store whose histories have room for `n` transitions. -/
def sampleBounded (n : UInt64) : Process :=
  (((Process.after (.down {} {}) (.boot { limits := { maxAttemptTransitions := n } } {} FixedBytes.zero {})).after
    (.call (.commitIntent sampleIntent) {})).after (.call (.recordObservationAt (sampleReport 1) 1) {})).after
    (.call (.dispatch samplePlan) {})

/-- The attempt takes the given steps, and a restart ends it. -/
def sampleRestarted (n : UInt64) (targets : List AttemptState) : Process :=
  ((targets.foldl (fun p target =>
    p.after (.call (.complete ⟨1, 1, FixedBytes.zero, FixedBytes.zero, target, 1, .none⟩) {}))
    (sampleBounded n)).after .exit).after (.boot { limits := { maxAttemptTransitions := n } } {} FixedBytes.zero {})

theorem sampleBounded_run (n : UInt64) : Run { maxAttemptTransitions := n } Process.Orderly (sampleBounded n) := by
  have hblank : Run { maxAttemptTransitions := n } Process.Orderly (.down {} {}) := .start
  unfold sampleBounded
  apply Run.after
  · apply Run.after
    · apply Run.after
      · apply hblank.after
        · trivial
        · rintro options opening id env ⟨⟩
          rfl
      · exact .inl rfl
      · simp
    · exact .inl rfl
    · simp
  · exact .inl rfl
  · simp

theorem sampleRestarted_run (n : UInt64) (targets : List AttemptState) :
    Run { maxAttemptTransitions := n } Process.Orderly (sampleRestarted n targets) := by
  have hmoved : ∀ {p : Process}, Run { maxAttemptTransitions := n } Process.Orderly p →
      Run { maxAttemptTransitions := n } Process.Orderly (targets.foldl (fun p target =>
        p.after (.call (.complete ⟨1, 1, FixedBytes.zero, FixedBytes.zero, target, 1, .none⟩) {})) p) := by
    induction targets with
    | nil => exact fun hp => hp
    | cons target rest ih =>
      intro p hp
      apply ih
      apply hp.after
      · exact .inl rfl
      · simp
  unfold sampleRestarted
  apply Run.after
  · apply (hmoved (sampleBounded_run n)).after
    · trivial
    · simp
  · trivial
  · rintro options opening id env ⟨⟩
    rfl

theorem after_eq {p q : Process} {a : Step} {status : Status} (h : p.step a = (status, q)) : p.after a = q := by
  rw [Process.after, h]

theorem sampleBounded_eq {n : UInt64} (hn : 1 ≤ n) : sampleBounded n = .up (sampleEngine n 5) := by
  rw [sampleBounded, after_eq (sample_boots n), after_eq (sample_intends n), after_eq (sample_observes n),
    after_eq (sample_issues n hn)]

/-- An engine of the sample after the given records. -/
def boundedEngine (n : UInt64) (es : List Event) : Engine :=
  Engine.on { limits := { maxAttemptTransitions := n } } {} ⟨1, FixedBytes.zero⟩ 2 (told es) es

section Restart

variable {n : UInt64} {es : List Event}

/-- The restart of such an engine. -/
theorem bounded_restarts (hbrief : ∀ e ∈ es, e.Brief) (hok : ∀ e ∈ es, e.Ok { maxAttemptTransitions := n })
    (hcount : es.length ≤ 1000) (hpolicy : (tablesAfter { maxAttemptTransitions := n } FixedBytes.zero es).hasPolicy = true)
    (hepoch : (tablesAfter { maxAttemptTransitions := n } FixedBytes.zero es).lastEpoch = 1)
    (hattempts : ∀ a ∈ (tablesAfter { maxAttemptTransitions := n } FixedBytes.zero es).attempts.values,
      AttemptOk { maxAttemptTransitions := n } a ∧ a.transitions.length ≤ 3) :
    (((Process.up (boundedEngine n es)).after .exit).after
      (.boot { limits := { maxAttemptTransitions := n } } {} FixedBytes.zero {})).state.attempts =
        (tablesAfter { maxAttemptTransitions := n } FixedBytes.zero (es ++ restartEvents { maxAttemptTransitions := n }
          FixedBytes.zero 0 (tablesAfter { maxAttemptTransitions := n } FixedBytes.zero es))).attempts := by
  have hexit : (Process.up (boundedEngine n es)).step .exit =
      (Status.ok, .down (recorded { maxAttemptTransitions := n } {} (told es) es).directory
        (boundedEngine n es).store.state) := rfl
  have hboot : ∀ last, Process.step (.down (recorded { maxAttemptTransitions := n } {} (told es) es).directory last)
      (.boot { limits := { maxAttemptTransitions := n } } {} FixedBytes.zero {}) = (Status.ok, .up (Engine.on
        { limits := { maxAttemptTransitions := n } } {} ⟨2, FixedBytes.zero⟩
        (UInt64.ofNat (es ++ restartEvents { maxAttemptTransitions := n } FixedBytes.zero 0
          (tablesAfter { maxAttemptTransitions := n } FixedBytes.zero es)).length)
        (told es ++ told (restartEvents { maxAttemptTransitions := n } FixedBytes.zero 0
          (tablesAfter { maxAttemptTransitions := n } FixedBytes.zero es)))
        (es ++ restartEvents { maxAttemptTransitions := n } FixedBytes.zero 0
          (tablesAfter { maxAttemptTransitions := n } FixedBytes.zero es)))) := by
    intro last
    have hnext : (tablesAfter { maxAttemptTransitions := n } FixedBytes.zero es).lastEpoch + 1 = 2 := by
      rw [hepoch]
      rfl
    have hlater : ¬ 2 ≤ (tablesAfter { maxAttemptTransitions := n } FixedBytes.zero es).lastEpoch := by
      rw [hepoch]
      decide
    exact @reboot_recorded {} (told es) es { limits := { maxAttemptTransitions := n } } {} FixedBytes.zero
      (reopens_of_brief (sample_ample n) hok hbrief hcount) rfl rfl hpolicy 2 hnext hlater _ rfl
      (restartEvents_ok (sample_ample n) FixedBytes.zero 0 hattempts) {} last
  rw [after_eq hexit, after_eq (hboot _)]
  rfl

/-- A completion of the sample attempt that does not end it. -/
theorem bounded_moves {target : AttemptState} {a moved : AttemptRecord}
    (hallowed : (boundedEngine n es).admitCompletion ⟨1, 1, FixedBytes.zero, FixedBytes.zero, target, 1, .none⟩ = .ok a)
    (hmoved : moved = a.move { maxAttemptTransitions := n } ((boundedEngine n es).completion {}
      ⟨1, 1, FixedBytes.zero, FixedBytes.zero, target, 1, .none⟩ a))
    (hrunning : moved.state.isTerminal = false) (hok : AttemptOk { maxAttemptTransitions := n } moved)
    (hshort : moved.transitions.length ≤ 4)
    (hundue : UInt64.ofNat (es.length + 1) - 2 < 8192) :
    (Process.up (boundedEngine n es)).after
      (.call (.complete ⟨1, 1, FixedBytes.zero, FixedBytes.zero, target, 1, .none⟩) {}) =
        .up (boundedEngine n (es ++ [.attemptTransition moved])) := by
  have hstep := complete_moves_recorded rfl hallowed hmoved hrunning hok
    ((brief_transition hshort).fits (sample_ample n)) (.inr hundue)
  rw [← told_append] at hstep
  exact after_eq hstep

end Restart

/-- The records of a run of the sample in which the attempt took the given forms. -/
def movedEvents (ms : List AttemptRecord) : List Event := sampleEvents ++ ms.map Event.attemptTransition

/-- The table after the restart of such a run. -/
def tableAfterRestart (n : UInt64) (ms : List AttemptRecord) : OrdMap UInt64 AttemptRecord :=
  (tablesAfter { maxAttemptTransitions := n } FixedBytes.zero (movedEvents ms ++ restartEvents
    { maxAttemptTransitions := n } FixedBytes.zero 0
    (tablesAfter { maxAttemptTransitions := n } FixedBytes.zero (movedEvents ms)))).attempts

theorem sampleRestarted_attempts {n : UInt64} (hn : 1 ≤ n) {targets : List AttemptState} {ms : List AttemptRecord}
    (hms : ∀ m ∈ ms, AttemptOk { maxAttemptTransitions := n } m ∧ m.transitions.length ≤ 3)
    (hmoved : targets.foldl (fun (p : Process) target =>
        p.after (.call (.complete ⟨1, 1, FixedBytes.zero, FixedBytes.zero, target, 1, .none⟩) {}))
      (.up (sampleEngine n 5)) = .up (boundedEngine n (movedEvents ms)))
    (hcount : ms.length ≤ 900)
    (htables : (tablesAfter { maxAttemptTransitions := n } FixedBytes.zero (movedEvents ms)).hasPolicy = true ∧
      (tablesAfter { maxAttemptTransitions := n } FixedBytes.zero (movedEvents ms)).lastEpoch = 1 ∧
      ∀ a ∈ (tablesAfter { maxAttemptTransitions := n } FixedBytes.zero (movedEvents ms)).attempts.values,
        AttemptOk { maxAttemptTransitions := n } a ∧ a.transitions.length ≤ 3) :
    (sampleRestarted n targets).state.attempts = tableAfterRestart n ms := by
  obtain ⟨hpolicy, hepoch, hattempts⟩ := htables
  rw [sampleRestarted, sampleBounded_eq hn, hmoved]
  apply bounded_restarts
  · intro e he
    rcases List.mem_append.mp he with he | he
    · exact sampleEvents_brief e he
    · obtain ⟨m, hm, rfl⟩ := List.mem_map.mp he
      exact brief_transition (le_trans (hms m hm).2 (by decide))
  · intro e he
    rcases List.mem_append.mp he with he | he
    · exact sampleEvents_ok hn e he
    · obtain ⟨m, hm, rfl⟩ := List.mem_map.mp he
      exact (hms m hm).1
  · rw [movedEvents, List.length_append, List.length_map, show sampleEvents.length = 5 from rfl]
    omega
  · exact hpolicy
  · exact hepoch
  · exact hattempts

/-- The attempt once the client has reported it acknowledged. -/
def sampleAcknowledged (n : UInt64) : AttemptRecord :=
  sampleAttempt.move { maxAttemptTransitions := n }
    ⟨.dispatched, .acknowledged, 1, FixedBytes.zero, 1, AttemptState.acknowledged.reasonOf, .none⟩

/-- And once it has been applied. -/
def sampleApplied (n : UInt64) : AttemptRecord :=
  (sampleAcknowledged n).move { maxAttemptTransitions := n }
    ⟨.acknowledged, .applied, 1, FixedBytes.zero, 1, AttemptState.applied.reasonOf, .none⟩

theorem sample_acknowledges (n : UInt64) (hok : AttemptOk { maxAttemptTransitions := n } (sampleAcknowledged n))
    (hshort : (sampleAcknowledged n).transitions.length ≤ 3) : (Process.up (sampleEngine n 5)).after
      (.call (.complete ⟨1, 1, FixedBytes.zero, FixedBytes.zero, .acknowledged, 1, .none⟩) {}) =
        .up (boundedEngine n (movedEvents [sampleAcknowledged n])) := by
  refine bounded_moves (a := sampleAttempt) ?_ ?_ ?_ hok (le_trans hshort (by decide)) (by decide)
  · rfl
  · rfl
  · rfl

/-- The restarts that skip their transition. -/
theorem sample_skipped : ∀ run ∈ [(1, []), (2, [AttemptState.acknowledged]), (3, [.acknowledged, .applied])],
    ((sampleRestarted run.1 run.2).state.attempts.find? 1).any (fun a =>
      decide (a.transitions.getLast?.map AttemptTransition.target ≠ some a.state)) = true := by
  intro run hrun
  simp only [List.mem_cons, List.not_mem_nil, or_false] at hrun
  rcases hrun with rfl | rfl | rfl
  · rw [@sampleRestarted_attempts 1 (by decide) [] [] (by simp) rfl (by decide) (by decide)]
    decide
  · rw [@sampleRestarted_attempts 2 (by decide) [.acknowledged] [sampleAcknowledged 2] (by decide) ?_ (by decide)
      (by decide)]
    · decide
    · exact sample_acknowledges 2 (by decide) (by decide)
  · rw [@sampleRestarted_attempts 3 (by decide) [.acknowledged, .applied] [sampleAcknowledged 3, sampleApplied 3]
      (by decide) ?_
      (by decide) (by decide)]
    · decide
    · rw [List.foldl_cons, sample_acknowledges 3 (by decide) (by decide), List.foldl_cons, List.foldl_nil]
      refine bounded_moves (a := sampleAcknowledged 3) ?_ ?_ ?_ (by decide) (by decide) (by decide)
      · rfl
      · rfl
      · rfl

/-- **`history_chained_iff`**: every attempt of every run has such a history, or the bound is below four. -/
theorem history_chained_iff (n : UInt64) (hn : 1 ≤ n) :
    (∀ (limits : RuntimeLimits) (p : Process), limits.maxAttemptTransitions = n → Run limits Process.Orderly p →
      ∀ a ∈ p.state.attempts.values, a.Chained limits) ↔ 4 ≤ n := by
  have hone : 1 ≤ n.toNat := UInt64.le_iff_toNat_le.mp hn
  constructor
  · intro hall
    by_contra hfew
    have hthree : n.toNat < 4 := by
      rw [UInt64.le_iff_toNat_le] at hfew
      exact Nat.lt_of_not_le hfew
    have hskips : ∃ targets, ((sampleRestarted n targets).state.attempts.find? 1).any (fun a =>
        decide (a.transitions.getLast?.map AttemptTransition.target ≠ some a.state)) = true := by
      have hcases : n = 1 ∨ n = 2 ∨ n = 3 := by
        simp only [← UInt64.toNat_inj]
        have h1 : (1 : UInt64).toNat = 1 := rfl
        have h2 : (2 : UInt64).toNat = 2 := rfl
        have h3 : (3 : UInt64).toNat = 3 := rfl
        omega
      rcases hcases with rfl | rfl | rfl
      · exact ⟨[], sample_skipped (1, []) (by simp)⟩
      · exact ⟨[.acknowledged], sample_skipped (2, [.acknowledged]) (by simp)⟩
      · exact ⟨[.acknowledged, .applied], sample_skipped (3, [.acknowledged, .applied]) (by simp)⟩
    obtain ⟨targets, hskip⟩ := hskips
    obtain ⟨a, ha, hends⟩ := (Option.any_eq_true _ _).mp hskip
    have hchained := hall { maxAttemptTransitions := n } _ rfl (sampleRestarted_run n targets) a
      (OrdMap.mem_values_iff.mpr ⟨1, ha⟩)
    exact of_decide_eq_true hends hchained.ends
  · intro hroom limits p hlimits hp a ha
    have hfour : 4 ≤ limits.maxAttemptTransitions.toNat := by
      rw [hlimits]
      exact UInt64.le_iff_toNat_le.mp hroom
    obtain ⟨k, hk⟩ := OrdMap.mem_values_iff.mp ha
    exact run_linear hfour hp k a hk

/-- The default bound. -/
theorem history_chained_iff_default :
    (∀ (limits : RuntimeLimits) (p : Process), limits.maxAttemptTransitions = 16 → Run limits Process.Orderly p →
      ∀ a ∈ p.state.attempts.values, a.Chained limits) ↔ 4 ≤ (16 : UInt64) := history_chained_iff 16 (by decide)

/-- **`restart_skips_history`**: with room for one transition, a restart ends the attempt and the history still ends
in `dispatched`. -/
theorem restart_skips_history : ∃ (limits : RuntimeLimits) (p : Process) (a : AttemptRecord),
    limits.maxAttemptTransitions = 1 ∧ Run limits Process.Orderly p ∧ a ∈ p.state.attempts.values ∧
      a.transitions.getLast?.map AttemptTransition.target ≠ some a.state := by
  obtain ⟨a, ha, hends⟩ := (Option.any_eq_true _ _).mp (sample_skipped (1, []) (by simp))
  exact ⟨_, _, a, rfl, sampleRestarted_run 1 [], OrdMap.mem_values_iff.mpr ⟨1, ha⟩, of_decide_eq_true hends⟩

end FabricReconciliation
