import FabricReconciliation.Outcomes
import FabricReconciliation.Guard
import FabricReconciliation.Persistence

/-!
# Attempts in flight (`engine.cpp:163-211`, `engine.cpp:825-907`)

A record that failed may be in the file all the same, and the next boot takes it up. `View.Keeps I` says that
`I` holds of memory and of what memory would be with that record; `Preserved` is what it takes of the records
of a call, alone or as the end of an attempt, each with any outcome of its append.

* **`Acts.keeps`**, **`Progress.keeps`** — what the records preserve, a step preserves;
* **`running_keys_distinct`** — one attempt in flight per idempotency key, in every run. `Dispatch` scans the
  attempts of its own epoch only: a writable boot has ended all others, and a read-only engine issues none.
-/

namespace FabricReconciliation

open Lib

/-! ## Records with any outcome -/

/-- The property holds of memory, and would hold with the record that memory lacks. -/
structure View.Keeps (limits : RuntimeLimits) (I : DurableState → List Appending → Prop) (v : View) : Prop where
  memory : I v.memory v.log
  pending : ∀ e, v.pending = some e → e.Ok limits → I (applyEvent limits v.memory e) v.log

/-- The property survives the record `e`, whether it has its effect or only reached the file. -/
def Survives (limits : RuntimeLimits) (I : DurableState → List Appending → Prop) (s : DurableState)
    (log : List Appending) (e : Event) : Prop :=
  ∀ acknowledged, (e.Ok limits → I (applyEvent limits s e) (log ++ [e.appending true acknowledged])) ∧
    I s (log ++ [e.appending true acknowledged])

/-- What the records of a call preserve. -/
structure Preserved (limits : RuntimeLimits) (live : Incarnation) (cause : Option Operation)
    (I : DurableState → List Appending → Prop) : Prop where
  refused : ∀ {s : DurableState} {log : List Appending} (e : Event), I s log → I s (log ++ [e.appending false false])
  alone : ∀ {s : DurableState} {log : List Appending} {e : Event}, I s log → Write limits live cause s e → e.Lone →
    e.Fits limits → Survives limits I s log e
  last : ∀ {s : DurableState} {log : List Appending} {a a' : AttemptRecord} {o : ReconciliationOutcome}, I s log →
    Settles limits live cause s a a' o → (Event.attemptTransition a').Fits limits →
    Survives limits I s log (.attemptTransition a')
  outcome : ∀ {s : DurableState} {log : List Appending} {a a' : AttemptRecord} {o : ReconciliationOutcome}, I s log →
    Settles limits live cause s a a' o → (Event.attemptTransition a').Fits limits →
    (Event.attemptTransition a').Ok limits → Survives limits I (applyEvent limits s (.attemptTransition a'))
      (log ++ [(Event.attemptTransition a').appending true true]) (.outcomeCommit o)

section Keeps

variable {limits : RuntimeLimits} {live : Incarnation} {cause : Option Operation} {u v w : View} {e : Event} {ok : Bool}
  {I : DurableState → List Appending → Prop}

theorem Append.keeps (h : Append limits u e ok w) (hu : u.Keeps limits I)
    (hrefused : ∀ {s : DurableState} {log : List Appending}, I s log → I s (log ++ [e.appending false false]))
    (hwhole : e.Fits limits → Survives limits I u.memory u.log e) : w.Keeps limits I := by
  cases h with
  | omitted => exact hu
  | refused => exact ⟨hrefused hu.memory, fun e' he' hok => hrefused (hu.pending e' he' hok)⟩
  | applied hnone hfits hok => exact ⟨(hwhole hfits true).1 hok, by simp⟩
  | poisoned hnone hfits hbad => exact ⟨(hwhole hfits true).2, by simp⟩
  | severed hnone hfits =>
    refine ⟨(hwhole hfits false).2, fun e' he' hok => ?_⟩
    rw [← Option.some.inj he'] at hok ⊢
    exact (hwhole hfits false).1 hok

/-- **`Acts.keeps`**. -/
theorem Acts.keeps (h : Acts limits live cause v w) (hI : Preserved limits live cause I) (hv : v.Keeps limits I) :
    w.Keeps limits I := by
  induction h with
  | refl => exact hv
  | append h e he hlone ok happend ih =>
    exact happend.keeps ih (hI.refused e) fun hfits => hI.alone ih.memory he hlone hfits
  | @settle u w x h a a' o hs hfirst ok hsecond ih =>
    have hmiddle := hfirst.keeps ih (hI.refused _) fun hfits => hI.last ih.memory hs hfits
    cases hfirst with
    | applied hnone hfits hok => exact hsecond.keeps hmiddle (hI.refused _) fun _ => hI.outcome ih.memory hs hfits hok
  | cut h a a' o hs hfirst ih => exact hfirst.keeps ih (hI.refused _) fun hfits => hI.last ih.memory hs hfits
  | truncated h ih => exact ⟨ih.memory, by simp⟩

theorem Reopened.keeps (h : Reopened limits v w) (hv : v.Keeps limits I) : w.Keeps limits I := by
  cases h with
  | same hnone => exact hv
  | caughtUp e hsome hfits hok => exact ⟨hv.pending e hsome hok, by simp⟩

/-- **`Progress.keeps`**. -/
theorem Progress.keeps {p : Process} {a : Step} (h : Progress limits p a v w)
    (hI : ∀ live cause, Preserved limits live cause I) (hv : v.Keeps limits I) : w.Keeps limits I := by
  cases h with
  | idle => exact hv
  | call e operation env h => exact h.keeps (hI _ _) hv
  | readOnly dir last opening id env hmode h => exact h.keeps hv
  | boot dir last opening id env hmode h hacts => exact hacts.keeps (hI _ _) (h.keeps hv)

/-- What does not look at the log, and survives every record. -/
theorem Preserved.of_memory {P : DurableState → Prop}
    (h : ∀ {s : DurableState} {e : Event}, P s → Write limits live cause s e → P (applyEvent limits s e)) :
    Preserved limits live cause fun s _ => P s where
  refused _ hs := hs
  alone hs he _ _ _ := ⟨fun _ => h hs he, hs⟩
  last hs hsettles _ _ := ⟨fun _ => h hs hsettles.writes.1, hs⟩
  outcome hs hsettles _ _ _ := ⟨fun _ => h (h hs hsettles.writes.1) (hsettles.writes.2 _), h hs hsettles.writes.1⟩

end Keeps

/-! ## One attempt in flight per key -/

/-- No two attempts in flight have the same idempotency key. -/
def OnePerKey (s : DurableState) : Prop :=
  ∀ k k' a a', s.attempts.find? k = some a → s.attempts.find? k' = some a' → a.state.isTerminal = false →
    a'.state.isTerminal = false → a.idempotencyKey = a'.idempotencyKey → k = k'

/-- The attempts in flight were issued in this epoch. -/
def IssuedIn (epoch : CoordinatorEpoch) (s : DurableState) : Prop :=
  ∀ k a, s.attempts.find? k = some a → a.state.isTerminal = false → a.epoch = epoch

section Keys

variable {limits : RuntimeLimits} {live : Incarnation} {cause : Option Operation} {s t : DurableState} {e : Event}
  {epoch : CoordinatorEpoch}

theorem OnePerKey.congr (h : OnePerKey s) (hattempts : t.attempts = s.attempts) : OnePerKey t := by
  unfold OnePerKey
  rw [hattempts]
  exact h

theorem IssuedIn.congr (h : IssuedIn epoch s) (hattempts : t.attempts = s.attempts) : IssuedIn epoch t := by
  unfold IssuedIn
  rw [hattempts]
  exact h

/-- A record of an attempt whose key no other attempt in flight has. -/
theorem OnePerKey.applyAttempt (h : OnePerKey s) {a : AttemptRecord}
    (ha : ∀ k b, s.attempts.find? k = some b → b.state.isTerminal = false → b.idempotencyKey = a.idempotencyKey →
      k = a.id) : OnePerKey (applyAttempt limits a s) := by
  intro k k' b b' hb hb' hrun hrun' hkey
  rcases find?_applyAttempt hb with ⟨rfl, rfl⟩ | ⟨-, hold⟩ <;>
    rcases find?_applyAttempt hb' with ⟨rfl, rfl⟩ | ⟨-, hold'⟩
  · rfl
  · exact (ha k' b' hold' hrun' hkey.symm).symm
  · exact ha k b hold hrun hkey
  · exact h k k' b b' hold hold' hrun hrun' hkey

theorem IssuedIn.applyAttempt (h : IssuedIn epoch s) {a : AttemptRecord} (ha : a.epoch = epoch) :
    IssuedIn epoch (applyAttempt limits a s) := by
  intro k b hb hrun
  rcases find?_applyAttempt hb with ⟨-, rfl⟩ | ⟨-, hold⟩
  · exact ha
  · exact h k b hold hrun

/-- The reuse scan of `Dispatch` looks at this epoch only, and that is enough. -/
theorem reusable_none (hissued : IssuedIn epoch s) {key : Digest} (h : Engine.reusable s epoch key = none) {k : AttemptId}
    {b : AttemptRecord} (hb : s.attempts.find? k = some b) (hrun : b.state.isTerminal = false) :
    b.idempotencyKey ≠ key := by
  intro hkey
  unfold Engine.reusable at h
  have hnot := List.find?_eq_none.mp h b (OrdMap.mem_values_iff.mpr ⟨k, hb⟩)
  simp [hkey, hissued k b hb hrun, hrun] at hnot

theorem IssuedIn.write (h : IssuedIn live.epoch s) (he : Write limits live cause s e) :
    IssuedIn live.epoch (applyEvent limits s e) := by
  cases he with
  | attemptIssued p d now hcause hd hact hfree hnone => exact h.applyAttempt rfl
  | attemptTransition a a' hm hc =>
    apply h.applyAttempt
    rw [hm.same]
    exact h a.id a hm.stored hm.running
  | _ => exact h.congr rfl

/-- Of all records only an issue depends on the epochs. -/
theorem OnePerKey.write (h : OnePerKey s) (he : Write limits live cause s e)
    (hissued : ∀ p, cause = some (.dispatch p) → IssuedIn live.epoch s) : OnePerKey (applyEvent limits s e) := by
  cases he with
  | attemptIssued p d now hcause hd hact hfree hnone =>
    apply h.applyAttempt
    intro k b hb hrun hkey
    exact absurd hkey (reusable_none (hissued p hcause) hnone hb hrun)
  | attemptTransition a a' hm hc =>
    apply h.applyAttempt
    intro k b hb hrun hkey
    rw [hm.same] at hkey ⊢
    exact h k a.id b a hb hm.stored hrun hm.running hkey
  | _ => exact h.congr rfl

end Keys

section Runs

variable {limits : RuntimeLimits} {p : Process} {v w : View}

/-- A writable engine's attempts in flight are its own. -/
def Process.Keyed (p : Process) (limits : RuntimeLimits) (v : View) : Prop :=
  match p with
  | .down _ _ => v.Keeps limits fun s _ => OnePerKey s
  | .up e => (e.store.readOnly = true ∧ v.pending = none ∧ OnePerKey v.memory) ∨
      v.Keeps limits fun s _ => OnePerKey s ∧ IssuedIn e.live.epoch s

theorem Process.Keyed.weaken (h : p.Keyed limits v) : v.Keeps limits fun s _ => OnePerKey s := by
  cases p with
  | down dir last => exact h
  | up e =>
    rcases h with ⟨-, hnone, hmemory⟩ | h
    · exact ⟨hmemory, by simp [hnone]⟩
    · exact ⟨h.memory.1, fun ev hev hok => (h.pending ev hev hok).1⟩

/-- A step that no engine takes. -/
theorem Progress.idle_of {a : Step} (h : Progress limits p a v w) (hcall : ∀ operation env, a ≠ .call operation env)
    (hboot : ∀ options opening id env, a ≠ .boot options opening id env) : w = v := by
  cases h with
  | idle => rfl
  | call e operation env h => exact absurd rfl (hcall operation env)
  | readOnly dir last opening id env hmode h => exact absurd rfl (hboot _ opening id env)
  | boot dir last opening id env hmode h hacts => exact absurd rfl (hboot _ opening id env)

theorem Process.Keyed.call {e : Engine} (h : (Process.up e).Keyed limits v) (hv : Kept limits (.up e) v)
    {operation : Operation} {env : CallEnv} (ha : (Process.up e).Orderly (.call operation env)) :
    ∃ w, Kept limits ((Process.up e).step (.call operation env)).2 w ∧
      ((Process.up e).step (.call operation env)).2.Keyed limits w := by
  rcases h with ⟨hmode, hnone, hmemory⟩ | h
  · have hsame : ((Process.up e).step (.call operation env)).2 = .up e :=
      congrArg Process.up (call_read_only hmode env operation)
    rw [hsame]
    exact ⟨v, hv, .inl ⟨hmode, hnone, hmemory⟩⟩
  · obtain ⟨w, hw, hprogress⟩ := step_progress hv ha (by simp)
    refine ⟨w, hw, .inr ?_⟩
    rw [show (e.call env operation).2.live = e.live from (call_frame e env operation).2]
    cases hprogress with
    | idle => exact h
    | call e operation env hacts =>
      refine hacts.keeps ?_ h
      exact .of_memory fun hs he => ⟨hs.1.write he fun _ _ => hs.2, hs.2.write he⟩

theorem Process.Keyed.boot {dir : Directory} {last : DurableState} (h : (Process.down dir last).Keyed limits v)
    (hv : Kept limits (.down dir last) v) (htracked : Tracked limits (.down dir last)) {options : EngineOptions}
    (hoptions : options.limits = limits) (opening : DurableStore.OpenEnv) (id : BootId) (env : CallEnv) :
    ∃ w, Kept limits (Process.boot dir last options opening id env).2 w ∧
      (Process.boot dir last options opening id env).2.Keyed limits w := by
  cases hv with
  | down hrests =>
    obtain ⟨w, hw, hprogress, hlevel⟩ := hrests.boot hoptions opening id env
    have hkeeps : w.Keeps limits fun s _ => OnePerKey s := by
      -- a boot dispatches nothing
      have hpreserved : ∀ live, Preserved limits live none fun s _ => OnePerKey s :=
        fun live => .of_memory fun hs he => hs.write he (by simp)
      cases hprogress with
      | idle => exact h
      | readOnly dir last opening id env hmode hreopened => exact hreopened.keeps h
      | boot dir last opening id env hmode hreopened hacts => exact hacts.keeps (hpreserved _) (hreopened.keeps h)
    refine ⟨w, hw, ?_⟩
    cases hresult : (Process.boot dir last options opening id env).2 with
    | down dir' last' => exact hkeeps
    | up e =>
      have hnone := hlevel e hresult
      cases hmode : options.readOnly with
      | true => exact .inl ⟨(boot_read_only hmode hresult).1, hnone, hkeeps.memory⟩
      | false =>
        right
        refine ⟨⟨hkeeps.memory, ?_⟩, by simp [hnone]⟩
        -- a writable boot has ended every attempt
        obtain ⟨opened, -, hbooted, -⟩ := (htracked.boot hoptions opening id env).2 e hresult hmode
        intro k a ha hrun
        rw [hw.tables, hresult] at ha
        rw [hbooted.ended k a ha] at hrun
        simp at hrun

theorem run_keyed (h : Run limits Process.Orderly p) : ∃ v, Kept limits p v ∧ p.Keyed limits v := by
  induction h with
  | start =>
    refine ⟨View.initial, .down (.blank ⟨rfl, rfl⟩ rfl rfl), ?_, by simp [View.initial]⟩
    intro k k' a a' ha
    simp [View.initial, DurableState.tables, DurableState.core] at ha
  | @step p h a ha hlimits ih =>
    obtain ⟨v, hv, hkeyed⟩ := ih
    have hidle : ∀ {a : Step}, (p.step a).2 = p → ∃ w, Kept limits (p.step a).2 w ∧ (p.step a).2.Keyed limits w := by
      intro a hsame
      rw [hsame]
      exact ⟨v, hv, hkeyed⟩
    cases p with
    | up e =>
      cases a with
      | boot options opening id env => exact hidle rfl
      | call operation env => exact hkeyed.call hv ha
      | exit =>
        obtain ⟨w, hw, hprogress⟩ := step_progress hv ha hlimits
        rw [hprogress.idle_of (by simp) (by simp)] at hw
        exact ⟨v, hw, hkeyed.weaken⟩
    | down dir last =>
      cases a with
      | boot options opening id env =>
        exact hkeyed.boot hv (run_tracked h) (hlimits options opening id env rfl) opening id env
      | call operation env => exact hidle rfl
      | exit => exact hidle rfl

/-- **`running_keys_distinct`**: in every run, whatever plans are dispatched and whatever appends fail, no two
attempts in flight have the same key. -/
theorem running_keys_distinct (h : Run limits Process.Orderly p) : OnePerKey p.state := by
  obtain ⟨v, hv, hkeyed⟩ := run_keyed h
  have hmemory := hkeyed.weaken.memory
  rw [hv.tables] at hmemory
  exact hmemory.congr rfl

end Runs

end FabricReconciliation
