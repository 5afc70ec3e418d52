import Mathlib.Data.Finset.Card
import FabricReconciliation.Guard

/-!
# The bounds of a snapshot (`store.cpp:342-490`, `store.cpp:687-910`)

`ApplySnapshotPayload` refuses a snapshot whose tables exceed their bounds. `ApplyPayload` trims the outcomes and
the lists of a scope, and `TrimAttempts` as long as it finds a terminal attempt. Nothing bounds the number of scopes,
of fences, and of attempts in flight, so `Compact` may publish a snapshot that `Open` then refuses.

* **`SnapshotBounds.write`** — a record keeps the bounds where its table has room;
* **`run_bounded`** — so does every run of successful calls that find room;
* **`compacted_store_opens`** — when the directory of a compacted store opens again.
-/

namespace FabricReconciliation

open Lib

/-! ## Room -/

/-- The key is in the table, or one more may be. -/
def HasRoom {κ α : Type} [LinearOrder κ] (m : OrdMap κ α) (k : κ) (bound : Nat) : Prop :=
  (m.find? k).isSome = true ∨ m.size < bound

def AttemptRecord.running (a : AttemptRecord) : Bool := !a.state.isTerminal

/-- How many attempts are in flight. -/
def inFlight (s : DurableState) : Nat := s.attempts.count AttemptRecord.running

/-- The keys that `Dispatch` would issue attempts for. -/
def demanded (s : DurableState) (epoch : CoordinatorEpoch) (decisions : List Decision) : Finset Digest :=
  ((decisions.filter fun d => decide (d.disposition = .actionable) && !fenceHoldsFor s d.scope d.subject epoch &&
    (Engine.reusable s epoch d.idempotencyKey).isNone).map Decision.idempotencyKey).toFinset

/-- The tables have room for what the operation adds. -/
def Roomy (limits : RuntimeLimits) (live : Incarnation) (s : DurableState) : Operation → Prop
  | .commitIntent d =>
    HasRoom s.intents d.scope limits.maxScopes.toNat ∧ HasRoom s.intentGenerations d.scope limits.maxScopes.toNat
  | .recordObservationAt submission _ => HasRoom s.observations submission.scope limits.maxScopes.toNat
  | .putFence f => HasRoom s.fences f.id (limits.maxScopes * 16).toNat
  | .dispatch plan => inFlight s + (demanded s live.epoch plan.decisions).card ≤ limits.maxRetainedAttempts.toNat
  | _ => True

instance {κ α : Type} [LinearOrder κ] (m : OrdMap κ α) (k : κ) (bound : Nat) : Decidable (HasRoom m k bound) :=
  inferInstanceAs (Decidable (_ ∨ _))

instance (limits : RuntimeLimits) (live : Incarnation) (s : DurableState) :
    ∀ operation, Decidable (Roomy limits live s operation)
  | .commitIntent _ => inferInstanceAs (Decidable (_ ∧ _))
  | .recordObservationAt _ _ => inferInstanceAs (Decidable (HasRoom _ _ _))
  | .putFence _ => inferInstanceAs (Decidable (HasRoom _ _ _))
  | .dispatch _ => inferInstanceAs (Decidable (_ ≤ _))
  | .putPolicy _ _ | .plan _ | .complete _ | .verify _ | .clearFence _ | .compact => inferInstanceAs (Decidable True)

/-- A call that finds room. -/
def Process.Roomy (limits : RuntimeLimits) (p : Process) (a : Step) : Prop :=
  ∀ e operation env, p = .up e → a = .call operation env →
    FabricReconciliation.Roomy limits e.live e.store.state operation

/-- The bounds of the tables and of the lists in them. -/
structure Compactable (limits : RuntimeLimits) (s : DurableState) : Prop extends SnapshotBounds limits s where
  generationLists : ∀ e ∈ s.intentGenerations.entries, e.2.length ≤ limits.maxRetainedObservationsPerScope.toNat
  observationLists : ∀ e ∈ s.observations.entries, e.2.length ≤ limits.maxRetainedObservationsPerScope.toNat

section Tables

variable {κ α : Type} [LinearOrder κ] {m : OrdMap κ α} {k : κ} {a : α} {bound : Nat}

theorem HasRoom.insert (h : HasRoom m k bound) (hle : m.size ≤ bound) (a : α) :
    (m.insert k a).size ≤ bound ∧ HasRoom (m.insert k a) k bound := by
  refine ⟨?_, .inl (by simp [OrdMap.find?_insert_self])⟩
  rw [OrdMap.size_insert]
  rcases h with hold | hroom
  · rw [if_pos hold]
    exact hle
  · split
    · exact hle
    · exact hroom

end Tables

/-! ## Attempts -/

section Attempts

variable {limits : RuntimeLimits} {s t : DurableState} {a b : AttemptRecord} {epoch : CoordinatorEpoch}

/-- Trimming evicts no attempt in flight. -/
theorem count_trimAttempts {bound : Nat} : ∀ (rounds : Nat) (m : OrdMap UInt64 AttemptRecord),
    (trimAttempts rounds bound m).count AttemptRecord.running = m.count AttemptRecord.running
  | 0, m => rfl
  | rounds + 1, m => by
    unfold trimAttempts
    split
    · split
      · rfl
      next victim hvictim =>
        rw [count_trimAttempts rounds]
        have hfind : m.find? victim.1 = some victim.2 :=
          OrdMap.find?_eq_some_iff.mpr (List.mem_of_find?_eq_some hvictim)
        have hterminal : victim.2.state.isTerminal = true := by simpa using List.find?_some hvictim
        exact OrdMap.count_erase hfind (by simp [AttemptRecord.running, hterminal])
    · rfl

theorem inFlight_applyAttempt : inFlight (applyAttempt limits a s) +
    (s.attempts.find? a.id).elim 0 (fun b => b.running.toNat) = inFlight s + a.running.toNat := by
  unfold inFlight
  rw [show (applyAttempt limits a s).attempts = trimAttempts (s.attempts.insert a.id a).size
    limits.maxRetainedAttempts.toNat (s.attempts.insert a.id a) from rfl, count_trimAttempts]
  exact OrdMap.count_insert AttemptRecord.running s.attempts a.id a

/-- The table is within its bound while the attempts in flight are. -/
theorem size_applyAttempt (h : inFlight (applyAttempt limits a s) ≤ limits.maxRetainedAttempts.toNat) :
    (applyAttempt limits a s).attempts.size ≤ limits.maxRetainedAttempts.toNat := by
  by_contra hover
  push Not at hover
  have hrunning : ∀ e ∈ (applyAttempt limits a s).attempts.entries, e.2.running = true := by
    intro e he
    simp [AttemptRecord.running, trimAttempts_settles (le_refl _) hover e he]
  unfold inFlight at h
  rw [OrdMap.count_eq_size hrunning] at h
  omega

theorem inFlight_le (s : DurableState) : inFlight s ≤ s.attempts.size := List.countP_le_length

theorem SnapshotBounds.applyAttempt (h : SnapshotBounds limits s)
    (hfew : inFlight (applyAttempt limits a s) ≤ limits.maxRetainedAttempts.toNat) :
    SnapshotBounds limits (applyAttempt limits a s) := { h with attempts := size_applyAttempt hfew }

theorem Moves.inFlight (h : Moves limits s a b) : inFlight (applyAttempt limits b s) ≤ inFlight s := by
  have hid : b.id = a.id := by rw [h.same]
  have hcount := @inFlight_applyAttempt limits s b
  rw [hid, h.stored] at hcount
  simp only [Option.elim_some, AttemptRecord.running, h.running] at hcount
  have hone : (!b.state.isTerminal).toNat ≤ 1 := Bool.toNat_le _
  simp only [Bool.not_false, Bool.toNat_true] at hcount
  omega

theorem mem_demanded {decisions : List Decision} {key : Digest} : key ∈ demanded s epoch decisions ↔
    ∃ d ∈ decisions, d.disposition = .actionable ∧ fenceHoldsFor s d.scope d.subject epoch = false ∧
      Engine.reusable s epoch key = none ∧ d.idempotencyKey = key := by
  unfold demanded
  simp only [List.mem_toFinset, List.mem_map, List.mem_filter, Bool.and_eq_true, decide_eq_true_eq,
    Bool.not_eq_true', Option.isNone_iff_eq_none]
  constructor
  · rintro ⟨d, ⟨hd, ⟨hact, hfree⟩, hnone⟩, rfl⟩
    exact ⟨d, hd, hact, hfree, hnone, rfl⟩
  · rintro ⟨d, hd, hact, hfree, hnone, rfl⟩
    exact ⟨d, ⟨hd, ⟨hact, hfree⟩, hnone⟩, rfl⟩

theorem reusable_eq_none {key : Digest} : Engine.reusable s epoch key = none ↔
    ∀ k b, s.attempts.find? k = some b → b.idempotencyKey = key → b.epoch = epoch → b.state.isTerminal = true := by
  unfold Engine.reusable
  rw [List.find?_eq_none]
  constructor
  · intro h k b hb hkey hepoch
    simpa [hkey, hepoch] using h b (OrdMap.mem_values_iff.mpr ⟨k, hb⟩)
  · intro h b hb
    obtain ⟨k, hk⟩ := OrdMap.mem_values_iff.mp hb
    have hterminal := h k b hk
    simp only [Bool.and_eq_true, decide_eq_true_eq, Bool.not_eq_true', not_and, Bool.not_eq_false]
    exact fun hkeys => hterminal hkeys.1 hkeys.2

/-- An issued attempt takes its key off the demand. It may take another attempt's place in the table, whose key is
then in demand again. -/
theorem demanded_applyAttempt {decisions : List Decision} (hepoch : a.epoch = epoch) (ha : a.running = true)
    (hin : a.idempotencyKey ∈ demanded s epoch decisions) :
    (demanded (applyAttempt limits a s) epoch decisions).card + 1 ≤ (demanded s epoch decisions).card +
      (s.attempts.find? a.id).elim 0 (fun b => b.running.toNat) := by
  have hrunning : a.state.isTerminal = false := by simpa [AttemptRecord.running] using ha
  have hstored : (applyAttempt limits a s).attempts.find? a.id = some a := applyAttempt_stores hrunning
  have hgone : ∀ key ∈ demanded (applyAttempt limits a s) epoch decisions, key ≠ a.idempotencyKey := by
    rintro key hkey rfl
    obtain ⟨d, -, -, -, hnone, -⟩ := mem_demanded.mp hkey
    rw [reusable_eq_none.mp hnone a.id a hstored rfl hepoch] at hrunning
    simp at hrunning
  -- the other keys were in demand before, unless their attempt was overwritten
  have hbefore : ∀ key ∈ demanded (applyAttempt limits a s) epoch decisions, key ∈ demanded s epoch decisions ∨
      ∃ b, s.attempts.find? a.id = some b ∧ b.running = true ∧ b.idempotencyKey = key := by
    intro key hkey
    obtain ⟨d, hd, hact, hfree, hnone, hsame⟩ := mem_demanded.mp hkey
    by_cases hold : Engine.reusable s epoch key = none
    · exact .inl (mem_demanded.mpr ⟨d, hd, hact, hfree, hold, hsame⟩)
    rw [reusable_eq_none] at hold
    push Not at hold
    obtain ⟨k, b, hb, hbkey, hbepoch, hbrun⟩ := hold
    simp only [ne_eq, Bool.not_eq_true] at hbrun
    by_cases hk : k = a.id
    · rw [hk] at hb
      exact .inr ⟨b, hb, by simp [AttemptRecord.running, hbrun], hbkey⟩
    · rw [reusable_eq_none.mp hnone k b (applyAttempt_keeps hbrun hk hb) hbkey hbepoch] at hbrun
      simp at hbrun
  have herased := Finset.card_erase_add_one hin
  cases hfind : s.attempts.find? a.id with
  | none =>
    have hsub : demanded (applyAttempt limits a s) epoch decisions ⊆
        (demanded s epoch decisions).erase a.idempotencyKey := by
      intro key hkey
      rcases hbefore key hkey with hold | ⟨b, hb, -⟩
      · exact Finset.mem_erase.mpr ⟨hgone key hkey, hold⟩
      · simp [hfind] at hb
    have hcard := Finset.card_le_card hsub
    simp only [Option.elim_none]
    omega
  | some b =>
    simp only [Option.elim_some]
    cases hb : b.running with
    | false =>
      have hsub : demanded (applyAttempt limits a s) epoch decisions ⊆
          (demanded s epoch decisions).erase a.idempotencyKey := by
        intro key hkey
        rcases hbefore key hkey with hold | ⟨b', hb', hrun, -⟩
        · exact Finset.mem_erase.mpr ⟨hgone key hkey, hold⟩
        · rw [hfind, Option.some.injEq] at hb'
          simp [← hb', hb] at hrun
      have hcard := Finset.card_le_card hsub
      omega
    | true =>
      have hsub : demanded (applyAttempt limits a s) epoch decisions ⊆
          insert b.idempotencyKey ((demanded s epoch decisions).erase a.idempotencyKey) := by
        intro key hkey
        rcases hbefore key hkey with hold | ⟨b', hb', -, hbkey⟩
        · exact Finset.mem_insert_of_mem (Finset.mem_erase.mpr ⟨hgone key hkey, hold⟩)
        · rw [hfind, Option.some.injEq] at hb'
          rw [← hbkey, ← hb']
          exact Finset.mem_insert_self _ _
      have hcard := Finset.card_le_card hsub
      have hinsert := Finset.card_insert_le b.idempotencyKey ((demanded s epoch decisions).erase a.idempotencyKey)
      simp only [Bool.toNat_true]
      omega

end Attempts

/-! ## One record -/

section Records

variable {limits : RuntimeLimits} {live : Incarnation} {cause : Option Operation} {s t : DurableState} {e : Event}
  {operation : Operation}

theorem SnapshotBounds.of_tables (h : SnapshotBounds limits s) (he : s.tables = t.tables) : SnapshotBounds limits t := by
  obtain ⟨-, -, -, -, hi, hg, ho, ha, hout, hf⟩ := tables_eq_iff.mp he
  exact ⟨hg ▸ h.generations, hi ▸ h.intents, ho ▸ h.observations, ha ▸ h.attempts, hout ▸ h.outcomes, hf ▸ h.fences⟩

/-- Only these tables matter. -/
theorem Roomy.congr (h : Roomy limits live s operation) (hi : s.intents = t.intents)
    (hg : s.intentGenerations = t.intentGenerations) (ho : s.observations = t.observations)
    (ha : s.attempts = t.attempts) (hf : s.fences = t.fences) : Roomy limits live t operation := by
  cases operation with
  | commitIntent d =>
    unfold Roomy at h ⊢
    rw [← hi, ← hg]
    exact h
  | recordObservationAt submission stamp =>
    unfold Roomy at h ⊢
    rw [← ho]
    exact h
  | putFence f =>
    unfold Roomy at h ⊢
    rw [← hf]
    exact h
  | dispatch plan =>
    unfold Roomy inFlight demanded fenceHoldsFor Engine.reusable at h ⊢
    rw [← ha, ← hf]
    exact h
  | _ => trivial

theorem Roomy.of_tables (h : Roomy limits live s operation) (he : s.tables = t.tables) :
    Roomy limits live t operation := by
  obtain ⟨-, -, -, -, hi, hg, ho, ha, -, hf⟩ := tables_eq_iff.mp he
  exact h.congr hi hg ho ha hf

/-- An attempt in flight is issued where there is room for all that is in demand. -/
theorem Roomy.issue {p : ReconciliationPlan} {d : Decision} (h : Roomy limits live s (.dispatch p))
    (now : UnixMillis) (hd : d ∈ p.decisions) (hact : d.disposition = .actionable)
    (hfree : fenceHoldsFor s d.scope d.subject live.epoch = false)
    (hnone : Engine.reusable s live.epoch d.idempotencyKey = none) :
    inFlight (applyAttempt limits (Engine.newAttempt live now s.nextAttempt d) s) ≤
        limits.maxRetainedAttempts.toNat ∧
      Roomy limits live (applyAttempt limits (Engine.newAttempt live now s.nextAttempt d) s) (.dispatch p) := by
  have hin : (Engine.newAttempt live now s.nextAttempt d).idempotencyKey ∈ demanded s live.epoch p.decisions :=
    mem_demanded.mpr ⟨d, hd, hact, hfree, hnone, rfl⟩
  have hcount := @inFlight_applyAttempt limits s (Engine.newAttempt live now s.nextAttempt d)
  have hcard := @demanded_applyAttempt limits s (Engine.newAttempt live now s.nextAttempt d) live.epoch p.decisions rfl
    rfl hin
  have hrunning : (Engine.newAttempt live now s.nextAttempt d).running.toNat = 1 := rfl
  have hroom : inFlight s + (demanded s live.epoch p.decisions).card ≤ limits.maxRetainedAttempts.toNat := h
  rw [hrunning] at hcount
  have hboth : inFlight (applyAttempt limits (Engine.newAttempt live now s.nextAttempt d) s) +
      (demanded (applyAttempt limits (Engine.newAttempt live now s.nextAttempt d) s) live.epoch p.decisions).card ≤
        limits.maxRetainedAttempts.toNat := by omega
  exact ⟨by omega, hboth⟩

/-- **`SnapshotBounds.write`**. -/
theorem SnapshotBounds.write (h : SnapshotBounds limits s) (hroom : ∀ op, cause = some op → Roomy limits live s op)
    (he : Write limits live cause s e) : SnapshotBounds limits (applyEvent limits s e) ∧
      ∀ op, cause = some op → Roomy limits live (applyEvent limits s e) op := by
  cases he with
  | policyPut policy hok hnewer => exact ⟨{ h with }, fun op hop => (hroom op hop).congr rfl rfl rfl rfl rfl⟩
  | intentCommit d hok hcause hnewer =>
    obtain ⟨document, rfl, hscope⟩ := hcause
    obtain ⟨hintents, hgenerations⟩ := hroom _ rfl
    rw [← hscope] at hintents hgenerations
    obtain ⟨hi, hi'⟩ := hintents.insert h.intents d.withKeyIds
    obtain ⟨hg, hg'⟩ := hgenerations.insert h.generations (keepLast limits.maxRetainedObservationsPerScope.toNat
      ((s.intentGenerations.find? d.scope).getD [] ++ [d.generation]))
    refine ⟨{ h with intents := hi, generations := hg }, ?_⟩
    rintro op hop
    rw [Option.some.injEq] at hop
    subst hop
    refine ⟨?_, ?_⟩
    · rw [← hscope]
      exact hi'
    · rw [← hscope]
      exact hg'
  | observationCommit d hok hepoch hcause hnewest =>
    obtain ⟨submission, stamp, rfl, hscope⟩ := hcause
    have hobservations : HasRoom s.observations submission.scope limits.maxScopes.toNat := hroom _ rfl
    rw [← hscope] at hobservations
    obtain ⟨ho, ho'⟩ := hobservations.insert h.observations (keepLast limits.maxRetainedObservationsPerScope.toNat
      ((s.observations.find? d.scope).getD [] ++ [d.withKeyIds]))
    refine ⟨{ h with observations := ho }, ?_⟩
    rintro op hop
    rw [Option.some.injEq] at hop
    subst hop
    show HasRoom _ submission.scope _
    rw [← hscope]
    exact ho'
  | attemptIssued p d now hcause hd hact hfree hnone =>
    subst hcause
    obtain ⟨hfew, hmore⟩ := (hroom _ rfl).issue now hd hact hfree hnone
    refine ⟨h.applyAttempt hfew, ?_⟩
    rintro op hop
    rw [Option.some.injEq] at hop
    subst hop
    exact hmore
  | attemptTransition a a' hm hc =>
    refine ⟨h.applyAttempt (le_trans hm.inFlight (le_trans (inFlight_le s) h.attempts)), ?_⟩
    intro op hop
    have hold := hroom op hop
    cases hc with
    | restart hcause ht => simp [hop] at hcause
    | fence f hcause ht =>
      rw [hop, Option.some.injEq] at hcause
      subst hcause
      exact hold
    | complete r hcause ht hid hlive =>
      rw [hop, Option.some.injEq] at hcause
      subst hcause
      trivial
    | verify v hcause happlied ht hlive =>
      rw [hop, Option.some.injEq] at hcause
      subst hcause
      trivial
  | outcomeCommit o hok hverified =>
    exact ⟨{ h with outcomes := length_keepLast _ _ }, fun op hop => (hroom op hop).congr rfl rfl rfl rfl rfl⟩
  | fencePut f now hid hscope hcause =>
    subst hcause
    have hfences : HasRoom s.fences f.id (limits.maxScopes * 16).toNat := hroom _ rfl
    obtain ⟨hf, hf'⟩ := hfences.insert h.fences { f with createdUnixMs := now }
    refine ⟨{ h with fences := hf }, ?_⟩
    rintro op hop
    rw [Option.some.injEq] at hop
    subst hop
    exact hf'
  | fenceClear id hid hcause =>
    refine ⟨{ h with fences := le_trans (OrdMap.size_erase_le _ _) h.fences }, ?_⟩
    intro op hop
    rw [hop, Option.some.injEq] at hcause
    subst hcause
    trivial
  | epochAdvance hcause hnewer =>
    refine ⟨{ h with }, ?_⟩
    intro op hop
    simp [hop] at hcause

end Records

/-! ## Runs -/

section Runs

variable {limits : RuntimeLimits} {p : Process} {v w : View} {a : Step}

/-- One successful step that finds room. -/
theorem Progress.bounded (hprogress : Progress limits p a v w) (hv : Kept limits p v) (hw : Kept limits (p.step a).2 w)
    (hsucceeds : p.Succeeds a) (hroom : p.Roomy limits a) (hnone : v.pending = none)
    (hbounds : SnapshotBounds limits v.memory) : w.pending = none ∧ SnapshotBounds limits w.memory := by
  rcases hprogress.level hnone with rfl | ⟨live, cause, hcaused, hacts⟩
  · exact ⟨hnone, hbounds⟩
  have htold := hacts.told (by
    rw [← hv.appends hw]
    exact fun x hx _ => hsucceeds x hx)
  have hpending : w.pending = none := by
    rcases htold with ⟨hsame, -⟩ | hdone
    · exact hsame.trans hnone
    · exact hdone
  have hfirst : ∀ op, cause = some op → FabricReconciliation.Roomy limits live v.memory op := by
    intro op hop
    cases hcaused with
    | call e operation env _ =>
      rw [Option.some.injEq] at hop
      subst hop
      have htables : v.memory = e.store.state.tables := hv.tables
      rw [htables]
      exact (hroom e operation env rfl rfl).of_tables rfl
    | boot dir last opening id env _ hmode => simp at hop
  refine ⟨hpending, (hacts.memory (P := fun st => SnapshotBounds limits st ∧
    ∀ op, cause = some op → FabricReconciliation.Roomy limits live st op) ⟨hbounds, hfirst⟩ ?_).1⟩
  intro st e hst he _ _
  exact hst.1.write hst.2 he

/-- **`run_bounded`**. -/
theorem run_bounded (h : Run limits (fun p a => p.Orderly a ∧ (p.step a).1.code = .ok ∧ p.Roomy limits a) p) :
    ∃ v, Kept limits p v ∧ v.pending = none ∧ SnapshotBounds limits v.memory := by
  induction h with
  | start =>
    refine ⟨View.initial, .down (.blank ⟨rfl, rfl⟩ rfl rfl), rfl, ?_⟩
    constructor <;> simp [View.initial, DurableState.tables, DurableState.core, OrdMap.empty, OrdMap.size]
  | @step p h a ha hlimits ih =>
    obtain ⟨v, hv, hnone, hbounds⟩ := ih
    obtain ⟨horderly, hok, hroom⟩ := ha
    obtain ⟨w, hw, hprogress⟩ := step_progress hv horderly hlimits
    exact ⟨w, hw, hprogress.bounded hv hw (step_succeeds hv hlimits hok) hroom hnone hbounds⟩

theorem Kept.compactable (h : Kept limits p v) (hbounds : SnapshotBounds limits v.memory) : Compactable limits p.state := by
  have htables := h.tables
  have hmemory : SnapshotBounds limits p.state := hbounds.of_tables (by
    rw [htables]
    rfl)
  have hok := h.tablesOk
  rw [htables] at hok
  exact { hmemory with
    generationLists := fun e he => (hok.generations e he).2
    observationLists := fun e he => (hok.streams e he).2 }

/-- The contents behind a snapshot of `s` and an empty journal open under these conditions. -/
theorem openable_restarted (s : DurableStore) (now headerNow : UnixMillis) (readOnly : Bool) :
    (∃ state, Openable limits readOnly (s.restarted now headerNow) state) ↔ SnapshotBounds limits s.counted ∧
      96 ≤ limits.maxJournalBytes.toNat ∧ 112 + (encodeSnapshotPayload s.counted).length ≤ maxSnapshotBytes limits := by
  have hsize : (s.restarted now headerNow).journalFile.length = 96 := by
    simp [Contents.journalFile, journalBytes, DurableStore.restarted, recordImages, framed]
  have hpublished : (s.restarted now headerNow).published = some (s.counted, now) := rfl
  constructor
  · rintro ⟨state, ho⟩
    have hbounds := ho.bounds (s.counted, now) hpublished
    have hsnapshot := ho.snapshotSize (s.counted, now) hpublished
    have hjournal := ho.size
    rw [hsize] at hjournal
    simp only at hbounds hsnapshot
    exact ⟨hbounds, hjournal, hsnapshot⟩
  · rintro ⟨hbounds, hjournal, hsnapshot⟩
    refine ⟨(s.restarted now headerNow).start, ?_⟩
    constructor
    · rw [hsize]
      exact hjournal
    · simp [DurableStore.restarted]
    · exact fun _ => rfl
    · intro q hq
      rw [hpublished, Option.some.injEq] at hq
      rw [← hq]
      exact hsnapshot
    · intro q hq
      rw [hpublished, Option.some.injEq] at hq
      rw [← hq]
      exact hbounds
    · simp [Contents.watermark, Contents.last, DurableStore.restarted]
    · simp [Contents.replayed, DurableStore.restarted, replayEntries, framed]

/-- What `Compact` leaves behind opens under these conditions. -/
theorem compact_opens_iff {e : Engine} (h : Kept limits (.up e) v) {env : CallEnv}
    (hok : (e.compact env).1.code = .ok) (createIfMissing readOnly : Bool) (opening : DurableStore.OpenEnv) :
    (∃ opened, (DurableStore.open limits createIfMissing readOnly opening (e.compact env).2.store.directory).2 =
      .ok opened) ↔ SnapshotBounds limits e.store.state ∧ 96 ≤ limits.maxJournalBytes.toNat ∧
        112 + (encodeSnapshotPayload e.store.counted).length ≤ maxSnapshotBytes limits := by
  have hcounted : SnapshotBounds limits e.store.counted ↔ SnapshotBounds limits e.store.state :=
    ⟨fun hb => { hb with }, fun hb => hb.relabel _ _⟩
  have hdone : (e.store.compact env.io env.snapshotNow env.headerNow).1.code = .ok ∧
      (e.compact env).2.store = (e.store.compact env.io env.snapshotNow env.headerNow).2 := by
    unfold Engine.compact at hok ⊢
    by_cases hmode : e.store.readOnly = true
    · simp [hmode, Engine.readOnlyStatus] at hok
    rw [if_neg hmode] at hok ⊢
    by_cases hdone : (e.store.compact env.io env.snapshotNow env.headerNow).1.code = .ok
    · simp only [if_pos hdone]
      exact ⟨hdone, trivial⟩
    · simp only [if_neg hdone] at hok
      exact absurd hok hdone
  obtain ⟨hdone, hstore⟩ := hdone
  rw [hstore, ← hcounted, ← openable_restarted e.store env.snapshotNow env.headerNow readOnly]
  cases h with
  | up hfollows hoptions hepoch =>
    rcases compact_cases hfollows.handle hfollows.entries env.io env.snapshotNow env.headerNow with
      ⟨hs, -⟩ | ⟨hs, -⟩ | ⟨-, -, -, -, hlive⟩ | ⟨hs, -⟩
    · exact absurd hdone hs
    · exact absurd hdone hs
    · have hholds := hlive.holds
      rw [Contents.with_nil] at hholds
      constructor
      · rintro ⟨⟨opened, report⟩, hopen⟩
        exact open_ok hholds hopen
      · rintro ⟨state, ho⟩
        obtain ⟨report, hopen⟩ := open_succeeds hholds ho createIfMissing opening
        exact ⟨_, congrArg Prod.snd hopen⟩
    · exact absurd hdone hs

/-- A compaction that no file operation fails leaves its tables, and the contents behind its snapshot. -/
theorem compact_done {e : Engine} (h : Kept limits (.up e) v) {env : CallEnv} (hio : env.io = {})
    (hmode : e.store.readOnly = false) (hhealthy : e.store.journal.writeFailed = false)
    (hencodes : encodeSnapshotPayload e.store.counted ≠ []) :
    (e.compact env).1.code = .ok ∧ (e.compact env).2.store.state.core = e.store.state.core ∧
      Holds limits (e.store.restarted env.snapshotNow env.headerNow) (e.compact env).2.store.directory := by
  cases h with
  | up hfollows hoptions hepoch =>
    have hjournal : e.store.journal.readOnly = false := hfollows.handle.mode.trans hmode
    have hdone : (e.store.compact env.io env.snapshotNow env.headerNow).1.code = .ok := by
      rw [hio]
      obtain ⟨status, j, hreset, hw⟩ := reset_writes hjournal WriteIo.ok e.store.state.store env.headerNow
        (e.store.directory.journal.getD [])
      rw [compact_published hmode hencodes rfl env.snapshotNow env.headerNow hreset, hw.succeeds hhealthy rfl]
      rfl
    have hcompact : e.compact env = ((e.store.compact env.io env.snapshotNow env.headerNow).1,
        { e with
          store := (e.store.compact env.io env.snapshotNow env.headerNow).2
          compactionWatermark := (e.store.compact env.io env.snapshotNow env.headerNow).2.state.sequence }) := by
      unfold Engine.compact
      simp [hmode, hdone]
    rw [hcompact]
    rcases compact_cases hfollows.handle hfollows.entries env.io env.snapshotNow env.headerNow with
      ⟨hs, -⟩ | ⟨hs, -⟩ | ⟨hcore, -, -, -, hlive⟩ | ⟨hs, -⟩
    · exact absurd hdone hs
    · exact absurd hdone hs
    · have hholds := hlive.holds
      rw [Contents.with_nil] at hholds
      exact ⟨hdone, hcore, hholds⟩
    · exact absurd hdone hs

/-- Outside the bounds, the compacted store is damaged for every boot. -/
theorem compact_damages {e : Engine} (h : Kept limits (.up e) v) {env : CallEnv} (hio : env.io = {})
    (hmode : e.store.readOnly = false) (hhealthy : e.store.journal.writeFailed = false)
    (hencodes : encodeSnapshotPayload e.store.counted ≠ []) (hbounds : ¬ SnapshotBounds limits e.store.state)
    (hjournal : 96 ≤ limits.maxJournalBytes.toNat)
    (hsize : 112 + (encodeSnapshotPayload e.store.counted).length ≤ maxSnapshotBytes limits)
    {options : EngineOptions} (hlimits : options.limits = limits) (opening : DurableStore.OpenEnv) (id : BootId)
    (env' : CallEnv) : ((((Process.up e).after (.call .compact env)).after .exit).step
      (.boot options opening id env')).1.code = .integrityFailure := by
  obtain ⟨hok, -, hholds⟩ := compact_done h hio hmode hhealthy hencodes
  show (Process.boot (e.compact env).2.store.directory (e.compact env).2.store.state options opening id env').1.code = _
  unfold Process.boot
  rw [hlimits]
  rcases hopen : DurableStore.open limits options.createIfMissing options.readOnly opening
    (e.compact env).2.store.directory with ⟨dir, answer⟩
  cases answer with
  | ok opened =>
    have hopens := (compact_opens_iff h hok _ _ opening).mp ⟨opened, congrArg Prod.snd hopen⟩
    exact absurd hopens.1 hbounds
  | error status =>
    apply open_damaged hholds ?_ ?_ (congrArg Prod.snd hopen)
    · simpa [Contents.journalFile, journalBytes, DurableStore.restarted, recordImages, framed] using hjournal
    · intro p hp
      rw [← Option.some.inj (show some (e.store.counted, env.snapshotNow) = some p from hp)]
      exact hsize

/-- The bounds hold in every run of successful calls that find room, and a compacted store opens again exactly when
its state is within the bounds, the journal may be as long as its header, and the snapshot is not too long. -/
theorem compacted_store_opens (limits : RuntimeLimits) :
    (∀ p, Run limits (fun p a => p.Orderly a ∧ (p.step a).1.code = .ok ∧ p.Roomy limits a) p →
      Compactable limits p.state) ∧
    ∀ e env createIfMissing readOnly opening, Run limits Process.Orderly (.up e) → (e.compact env).1.code = .ok →
      ((∃ opened, (DurableStore.open limits createIfMissing readOnly opening
          (e.compact env).2.store.directory).2 = .ok opened) ↔
        SnapshotBounds limits e.store.state ∧ 96 ≤ limits.maxJournalBytes.toNat ∧
          112 + (encodeSnapshotPayload e.store.counted).length ≤ maxSnapshotBytes limits) := by
  constructor
  · intro p hp
    obtain ⟨v, hv, -, hbounds⟩ := run_bounded hp
    exact hv.compactable hbounds
  · intro e env createIfMissing readOnly opening hrun hok
    obtain ⟨v, hv, -⟩ := run_good (fun _ _ ha => ha) hrun
    exact compact_opens_iff hv hok createIfMissing readOnly opening

end Runs

/-! ## Two stores -/

theorem Process.Roomy.of_runs {limits : RuntimeLimits} {p : Process} {operation : Operation} {env : CallEnv}
    (h : p.runs (fun e => decide (FabricReconciliation.Roomy limits e.live e.store.state operation)) = true) :
    p.Roomy limits (.call operation env) := by
  obtain ⟨e, rfl, he⟩ := Process.runs_iff.mp h
  intro e' operation' env' hup hcall
  injection hup with hsame
  injection hcall with hoperation
  rw [← hsame, ← hoperation]
  simpa using he

/-- With an attempt in flight, under the default limits. -/
theorem compacted_store_opens_flight : ∃ e, sampleFlight = .up e ∧ Compactable {} e.store.state ∧
    ∃ opened, (DurableStore.open {} false false {} (e.compact {}).2.store.directory).2 = .ok opened := by
  obtain ⟨hboot, hintent, hreport, hdispatch⟩ := sample_oks
  have hroom : sampleStart.runs (fun e => decide (Roomy {} e.live e.store.state (.commitIntent sampleIntent))) = true := by
    rw [sampleStart_eq]
    decide
  have hroom' : sampleIntended.runs (fun e => decide (Roomy {} e.live e.store.state
      (.recordObservationAt (sampleReport 1) 1))) = true := by
    rw [sampleIntended_eq]
    decide
  have hroom'' : sampleObserved.runs (fun e => decide (Roomy {} e.live e.store.state (.dispatch samplePlan))) = true := by
    rw [sampleObserved_eq]
    decide
  have hcompact : sampleFlight.runs (fun e => decide ((e.compact {}).1.code = .ok)) = true := by
    rw [sampleFlight_eq]
    decide +kernel
  have hflight : Run {} (fun p a => p.Orderly a ∧ (p.step a).1.code = .ok ∧ p.Roomy {} a) sampleFlight := by
    apply sampleFlight_allowed
    · refine ⟨trivial, hboot, ?_⟩
      intro e operation env hup
      simp at hup
    · exact ⟨.inl rfl, hintent, .of_runs hroom⟩
    · exact ⟨.inl rfl, hreport, .of_runs hroom'⟩
    · exact ⟨.inl rfl, hdispatch, .of_runs hroom''⟩
  obtain ⟨e, he, hok⟩ := Process.runs_iff.mp hcompact
  have hbounded := (compacted_store_opens {}).1 _ hflight
  have hplain := sampleFlight_run
  rw [he] at hbounded hplain
  refine ⟨e, he, hbounded, ?_⟩
  apply ((compacted_store_opens {}).2 e {} false false {} hplain (by simpa using hok)).mpr
  refine ⟨hbounded.toSnapshotBounds, by decide, ?_⟩
  have hlen := length_encoded_le (snapshotScript e.store.counted)
  have hmax : maxSnapshotBytes {} = 536870912 + 112 := by decide
  rw [hmax]
  unfold encodeSnapshotPayload
  simp only [kMaxCanonicalBytes] at hlen
  omega

def sampleCrowded : Process := Process.after (.down {} {}) (.boot { limits := { maxScopes := 0 } } {} FixedBytes.zero {})

def sampleOverfull : Process := sampleCrowded.after (.call (.commitIntent sampleIntent) {})

theorem crowded_ample : Ample { maxScopes := 0 } := ⟨rfl, rfl⟩

theorem crowded_boots : Process.step (.down {} {}) (.boot { limits := { maxScopes := 0 } } {} FixedBytes.zero {}) =
    (Status.ok, .up (Engine.on { limits := { maxScopes := 0 } } {} ⟨1, FixedBytes.zero⟩ 2 (told (sampleEvents.take 2))
      (sampleEvents.take 2))) := by
  apply boot_recorded rfl rfl rfl rfl rfl
  · exact canonicalisePolicy_self (defaultPolicy_canonical _)
  · exact (sampleEvents_brief _ (by simp [sampleEvents])).fits crowded_ample
  · exact (sampleEvents_brief _ (by simp [sampleEvents])).fits crowded_ample

theorem sampleCrowded_eq : sampleCrowded = .up (Engine.on { limits := { maxScopes := 0 } } {} ⟨1, FixedBytes.zero⟩ 2
    (told (sampleEvents.take 2)) (sampleEvents.take 2)) := by
  rw [sampleCrowded, Process.after, crowded_boots]

theorem crowded_intends : sampleCrowded.step (.call (.commitIntent sampleIntent) {}) =
    (Status.ok, .up (Engine.on { limits := { maxScopes := 0 } } {} ⟨1, FixedBytes.zero⟩ 2 (told (sampleEvents.take 3))
      (sampleEvents.take 3))) := by
  rw [sampleCrowded_eq]
  apply commitIntent_recorded rfl
  · rfl
  · rfl
  · exact (sampleEvents_brief (.intentCommit committedIntent) (by simp [sampleEvents])).fits crowded_ample
  · exact .inr (show (1 : UInt64) < 8192 by decide)

/-- The engine that holds the one scope. -/
def crowdedEngine : Engine :=
  Engine.on { limits := { maxScopes := 0 } } {} ⟨1, FixedBytes.zero⟩ 2 (told (sampleEvents.take 3)) (sampleEvents.take 3)

theorem sampleOverfull_eq : sampleOverfull = .up crowdedEngine := by
  rw [sampleOverfull, Process.after, crowded_intends]
  rfl

/-- Where no scope has room, the first one is accepted, compacted, and never read again. -/
theorem crowded_store_never_opens :
    Run { maxScopes := 0 } (fun p a => p.Orderly a ∧ (p.step a).1.code = .ok)
        (sampleOverfull.after (.call .compact {})) ∧
      ¬ SnapshotBounds { maxScopes := 0 } (sampleOverfull.after (.call .compact {})).state ∧
      (((sampleOverfull.after (.call .compact {})).after .exit).step
        (.boot { limits := { maxScopes := 0 } } {} FixedBytes.zero {})).1.code = .integrityFailure := by
  have hboot : (Process.step (.down {} {}) (.boot { limits := { maxScopes := 0 } } {} FixedBytes.zero {})).1.code = .ok := by
    rw [crowded_boots]
    rfl
  have hintent : (sampleCrowded.step (.call (.commitIntent sampleIntent) {})).1.code = .ok := by
    rw [crowded_intends]
    rfl
  have hcrowded : Run { maxScopes := 0 } (fun p a => p.Orderly a ∧ (p.step a).1.code = .ok) sampleCrowded := by
    rw [sampleCrowded]
    apply Run.after .start
    · exact ⟨trivial, hboot⟩
    · rintro options opening id env ⟨⟩
      rfl
  have hoverfull : Run { maxScopes := 0 } (fun p a => p.Orderly a ∧ (p.step a).1.code = .ok) sampleOverfull :=
    hcrowded.after ⟨.inl rfl, hintent⟩ (by simp)
  obtain ⟨v, hv, -⟩ := run_good (fun _ _ ha => ha.1) hoverfull
  rw [sampleOverfull_eq] at hv
  have hencodes : encodeSnapshotPayload crowdedEngine.store.counted ≠ [] := by decide +kernel
  have hsize : 112 + (encodeSnapshotPayload crowdedEngine.store.counted).length ≤ maxSnapshotBytes { maxScopes := 0 } := by
    have hlen := length_encoded_le (snapshotScript crowdedEngine.store.counted)
    have hmax : maxSnapshotBytes { maxScopes := 0 } = 536870912 + 112 := by decide
    rw [hmax]
    unfold encodeSnapshotPayload
    simp only [kMaxCanonicalBytes] at hlen
    omega
  have hbounds : ¬ SnapshotBounds { maxScopes := 0 } crowdedEngine.store.state := by
    intro hbounds
    exact absurd hbounds.intents (show ¬ 1 ≤ 0 by decide)
  obtain ⟨hcompact, hcore, -⟩ := @compact_done _ _ crowdedEngine hv {} rfl rfl rfl hencodes
  refine ⟨hoverfull.after ⟨.inl rfl, ?_⟩ (by simp), ?_, ?_⟩
  · rw [sampleOverfull_eq]
    exact hcompact
  · intro hagain
    rw [sampleOverfull_eq] at hagain
    exact hbounds (hagain.of_tables (tables_of_core hcore))
  · rw [sampleOverfull_eq]
    exact compact_damages hv rfl rfl rfl hencodes hbounds (by decide) hsize rfl {} FixedBytes.zero {}

end FabricReconciliation
