import FabricReconciliation.Writes

/-!
# The tables of a store

What a reopening restores: everything but the record number, the compaction counter and the identity of
the store. Records and what may be written depend on nothing else (`applyEvent_tables`, `Write.tables`).
-/

namespace FabricReconciliation

open Lib

/-- The tables, without the numbers that replay does not restore and the store's identity. -/
def DurableState.tables (s : DurableState) : DurableState := { s.core with store := FixedBytes.zero }

theorem tables_of_core {s t : DurableState} (h : s.core = t.core) : s.tables = t.tables := by
  unfold DurableState.tables
  rw [h]

@[simp] theorem tables_tables (s : DurableState) : s.tables.tables = s.tables := rfl

theorem applyEvent_tables (limits : RuntimeLimits) (s : DurableState) (e : Event) :
    applyEvent limits s.tables e = (applyEvent limits s e).tables := by
  cases e <;> rfl

theorem tables_eq_iff {s t : DurableState} : s.tables = t.tables ↔
    s.lastEpoch = t.lastEpoch ∧ s.nextAttempt = t.nextAttempt ∧ s.hasPolicy = t.hasPolicy ∧ s.policy = t.policy ∧
      s.intents = t.intents ∧ s.intentGenerations = t.intentGenerations ∧ s.observations = t.observations ∧
      s.attempts = t.attempts ∧ s.outcomes = t.outcomes ∧ s.fences = t.fences := by
  simp only [DurableState.tables, DurableState.core, DurableState.mk.injEq, true_and, and_true]

/-! ## Encodings of the stored entries -/

theorem EntriesFit.of_tables {s t : DurableState} (h : EntriesFit s) (he : s.tables = t.tables) : EntriesFit t := by
  obtain ⟨-, -, h1, h2, h3, -, h4, h5, h6, h7⟩ := tables_eq_iff.mp he
  exact ⟨by rw [← h1, ← h2]; exact h.policy, by rw [← h3]; exact h.intents, by rw [← h4]; exact h.observations,
    by rw [← h5]; exact h.attempts, by rw [← h6]; exact h.outcomes, by rw [← h7]; exact h.fences⟩

theorem entriesFit_initial (store : StoreId) : EntriesFit { store := store } := by
  constructor <;> simp [OrdMap.empty]

/-- A record that was encoded can be encoded again inside a snapshot. -/
theorem EntriesFit.applyEvent {limits : RuntimeLimits} {s : DurableState} (h : EntriesFit s) {e : Event}
    (hp : e.payload ≠ []) : EntriesFit (applyEvent limits s e) := by
  have hattempt : ∀ a : AttemptRecord, encodeAttempt a ≠ [] → EntriesFit (applyAttempt limits a s) := by
    intro a ha
    refine { h with attempts := ?_ }
    intro entry hentry
    rcases OrdMap.mem_insertEntry (mem_trimAttempts hentry) with rfl | hold
    · exact ha
    · exact h.attempts entry hold
  cases e with
  | policyPut policy => exact { h with policy := fun _ => hp }
  | intentCommit d =>
    refine { h with intents := ?_ }
    intro entry hentry
    rcases OrdMap.mem_insertEntry hentry with rfl | hold
    · show encoded (intentScript d.withKeyIds) ≠ []
      rw [intentScript_withKeyIds]
      exact hp
    · exact h.intents entry hold
  | observationCommit d =>
    refine { h with observations := ?_ }
    intro entry hentry doc hdoc
    rcases OrdMap.mem_insertEntry hentry with rfl | hold
    · rcases List.mem_append.mp (mem_of_mem_keepLast hdoc) with hkept | hnew
      · cases hfind : s.observations.find? d.withKeyIds.scope with
        | none => simp [hfind] at hkept
        | some stream =>
          rw [hfind] at hkept
          exact h.observations _ (OrdMap.find?_eq_some_iff.mp hfind) doc hkept
      · rw [List.mem_singleton.mp hnew]
        show encoded (observationScript d.withKeyIds) ≠ []
        rw [observationScript_withKeyIds]
        exact hp
    · exact h.observations entry hold doc hdoc
  | attemptIssued a => exact hattempt a hp
  | attemptTransition a => exact hattempt a hp
  | outcomeCommit o =>
    refine { h with outcomes := ?_ }
    intro o' ho'
    rcases List.mem_append.mp (mem_of_mem_keepLast ho') with hold | hnew
    · exact h.outcomes o' hold
    · rw [List.mem_singleton.mp hnew]
      exact hp
  | fencePut f =>
    refine { h with fences := ?_ }
    intro entry hentry
    rcases OrdMap.mem_insertEntry hentry with rfl | hold
    · exact hp
    · exact h.fences entry hold
  | fenceClear id =>
    refine { h with fences := ?_ }
    intro entry hentry
    exact h.fences entry (List.mem_filter.mp hentry).1
  | epochAdvance epoch => exact { h with }

theorem length_payload_lt_word (e : Event) : e.payload.length < 2 ^ 32 := by
  have := length_encoded_le e.script
  unfold Event.payload
  simp only [kMaxCanonicalBytes] at this
  omega

/-! ## What may be written -/

theorem Moves.tables {limits : RuntimeLimits} {s : DurableState} {a a' : AttemptRecord} (h : Moves limits s a a') :
    Moves limits s.tables a a' := ⟨h.stored, h.running, h.legal, h.same, h.grows, h.history, h.continues⟩

theorem Write.tables {limits : RuntimeLimits} {live : Incarnation} {cause : Option Operation} {s : DurableState}
    {e : Event} (h : Write limits live cause s e) : Write limits live cause s.tables e := by
  cases h with
  | policyPut policy hok hnewer => exact .policyPut policy hok hnewer
  | intentCommit d hok hcause hnewer => exact .intentCommit d hok hcause hnewer
  | observationCommit d hok hepoch hcause hnewest => exact .observationCommit d hok hepoch hcause hnewest
  | attemptIssued p d now hcause hd hact hfree hnone => exact .attemptIssued p d now hcause hd hact hfree hnone
  | attemptTransition a a' hm hc => exact .attemptTransition a a' hm.tables hc
  | outcomeCommit o hok hverified => exact .outcomeCommit o hok hverified
  | fencePut f now hid hscope hcause => exact .fencePut f now hid hscope hcause
  | fenceClear id hid hcause => exact .fenceClear id hid hcause
  | epochAdvance hcause hnewer => exact .epochAdvance hcause hnewer

theorem Settles.tables {limits : RuntimeLimits} {live : Incarnation} {cause : Option Operation} {s : DurableState}
    {a a' : AttemptRecord} {o : ReconciliationOutcome} (h : Settles limits live cause s a a' o) :
    Settles limits live cause s.tables a a' o := { h with moves := h.moves.tables }

theorem TablesOk.tables {limits : RuntimeLimits} {s : DurableState} (h : TablesOk limits s) :
    TablesOk limits s.tables := { h with }

theorem TablesOk.of_tables {limits : RuntimeLimits} {s t : DurableState} (h : TablesOk limits s)
    (he : s.tables = t.tables) : TablesOk limits t := by
  have ht := h.tables
  rw [he] at ht
  exact { ht with }

end FabricReconciliation
