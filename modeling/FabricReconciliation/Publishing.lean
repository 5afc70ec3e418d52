import FabricReconciliation.Kept
import FabricReconciliation.Recorded

/-!
# Intent and policy lineage (`engine.cpp:112-129`, `engine.cpp:255-334`)

The order of generations and versions is checked in the engine alone; replay and snapshots overwrite.
`Newer s t` is what every record that an engine may write keeps.

* **`lineage_monotone`** — along every run the committed intents and the active policy only move to
  strictly newer ones, and a call that does not publish anything changes no table.
-/

namespace FabricReconciliation

open Lib

/-- Each intent and the policy is the same in `t`, or a newer one. -/
structure Newer (s t : DurableState) : Prop where
  intents : ∀ scope d, s.intents.find? scope = some d →
    ∃ d', t.intents.find? scope = some d' ∧ (d' = d ∨ d.generation < d'.generation)
  policy : s.hasPolicy = true → t.hasPolicy = true ∧ (t.policy = s.policy ∨ s.policy.version < t.policy.version)

section Order

variable {limits : RuntimeLimits} {s t u : DurableState}

theorem Newer.refl (s : DurableState) : Newer s s :=
  ⟨fun _ d hd => ⟨d, hd, .inl rfl⟩, fun h => ⟨h, .inl rfl⟩⟩

theorem Newer.of_tables (h : Newer s t) (hs : s.tables = u.tables) : Newer u t := by
  obtain ⟨-, -, hhas, hpolicy, hintents, -⟩ := tables_eq_iff.mp hs
  exact ⟨by rw [← hintents]; exact h.intents, by rw [← hhas, ← hpolicy]; exact h.policy⟩

/-- A record that touches neither intents nor the policy. -/
theorem Newer.frame (h : Newer s t) (hintents : u.intents = t.intents) (hhas : u.hasPolicy = t.hasPolicy)
    (hpolicy : u.policy = t.policy) : Newer s u :=
  ⟨by rw [hintents]; exact h.intents, by rw [hhas, hpolicy]; exact h.policy⟩

/-- What an engine may write makes nothing older. -/
theorem Newer.write (h : Newer s t) {e : Event} {live : Incarnation} {cause : Option Operation}
    (he : Write limits live cause t e) : Newer s (applyEvent limits t e) := by
  cases he with
  | policyPut policy hok hnewer =>
    refine ⟨h.intents, fun hs => ⟨rfl, ?_⟩⟩
    obtain ⟨ht, hcase⟩ := h.policy hs
    have hlt : t.policy.version < policy.version := hnewer ht
    rcases hcase with hsame | hold
    · exact .inr (hsame ▸ hlt)
    · exact .inr (lt_trans hold hlt)
  | intentCommit d hok hcause hnewer =>
    refine ⟨?_, h.policy⟩
    intro scope old hold
    obtain ⟨mid, hmid, hcase⟩ := h.intents scope old hold
    show ∃ d', (t.intents.insert d.scope d.withKeyIds).find? scope = some d' ∧ _
    rw [OrdMap.find?_insert]
    by_cases hscope : scope = d.scope
    · subst hscope
      rw [if_pos rfl]
      refine ⟨d.withKeyIds, rfl, .inr ?_⟩
      have hlt : mid.generation < d.generation := hnewer mid hmid
      rcases hcase with rfl | hold'
      · exact hlt
      · exact lt_trans hold' hlt
    · rw [if_neg hscope]
      exact ⟨mid, hmid, hcase⟩
  | observationCommit d hok hepoch hcause hnewest => exact h.frame rfl rfl rfl
  | attemptIssued p d now hcause hd hact hfree hnone => exact h.frame rfl rfl rfl
  | attemptTransition a a' hm hc => exact h.frame rfl rfl rfl
  | outcomeCommit o hok hverified => exact h.frame rfl rfl rfl
  | fencePut f now hid hscope hcause => exact h.frame rfl rfl rfl
  | fenceClear id hid hcause => exact h.frame rfl rfl rfl
  | epochAdvance hcause hnewer => exact h.frame rfl rfl rfl

end Order

/-! ## Calls that publish nothing -/

section Calls

variable {e : Engine} {env : CallEnv}

/-- A refused intent, and one that is there already, changes no table. -/
theorem commitIntent_unchanged (document : IntentDocument)
    (h : (e.commitIntent env document).1.code ≠ .ok ∨
      ∃ out, (e.commitIntent env document).2.1 = some out ∧ out.duplicate = true) :
    (e.commitIntent env document).2.2.store.state.tables = e.store.state.tables := by
  unfold Engine.commitIntent at h ⊢
  cases hgate : e.admitIntent document with
  | error answer => rfl
  | ok candidate =>
    simp only [hgate] at h ⊢
    by_cases hs : ((e.under env).store.commitIntent candidate).1.code ≠ .ok
    · simp only [if_pos hs]
      obtain ⟨q, hq⟩ := commit_failed hs
      rw [show ((e.withStore ((e.under env).store.commitIntent candidate).2).store.state) = _ from hq]
      rfl
    · simp only [if_neg hs] at h
      rcases h with hcode | ⟨out, hout, hdup⟩
      · simp [Status.ok] at hcode
      · simp only [Option.some.injEq] at hout
        rw [← hout] at hdup
        simp at hdup

/-- A refused policy, and one that is there already, changes no table. -/
theorem putPolicy_unchanged (policy : ReconciliationPolicy) (allowSameVersion : Bool)
    (h : (e.putPolicy env policy allowSameVersion).1.code ≠ .ok ∨
      (e.putPolicy env policy allowSameVersion).1.reason = .duplicateIntentIdentical) :
    (e.putPolicy env policy allowSameVersion).2.store.state.tables = e.store.state.tables := by
  unfold Engine.putPolicy at h ⊢
  cases hgate : e.admitPolicy policy allowSameVersion with
  | error status => rfl
  | ok canonical =>
    simp only [hgate] at h ⊢
    have hfailed : ((e.under env).store.putPolicy canonical).1.code ≠ .ok := by
      rcases h with hcode | hreason
      · exact hcode
      · intro hok
        have hstatus : ((e.under env).store.putPolicy canonical).1 = Status.ok := commit_status hok
        rw [hstatus] at hreason
        exact absurd hreason (by decide)
    obtain ⟨q, hq⟩ := commit_failed hfailed
    rw [show ((e.withStore ((e.under env).store.putPolicy canonical).2).store.state) = _ from hq]
    rfl

end Calls

/-- What is published along a run is the same at a later point, or newer. -/
theorem later_newer {limits : RuntimeLimits} {p q : Process} (hp : Run limits Process.Orderly p)
    (hq : Later limits Process.Orderly p q) : Newer p.state q.state := by
  obtain ⟨v, hv, hsound⟩ := run_sound (fun _ _ ha => ha) hp
  obtain ⟨w, hw, -, hn⟩ := later_kept (J := fun _ w => w.Sound limits ∧ Newer p.state w.memory) hv
    ⟨hsound, by rw [hv.tables]; exact (Newer.refl p.state).frame rfl rfl rfl⟩
    (fun _ hj _ hprogress _ => ⟨hprogress.sound hj.1, hprogress.memory hj.1 (fun hst he _ _ => hst.write he) hj.2⟩)
    (fun _ _ ha => ha) hq
  rw [hw.tables] at hn
  exact hn.frame rfl rfl rfl

/-- **`lineage_monotone`**. -/
theorem lineage_monotone {limits : RuntimeLimits} {p q : Process} (hp : Run limits Process.Orderly p)
    (hq : Later limits Process.Orderly p q) :
    (∀ scope d, p.state.intents.find? scope = some d → ∃ d', q.state.intents.find? scope = some d' ∧
      d.generation ≤ d'.generation ∧ (d' ≠ d → d.generation < d'.generation)) ∧
    (p.state.hasPolicy = true → q.state.hasPolicy = true ∧ p.state.policy.version ≤ q.state.policy.version ∧
      (q.state.policy ≠ p.state.policy → p.state.policy.version < q.state.policy.version)) ∧
    (∀ e env document, q = .up e → (e.commitIntent env document).1.code ≠ .ok ∨
        (∃ out, (e.commitIntent env document).2.1 = some out ∧ out.duplicate = true) →
      (e.commitIntent env document).2.2.store.state.tables = e.store.state.tables) ∧
    ∀ e env policy allowSameVersion, q = .up e → (e.putPolicy env policy allowSameVersion).1.code ≠ .ok ∨
        (e.putPolicy env policy allowSameVersion).1.reason = .duplicateIntentIdentical →
      (e.putPolicy env policy allowSameVersion).2.store.state.tables = e.store.state.tables := by
  have hnewer : Newer p.state q.state := later_newer hp hq
  refine ⟨?_, ?_, ?_, ?_⟩
  · intro scope d hd
    obtain ⟨d', hd', hcase⟩ := hnewer.intents scope d hd
    refine ⟨d', hd', ?_, fun hne => hcase.resolve_left hne⟩
    rcases hcase with rfl | hlt
    · exact le_refl _
    · exact le_of_lt hlt
  · intro hhas
    obtain ⟨hhas', hcase⟩ := hnewer.policy hhas
    refine ⟨hhas', ?_, fun hne => hcase.resolve_left hne⟩
    rcases hcase with hsame | hlt
    · rw [hsame]
    · exact le_of_lt hlt
  · intro e env document _
    exact commitIntent_unchanged document
  · intro e env policy allow _
    exact putPolicy_unchanged policy allow

/-- The policy a first boot installs is still there, or superseded, after a restart. -/
theorem lineage_monotone_restart :
    let p := (Process.step (.down {} {}) (.boot {} {} FixedBytes.zero {})).2
    let q := ((p.step .exit).2.step (.boot {} {} FixedBytes.zero {})).2
    p.state.hasPolicy = true ∧ q.state.hasPolicy = true ∧ p.state.policy.version ≤ q.state.policy.version := by
  intro p q
  have hp : Run {} Process.Orderly p := Run.boot .start {} {} FixedBytes.zero {} rfl trivial
  have hq : Later {} Process.Orderly p q := by
    refine .step (.step .refl .exit trivial (by simp)) (.boot {} {} FixedBytes.zero {}) trivial ?_
    intro options opening id env heq
    injection heq with hoptions
    rw [← hoptions]
  have hbooted : p = .up _ := congrArg Prod.snd boot_default
  have hhas : p.state.hasPolicy = true := by
    rw [hbooted]
    rfl
  obtain ⟨-, hpolicy, -, -⟩ := lineage_monotone hp hq
  exact ⟨hhas, (hpolicy hhas).1, (hpolicy hhas).2.1⟩

end FabricReconciliation
