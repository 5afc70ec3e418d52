import FabricReconciliation.Success

/-!
# A store in good order (`journal.cpp:519-552`, `store.cpp:492-503`)

No append of such a store has failed and none will, so it takes every record that its limits admit and replay
accepts: its calls can be followed forward.

* **`Serving.commit`** — a record is applied, and the store is still in good order;
* **`Serving.settle`** — so are an attempt's last record and its outcome;
* **`commit_serving`** — a store that took one record takes the next one.
-/

namespace FabricReconciliation

open Lib

/-- No append has failed, and none will. -/
structure Serving (limits : RuntimeLimits) (s : DurableStore) : Prop where
  bound : s.limits = limits
  journalBound : s.journal.limits = limits
  writable : s.readOnly = false
  isOpen : s.journal.isOpen = true
  appendable : s.journal.readOnly = false
  healthy : s.journal.writeFailed = false
  faultless : ∀ io ∈ s.faults, io = .ok

section Store

variable {limits : RuntimeLimits} {s : DurableStore} {e : Event}

theorem Serving.faults (h : Serving limits s) {faults : List WriteIo} (hfaults : ∀ io ∈ faults, io = .ok) :
    Serving limits { s with faults := faults } := { h with faultless := hfaults }

theorem faultless_head {faults : List WriteIo} (h : ∀ io ∈ faults, io = .ok) : faults.headD .ok = .ok := by
  cases faults with
  | nil => rfl
  | cons io rest => exact h io (List.mem_cons_self ..)

theorem faultless_tail {faults : List WriteIo} (h : ∀ io ∈ faults, io = .ok) : ∀ io ∈ faults.tail, io = .ok :=
  fun io hio => h io (List.mem_of_mem_tail hio)

/-- **`Serving.commit`**. -/
theorem Serving.commit (h : Serving limits s) (what : String) (hok : e.Ok limits) (hfits : e.Fits limits) :
    (s.commit what e).1 = Status.ok ∧ Serving limits (s.commit what e).2 ∧
      ∃ q, (s.commit what e).2.state = { applyEvent limits s.state e with sequence := q } := by
  unfold DurableStore.commit
  rw [if_neg (by simp [h.writable]), if_neg hfits.encoded]
  rcases append_cases h.isOpen h.appendable e.type e.payload (s.faults.headD .ok) (s.directory.journal.getD []) with
    ⟨status, -, -, hwhy⟩ | ⟨-, hwf, -, written, happ⟩ | ⟨hio, -⟩
  · have hbound := hfits.bound
    rw [h.journalBound, h.healthy] at hwhy
    rcases hwhy with hfailed | hlong
    · simp at hfailed
    · omega
  · have hok' : e.Ok s.limits := by
      rw [h.bound]
      exact hok
    rw [appendAndApply_eq s e.type e.payload happ, if_neg (by decide)]
    simp only [applyPayload_event { s.state with sequence := s.journal.lastSequence + 1 } hok' hfits.encoded]
    refine ⟨trivial, ⟨h.bound, h.journalBound, h.writable, h.isOpen, h.appendable, hwf, faultless_tail h.faultless⟩,
      s.journal.lastSequence + 1, ?_⟩
    rw [applyEvent_sequence, h.bound]
  · exact absurd (faultless_head h.faultless) hio

/-- **`Serving.settle`**. -/
theorem Serving.settle (h : Serving limits s) {a : AttemptRecord} {o : ReconciliationOutcome}
    (hattempt : AttemptOk limits a) (hfits : (Event.attemptTransition a).Fits limits) (houtcome : OutcomeOk o)
    (hfits' : (Event.outcomeCommit o).Fits limits) :
    (s.settle a o).1 = Status.ok ∧ Serving limits (s.settle a o).2 ∧
      ∃ q, (s.settle a o).2.state = { applyOutcome limits o (applyAttempt limits a s.state) with sequence := q } := by
  obtain ⟨hstatus, hserving, q, hq⟩ := h.commit "attempt" (e := .attemptTransition a) hattempt hfits
  obtain ⟨hstatus', hserving', q', hq'⟩ := hserving.commit "outcome" (e := .outcomeCommit o) houtcome hfits'
  have hgood : ¬ (s.transitionAttempt a).1.code ≠ .ok := by
    rw [DurableStore.transitionAttempt, hstatus]
    decide
  unfold DurableStore.settle
  simp only [if_neg hgood]
  refine ⟨hstatus', hserving', q', ?_⟩
  rw [DurableStore.commitOutcome, DurableStore.transitionAttempt, hq', hq, applyEvent_sequence]
  rfl

/-- **`commit_serving`**. -/
theorem commit_serving {what : String} (hdoc : e.isDocument = true → e.Ok s.limits) (hbound : s.limits = limits)
    (hjournal : s.journal.limits = limits) (hfaults : ∀ io ∈ s.faults, io = .ok)
    (h : (s.commit what e).1.code = .ok) : e.Fits limits ∧ Serving limits (s.commit what e).2 := by
  obtain ⟨hwritable, hencoded, hok, -⟩ := commit_ok hdoc h
  have hopen : ¬ (s.journal.readOnly = true ∨ s.journal.isOpen = false) := by
    intro hshut
    obtain ⟨status, hs, happ⟩ := append_refused hshut e.type e.payload (s.faults.headD .ok)
      (s.directory.journal.getD [])
    unfold DurableStore.commit at h
    rw [if_neg (by simp [hwritable]), if_neg hencoded, appendAndApply_eq s e.type e.payload happ, if_pos hs] at h
    exact hs h
  push Not at hopen
  have hisOpen : s.journal.isOpen = true := by simpa using hopen.2
  have happendable : s.journal.readOnly = false := by simpa using hopen.1
  rcases append_cases hisOpen happendable e.type e.payload (s.faults.headD .ok) (s.directory.journal.getD []) with
    ⟨status, hs, happ, -⟩ | ⟨-, hwf, hlength, -⟩ | ⟨hio, -⟩
  · unfold DurableStore.commit at h
    rw [if_neg (by simp [hwritable]), if_neg hencoded, appendAndApply_eq s e.type e.payload happ, if_pos hs] at h
    exact absurd h hs
  · have hserving : Serving limits s := ⟨hbound, hjournal, hwritable, hisOpen, happendable, hwf, hfaults⟩
    rw [hjournal] at hlength
    exact ⟨⟨hencoded, hlength⟩, (hserving.commit what (hbound ▸ hok) ⟨hencoded, hlength⟩).2.1⟩
  · exact absurd (faultless_head hfaults) hio

end Store

end FabricReconciliation
