import Mathlib.Data.List.Infix
import FabricReconciliation.Tables

/-!
# A store without its files

`View` is what remains of a store when its bytes are forgotten: the tables in memory, the log of all
appends, and the one record that may be in the journal although its append failed. `Append` is one
append in this view, `Acts` the appends of one call or boot, `Reopened` what reading the files again does.

* **`Acts.each`** — what every allowed append preserves survives a whole call;
* **`Acts.sound`** — the record beyond memory is one that could be written in it.
-/

namespace FabricReconciliation

open Lib

structure View where
  log : List Appending
  memory : DurableState
  /-- the record in the file that memory does not have -/
  pending : Option Event

/-- The log entry of an append. -/
def Event.appending (e : Event) (whole acknowledged : Bool) : Appending := ⟨e.type, e.payload, whole, acknowledged⟩

/-- The journal's own condition on a record. -/
structure Event.Fits (limits : RuntimeLimits) (e : Event) : Prop where
  encoded : e.payload ≠ []
  bound : e.payload.length ≤ limits.maxJournalPayloadBytes.toNat

/-- One append, and whether the caller was told that it succeeded. -/
inductive Append (limits : RuntimeLimits) (v : View) (e : Event) : Bool → View → Prop
  /-- read-only, or not encodable -/
  | omitted : Append limits v e false v
  /-- no whole record reached the file -/
  | refused : Append limits v e false { v with log := v.log ++ [e.appending false false] }
  | applied (hnone : v.pending = none) (hfits : e.Fits limits) (hok : e.Ok limits) :
      Append limits v e true ⟨v.log ++ [e.appending true true], applyEvent limits v.memory e, none⟩
  /-- durable, but not accepted by replay -/
  | poisoned (hnone : v.pending = none) (hfits : e.Fits limits) (hbad : ¬ e.Ok limits) :
      Append limits v e false ⟨v.log ++ [e.appending true true], v.memory, none⟩
  /-- durable although the write or the flush failed -/
  | severed (hnone : v.pending = none) (hfits : e.Fits limits) :
      Append limits v e false ⟨v.log ++ [e.appending true false], v.memory, some e⟩

/-- The appends of one call or boot. -/
inductive Acts (limits : RuntimeLimits) (live : Incarnation) (cause : Option Operation) (v : View) : View → Prop
  | refl : Acts limits live cause v v
  | append {u w : View} (h : Acts limits live cause v u) (e : Event) (he : Write limits live cause u.memory e)
      (hlone : e.Lone) (ok : Bool) (happend : Append limits u e ok w) : Acts limits live cause v w
  /-- an attempt's last record and its outcome -/
  | settle {u w x : View} (h : Acts limits live cause v u) (a a' : AttemptRecord) (o : ReconciliationOutcome)
      (hs : Settles limits live cause u.memory a a' o) (hfirst : Append limits u (.attemptTransition a') true w)
      (ok : Bool) (hsecond : Append limits w (.outcomeCommit o) ok x) : Acts limits live cause v x
  /-- the last record failed, the outcome was not tried -/
  | cut {u w : View} (h : Acts limits live cause v u) (a a' : AttemptRecord) (o : ReconciliationOutcome)
      (hs : Settles limits live cause u.memory a a' o) (hfirst : Append limits u (.attemptTransition a') false w) :
      Acts limits live cause v w
  /-- the journal file was truncated -/
  | truncated {u : View} (h : Acts limits live cause v u) : Acts limits live cause v { u with pending := none }

/-- Memory is rebuilt from the files. -/
inductive Reopened (limits : RuntimeLimits) (v : View) : View → Prop
  | same (hnone : v.pending = none) : Reopened limits v v
  | caughtUp (e : Event) (hsome : v.pending = some e) (hfits : e.Fits limits) (hok : e.Ok limits) :
      Reopened limits v ⟨v.log, applyEvent limits v.memory e, none⟩

section Invariants

variable {limits : RuntimeLimits} {live : Incarnation} {cause : Option Operation} {u v w : View} {e : Event} {ok : Bool}

/-- Memory changes by the record, or not at all. -/
theorem Append.memory (h : Append limits u e ok w) :
    ok = true ∧ e.Ok limits ∧ e.Fits limits ∧ w.memory = applyEvent limits u.memory e ∨
      ok = false ∧ w.memory = u.memory := by
  cases h with
  | omitted => exact .inr ⟨rfl, rfl⟩
  | refused => exact .inr ⟨rfl, rfl⟩
  | applied hnone hfits hok => exact .inl ⟨rfl, hok, hfits, rfl⟩
  | poisoned hnone hfits hbad => exact .inr ⟨rfl, rfl⟩
  | severed hnone hfits => exact .inr ⟨rfl, rfl⟩

/-- The record beyond memory stays, is gone, or is this one. -/
theorem Append.pending (h : Append limits u e ok w) :
    w.pending = u.pending ∧ w.memory = u.memory ∨ w.pending = none ∨
      w.pending = some e ∧ w.memory = u.memory ∧ w.log = u.log ++ [e.appending true false] := by
  cases h with
  | omitted => exact .inl ⟨rfl, rfl⟩
  | refused => exact .inl ⟨rfl, rfl⟩
  | applied hnone hfits hok => exact .inr (.inl rfl)
  | poisoned hnone hfits hbad => exact .inr (.inl rfl)
  | severed hnone hfits => exact .inr (.inr ⟨rfl, rfl, rfl⟩)

/-- **`Acts.each`**: the pairs forgotten. -/
theorem Acts.each {J : View → Prop} (h : Acts limits live cause v w) (hv : J v)
    (happend : ∀ {u x : View} {e : Event} {ok : Bool}, J u → Write limits live cause u.memory e →
      Append limits u e ok x → J x)
    (htruncated : ∀ {u : View}, J u → J { u with pending := none }) : J w := by
  induction h with
  | refl => exact hv
  | append h e he hlone ok ha ih => exact happend ih he ha
  | settle h a a' o hs hfirst ok hsecond ih =>
    exact happend (happend ih hs.writes.1 hfirst) (hs.writes.2 _) hsecond
  | cut h a a' o hs hfirst ih => exact happend ih hs.writes.1 hfirst
  | truncated h ih => exact htruncated ih

/-- What only looks at memory. -/
theorem Acts.memory {P : DurableState → Prop} (h : Acts limits live cause v w) (hv : P v.memory)
    (hwrite : ∀ {st : DurableState} {e : Event}, P st → Write limits live cause st e → e.Ok limits →
      e.Fits limits → P (applyEvent limits st e)) : P w.memory := by
  refine h.each (J := fun u => P u.memory) hv ?_ id
  intro u x e ok hu he ha
  rcases ha.memory with ⟨-, hok, hfits, hmem⟩ | ⟨-, hmem⟩
  · rw [hmem]
    exact hwrite hu he hok hfits
  · rw [hmem]
    exact hu

/-- Only a boot advances the epoch. -/
theorem Acts.lastEpoch {operation : Operation} (h : Acts limits live (some operation) v w) :
    w.memory.lastEpoch = v.memory.lastEpoch := by
  refine h.memory (P := fun st => st.lastEpoch = v.memory.lastEpoch) rfl ?_
  intro st e hst he _ _
  cases he with
  | epochAdvance hcause => simp at hcause
  | _ => exact hst

/-- Appends are only ever added to the log. -/
theorem Append.log (h : Append limits u e ok w) : u.log <+: w.log := by
  cases h with
  | omitted => exact List.prefix_rfl
  | refused => exact List.prefix_append _ _
  | applied hnone hfits hok => exact List.prefix_append _ _
  | poisoned hnone hfits hbad => exact List.prefix_append _ _
  | severed hnone hfits => exact List.prefix_append _ _

theorem Acts.log (h : Acts limits live cause v w) : v.log <+: w.log :=
  h.each (J := fun u => v.log <+: u.log) List.prefix_rfl (fun hu _ ha => hu.trans ha.log) id

/-- A call that knew of every record it made durable leaves no further one behind. -/
theorem Acts.told (h : Acts limits live cause v w)
    (htold : ∀ x ∈ w.log.drop v.log.length, x.whole = true → x.acknowledged = true) :
    w.pending = v.pending ∧ w.memory = v.memory ∨ w.pending = none := by
  refine (h.each (J := fun u => v.log <+: u.log ∧
    ((∀ x ∈ u.log.drop v.log.length, x.whole = true → x.acknowledged = true) →
      u.pending = v.pending ∧ u.memory = v.memory ∨ u.pending = none))
    ⟨List.prefix_rfl, fun _ => .inl ⟨rfl, rfl⟩⟩ ?_ ?_).2 htold
  · rintro u x e ok ⟨hlog, hu⟩ - ha
    refine ⟨hlog.trans ha.log, fun hx => ?_⟩
    rcases ha.pending with ⟨hsame, hmem⟩ | hnone | ⟨-, -, hsevered⟩
    · have hbefore := hu fun y hy => hx y ((List.IsPrefix.drop ha.log v.log.length).subset hy)
      rw [hsame, hmem]
      exact hbefore
    · exact .inr hnone
    · -- a record in the file that was reported as failed
      have hmem : e.appending true false ∈ x.log.drop v.log.length := by
        rw [hsevered, List.drop_append_of_le_length hlog.length_le]
        simp
      exact absurd (hx _ hmem rfl) (by simp [Event.appending])
  · rintro u ⟨hlog, -⟩
    exact ⟨hlog, fun _ => .inr rfl⟩

theorem Reopened.log (h : Reopened limits v w) : w.log = v.log := by
  cases h <;> rfl

theorem Reopened.pending (h : Reopened limits v w) : w.pending = none := by
  cases h with
  | same hnone => exact hnone
  | caughtUp e hsome hfits hok => rfl

/-- The record beyond memory could be written in it, and the log shows it. -/
structure View.Sound (limits : RuntimeLimits) (v : View) : Prop where
  writable : ∀ e, v.pending = some e → ∃ live cause, Write limits live cause v.memory e
  marked : v.pending ≠ none → ∃ x ∈ v.log, x.whole = true ∧ x.acknowledged = false

theorem View.Sound.of_none (h : v.pending = none) : v.Sound limits :=
  ⟨by simp [h], fun hne => absurd h hne⟩

theorem Append.sound (h : Append limits u e ok w) (hu : u.Sound limits)
    (he : Write limits live cause u.memory e) : w.Sound limits := by
  cases h with
  | omitted => exact hu
  | refused =>
    refine ⟨hu.writable, fun hne => ?_⟩
    obtain ⟨x, hx, hmark⟩ := hu.marked hne
    exact ⟨x, List.mem_append_left _ hx, hmark⟩
  | applied hnone hfits hok => exact .of_none rfl
  | poisoned hnone hfits hbad => exact .of_none rfl
  | severed hnone hfits =>
    refine ⟨?_, fun _ => ⟨e.appending true false, by simp, rfl, rfl⟩⟩
    intro e' he'
    rw [← Option.some.inj he']
    exact ⟨live, cause, he⟩

/-- **`Acts.sound`**. -/
theorem Acts.sound (h : Acts limits live cause v w) (hv : v.Sound limits) : w.Sound limits :=
  h.each hv (fun hu he ha => ha.sound hu he) (fun _ => .of_none rfl)

theorem Reopened.sound (h : Reopened limits v w) : w.Sound limits := .of_none h.pending

end Invariants

end FabricReconciliation
