import FabricReconciliation.Kept

/-!
# Sizes of attempts and outcomes

An attempt moves at most four times, so its record always fits into an encoding, and the record of its
outcome is never the longer one. Whoever could write the end of an attempt can write its outcome.

* **`Slim.write`** — histories stay as short as the lifecycle;
* **`Settles.fits`** — the two records that end an attempt are encodable, and the outcome fits where the
  attempt does.
-/

namespace FabricReconciliation

open Lib

/-! ## Lengths -/

theorem StringId.length_le {tag : IdTag} (id : StringId tag) : id.text.length ≤ kMaxIdentityLength := by
  rcases id.valid with hempty | hvalid
  · simp [hempty]
  · unfold isValidIdentityText at hvalid
    split at hvalid
    · simp at hvalid
    next hnot =>
      simp only [Bool.or_eq_true, decide_eq_true_eq, not_or, not_lt] at hnot
      exact hnot.2

@[simp] theorem length_image_text {tag : IdTag} (id : StringId tag) :
    (putBytes id.text).image.length = 4 + id.text.length := by
  have hle := id.length_le
  simp only [kMaxIdentityLength] at hle
  rw [image_putBytes (by omega), length_prefixed]

@[simp] theorem length_image_boot (b : BootId) : (putBoot b).image.length = 20 := by
  unfold putBoot
  rw [image_putBytes (by rw [b.length_eq]; decide), length_prefixed, b.length_eq]

@[simp] theorem length_image_digest {n : Nat} (d : FixedBytes n) : (putDigest d).image.length = n := by
  simp [putDigest, d.length_eq]

theorem length_image_transition (t : AttemptTransition) : (encodeTransition t).image.length = 42 := by
  simp [encodeTransition, putEnum, putU64, putI64, putReason, putU16]

theorem length_image_history : ∀ l : List AttemptTransition, (putEach encodeTransition l).image.length = 42 * l.length
  | [] => rfl
  | t :: rest => by
    rw [putEach_cons, Script.image_append, List.length_append, length_image_transition, length_image_history rest,
      List.length_cons]
    omega

theorem length_image_authority (v : AuthorityVector) : v.encode.image.length = 184 + (v.policyId.text.length +
    v.definition.text.length + v.intent.text.length + v.observation.text.length +
    v.observationReporter.text.length) := by
  simp only [AuthorityVector.encode, putU64, putI64, Script.image_append, List.length_append, image_putLE,
    length_leBytes, length_image_boot, length_image_text, length_image_digest]
  omega

theorem length_image_attempt (a : AttemptRecord) : (attemptScript a).image.length =
    90 + (a.scope.text.length + a.subject.text.length) + a.authority.encode.image.length +
      42 * a.transitions.length := by
  simp only [attemptScript, putEnum, putU64, putI64, putCount, Script.image_append, List.length_append, image_putLE,
    length_leBytes, length_image_boot, length_image_text, length_image_digest, length_image_history]
  omega

theorem length_image_outcome (o : ReconciliationOutcome) : (outcomeScript o).image.length =
    98 + (o.scope.text.length + o.subject.text.length) := by
  simp only [outcomeScript, putEnum, putU64, putI64, putReason, putU16, putBool, Script.image_append,
    List.length_append, image_putLE, image_putByte, length_leBytes, length_image_boot, length_image_text,
    length_image_digest, List.length_singleton]
  omega

/-- A short history always fits. -/
theorem encodeAttempt_eq {a : AttemptRecord} (h : a.transitions.length ≤ 4) :
    encodeAttempt a = (attemptScript a).image := by
  refine finish_of_fits (total_attemptScript a) ?_
  have hscope := a.scope.length_le
  have hsubject := a.subject.length_le
  have h1 := a.authority.policyId.length_le
  have h2 := a.authority.definition.length_le
  have h3 := a.authority.intent.length_le
  have h4 := a.authority.observation.length_le
  have h5 := a.authority.observationReporter.length_le
  simp only [kMaxIdentityLength] at hscope hsubject h1 h2 h3 h4 h5
  rw [length_image_attempt, length_image_authority]
  simp only [kMaxCanonicalBytes]
  omega

theorem encodeOutcome_eq (o : ReconciliationOutcome) : encodeOutcome o = (outcomeScript o).image := by
  refine finish_of_fits (total_outcomeScript o) ?_
  have hscope := o.scope.length_le
  have hsubject := o.subject.length_le
  simp only [kMaxIdentityLength] at hscope hsubject
  rw [length_image_outcome]
  simp only [kMaxCanonicalBytes]
  omega

/-! ## Histories -/

/-- How many moves lead to a state at most. -/
def AttemptState.rank : AttemptState → Nat
  | .invalid | .issued => 0
  | .dispatched => 1
  | .acknowledged => 2
  | .applied => 3
  | .verified | .failed | .abandoned | .superseded | .fenced | .interrupted => 4

theorem rank_le (s : AttemptState) : s.rank ≤ 4 := by
  cases s <;> decide

theorem transitionLegal_rank {source target : AttemptState} (h : transitionLegal source target = true) :
    source.rank + 1 ≤ target.rank := by
  revert h
  cases source <;> cases target <;> decide

/-- No stored history is empty or longer than the lifecycle. -/
def Slim (s : DurableState) : Prop :=
  ∀ k a, s.attempts.find? k = some a → a.transitions ≠ [] ∧ a.transitions.length ≤ a.state.rank

section Slim

variable {limits : RuntimeLimits} {s : DurableState} {live : Incarnation} {cause : Option Operation}

theorem Slim.applyAttempt (h : Slim s) {a : AttemptRecord} (ha : a.transitions ≠ [] ∧ a.transitions.length ≤ a.state.rank) :
    Slim (applyAttempt limits a s) := by
  intro k b hb
  rcases find?_applyAttempt hb with ⟨-, rfl⟩ | ⟨-, hold⟩
  · exact ha
  · exact h k b hold

theorem Slim.moves (h : Slim s) (htables : TablesOk limits s) {a a' : AttemptRecord} (hm : Moves limits s a a') :
    a'.transitions ≠ [] ∧ a'.transitions.length ≤ a'.state.rank ∧ AttemptOk limits a' := by
  obtain ⟨hne, hlen⟩ := h a.id a hm.stored
  obtain ⟨hok, -⟩ := htables.attempts (a.id, a) (OrdMap.find?_eq_some_iff.mp hm.stored)
  obtain ⟨hne', hbound⟩ := hm.history hne hok.history
  have hgrows := hm.grows
  have hrank := transitionLegal_rank hm.legal
  refine ⟨hne', by omega, ?_⟩
  have hvalid : a'.state ≠ .invalid := by
    intro hinvalid
    rw [hinvalid] at hrank
    simp [AttemptState.rank] at hrank
  have hsame := hm.same
  exact ⟨by rw [hsame]; exact hok.id, hvalid, hbound, by rw [hsame]; exact hok.scope, by rw [hsame]; exact hok.subject⟩

/-- **`Slim.write`**. -/
theorem Slim.write (h : Slim s) (htables : TablesOk limits s) {e : Event} (he : Write limits live cause s e) :
    Slim (applyEvent limits s e) := by
  cases he with
  | attemptIssued p d now hcause hd hact hfree hnone =>
    exact h.applyAttempt ⟨by simp [Engine.newAttempt], by simp [Engine.newAttempt, AttemptState.rank]⟩
  | attemptTransition a a' hm hc =>
    obtain ⟨hne, hlen, -⟩ := h.moves htables hm
    exact h.applyAttempt ⟨hne, hlen⟩
  | _ => exact h

/-- **`Settles.fits`**: both records are encodable and acceptable, and where the first fits so does the second. -/
theorem Settles.fits (h : Slim s) (htables : TablesOk limits s) {a a' : AttemptRecord} {o : ReconciliationOutcome}
    (hs : Settles limits live cause s a a' o) :
    (Event.attemptTransition a').payload ≠ [] ∧ (Event.attemptTransition a').Ok limits ∧
      (Event.outcomeCommit o).payload ≠ [] ∧
      ((Event.attemptTransition a').Fits limits → (Event.outcomeCommit o).Fits limits) := by
  obtain ⟨-, hlen, hok⟩ := h.moves htables hs.moves
  have hrank := rank_le a'.state
  have hattempt : (Event.attemptTransition a').payload = (attemptScript a').image := encodeAttempt_eq (by omega)
  have houtcome : (Event.outcomeCommit o).payload = (outcomeScript o).image := encodeOutcome_eq o
  have hsizes : (outcomeScript o).image.length ≤ (attemptScript a').image.length := by
    rw [length_image_outcome, length_image_attempt, length_image_authority, hs.outcome.scope, hs.outcome.subject]
    omega
  have hpos : (outcomeScript o).image ≠ [] := by
    intro hnil
    have hzero := length_image_outcome o
    rw [hnil, List.length_nil] at hzero
    omega
  refine ⟨?_, hok, by rw [houtcome]; exact hpos, ?_⟩
  · rw [hattempt]
    intro hnil
    have hzero := length_image_attempt a'
    rw [hnil, List.length_nil] at hzero
    omega
  · intro hfits
    have hbound := hfits.bound
    rw [hattempt] at hbound
    exact ⟨by rw [houtcome]; exact hpos, by rw [houtcome]; omega⟩

end Slim

/-! ## In every run -/

/-- Well-formed tables with short histories. -/
structure Sane (limits : RuntimeLimits) (s : DurableState) : Prop where
  tables : TablesOk limits s
  slim : Slim s

theorem Sane.write {limits : RuntimeLimits} {s : DurableState} {live : Incarnation} {cause : Option Operation}
    {e : Event} (h : Sane limits s) (he : Write limits live cause s e) (hok : e.Ok limits) :
    Sane limits (applyEvent limits s e) := ⟨h.tables.applyEvent hok, h.slim.write h.tables he⟩

/-- What every reachable view satisfies. -/
structure View.Good (limits : RuntimeLimits) (v : View) : Prop where
  sound : v.Sound limits
  sane : Sane limits v.memory

section Runs

variable {limits : RuntimeLimits} {p : Process} {v w : View}

theorem View.Good.acts {live : Incarnation} {cause : Option Operation} (h : v.Good limits)
    (hacts : Acts limits live cause v w) : w.Good limits :=
  ⟨hacts.sound h.sound, hacts.memory h.sane fun hst he hok _ => hst.write he hok⟩

theorem View.Good.progress {a : Step} (h : v.Good limits) (hprogress : Progress limits p a v w) : w.Good limits :=
  ⟨hprogress.sound h.sound, hprogress.memory h.sound (fun hst he hok _ => hst.write he hok) h.sane⟩

theorem good_initial (limits : RuntimeLimits) : View.initial.Good limits :=
  ⟨.of_none rfl, (tablesOk_initial limits FixedBytes.zero).tables, by
    intro k a ha
    simp [View.initial, DurableState.tables, DurableState.core] at ha⟩

theorem run_good {allowed : Process → Step → Prop} (horderly : ∀ p a, allowed p a → p.Orderly a)
    (h : Run limits allowed p) : ∃ v, Kept limits p v ∧ v.Good limits :=
  run_kept (J := fun _ v => v.Good limits) (good_initial limits) (fun _ hj _ hprogress _ => hj.progress hprogress)
    horderly h

end Runs

end FabricReconciliation
