import Mathlib.Logic.Relation
import FabricReconciliation.Allocation
import FabricReconciliation.InFlight

/-!
# Attempts from issue to end (`engine.cpp:15-44`, `engine.cpp:163-211`, `engine.cpp:931-1191`, `store.cpp:384-484`)

Six paths write attempts, each with its own guard; trimming, snapshots and replay rewrite the table, and any
append may fail. As long as identities are not used up, the whole records of the log tell one story of each
attempt. `Catalogue` is what every single record preserves of it, `Chronicle` what the pairs of a last record
and its outcome do.

* **`outcomes_settled`** — an attempt has at most one outcome in the log, and its last record there agrees;
* **`lifecycle`** — what one step does to the attempts it finds;
* **`lifecycle_later`** — what becomes of an attempt in the rest of a run.
-/

namespace FabricReconciliation

open Lib

/-! ## What the log says -/

/-- The outcome of a whole record. -/
def Appending.outcome (x : Appending) : Option ReconciliationOutcome := if x.whole then outcomeOf x else none

/-- The attempt of a whole record. -/
def Appending.attempt (limits : RuntimeLimits) (x : Appending) : Option AttemptRecord :=
  if x.whole then recordOf limits x else none

/-- The outcomes that reached the journal, in order. -/
def outcomesIn (log : List Appending) : List ReconciliationOutcome := log.filterMap Appending.outcome

/-- The records of one attempt that reached the journal, in order. -/
def recordsAbout (limits : RuntimeLimits) (log : List Appending) (id : AttemptId) : List AttemptRecord :=
  (log.filterMap (Appending.attempt limits)).filter fun a => a.id = id

section Log

variable {limits : RuntimeLimits} {log : List Appending} {x : Appending} {e : Event} {a : AttemptRecord}
  {o : ReconciliationOutcome} {id : AttemptId}

theorem outcomesIn_concat (log : List Appending) (x : Appending) :
    outcomesIn (log ++ [x]) = outcomesIn log ++ x.outcome.toList := by
  unfold outcomesIn
  rw [List.filterMap_append]
  cases hx : x.outcome <;> simp [hx]

theorem recordsAbout_concat (limits : RuntimeLimits) (log : List Appending) (x : Appending) (id : AttemptId) :
    recordsAbout limits (log ++ [x]) id =
      recordsAbout limits log id ++ (x.attempt limits).toList.filter fun a => a.id = id := by
  unfold recordsAbout
  rw [List.filterMap_append, List.filter_append]
  cases hx : x.attempt limits <;> simp [hx]

theorem mem_recordsAbout : a ∈ recordsAbout limits log id ↔ (∃ x ∈ log, x.attempt limits = some a) ∧ a.id = id := by
  simp [recordsAbout]

/-- A record about another attempt. -/
theorem recordsAbout_other (h : ∀ a, x.attempt limits = some a → a.id ≠ id) :
    recordsAbout limits (log ++ [x]) id = recordsAbout limits log id := by
  rw [recordsAbout_concat]
  cases hx : x.attempt limits with
  | none => simp
  | some a => simp [h a hx]

theorem outcome_refused (e : Event) : (e.appending false false).outcome = none := by
  simp [Appending.outcome, Event.appending]

theorem attempt_refused (limits : RuntimeLimits) (e : Event) : (e.appending false false).attempt limits = none := by
  simp [Appending.attempt, Event.appending]

theorem outcome_whole (hok : OutcomeOk o) (acknowledged : Bool) :
    ((Event.outcomeCommit o).appending true acknowledged).outcome = some o := by
  unfold Appending.outcome
  rw [outcomeOf_commit hok]
  rfl

theorem outcome_other (h : ∀ o, e ≠ .outcomeCommit o) (acknowledged : Bool) :
    (e.appending true acknowledged).outcome = none := by
  cases hx : (e.appending true acknowledged).outcome with
  | none => rfl
  | some o => exact absurd (outcomeOf_event (by simpa [Appending.outcome, Event.appending] using hx)) (h o)

theorem attempt_event {acknowledged : Bool} (hp : e.payload ≠ []) (h : (e.appending true acknowledged).attempt limits = some a) :
    e = .attemptIssued a ∨ e = .attemptTransition a :=
  recordOf_event hp (by simpa [Appending.attempt, Event.appending] using h)

/-- An attempt's record is in the log as replay reads it. -/
theorem attempt_whole (he : e = .attemptIssued a ∨ e = .attemptTransition a) (hp : e.payload ≠ [])
    (hok : AttemptOk limits a) (acknowledged : Bool) : (e.appending true acknowledged).attempt limits = some a := by
  have hpayload : e.payload = encodeAttempt a := by rcases he with rfl | rfl <;> rfl
  have htype : e.type = .attemptIssued ∨ e.type = .attemptTransition := by rcases he with rfl | rfl <;> simp [Event.type]
  rw [hpayload] at hp
  obtain ⟨-, hfit, himage⟩ := encoded_ne_nil hp
  have hread := (@reads_attempt limits a hfit).exactly
  rw [if_pos hok, ← himage] at hread
  simp only [Appending.attempt, recordOf, Event.appending, hpayload, if_pos htype, if_true]
  exact hread

theorem issuedOf_whole (hp : (Event.attemptIssued a).payload ≠ []) (hok : AttemptOk limits a) (acknowledged : Bool) :
    issuedOf limits ((Event.attemptIssued a).appending true acknowledged) = some a.id := by
  have hrecord := attempt_whole (.inl rfl) hp hok acknowledged
  simp only [Appending.attempt, recordOf, Event.appending, Event.type, true_or, if_true] at hrecord
  simp [issuedOf, attemptOf, Event.appending, Event.type, hrecord]

theorem length_issuedIds_concat (limits : RuntimeLimits) (log : List Appending) (x : Appending) :
    (issuedIds limits log).length ≤ (issuedIds limits (log ++ [x])).length := by
  rw [issuedIds_concat, List.length_append]
  omega

end Log

/-! ## Single records -/

/-- The table against the log: identities are below the counter, the counter is not beyond what was issued,
and the log has the record of every attempt. -/
structure Catalogue (limits : RuntimeLimits) (s : DurableState) (log : List Appending) : Prop where
  counter : s.nextAttempt ≠ 0
  bound : s.nextAttempt.toNat ≤ (issuedIds limits log).length + 1
  table : Below s
  named : ∀ k a, s.attempts.find? k = some a → a.id = k
  recorded : ∀ k a, s.attempts.find? k = some a → a ∈ recordsAbout limits log k

section Records

variable {limits : RuntimeLimits} {live : Incarnation} {cause : Option Operation} {s t : DurableState} {e : Event}
  {log log' : List Appending} {x : Appending} {a a' : AttemptRecord} {acknowledged : Bool}

theorem Catalogue.logged (h : Catalogue limits s log) (x : Appending) : Catalogue limits s (log ++ [x]) := by
  refine ⟨h.counter, ?_, h.table, h.named, ?_⟩
  · have hlength := length_issuedIds_concat limits log x
    have hbound := h.bound
    omega
  · intro k a ha
    rw [recordsAbout_concat]
    exact List.mem_append_left _ (h.recorded k a ha)

theorem Catalogue.congr (h : Catalogue limits s log) (hattempts : t.attempts = s.attempts)
    (hnext : t.nextAttempt = s.nextAttempt) : Catalogue limits t log := by
  refine ⟨hnext ▸ h.counter, hnext ▸ h.bound, ?_, ?_, ?_⟩
  · unfold Below
    rw [hattempts, hnext]
    exact h.table
  · rw [hattempts]
    exact h.named
  · rw [hattempts]
    exact h.recorded

/-- What a record of attempt `a` does to the counter. -/
theorem Catalogue.next (h : Catalogue limits s log) (hfew : FewIssued limits log)
    (hid : a.id.toNat ≤ (issuedIds limits log).length) :
    nextAttemptAfter s.nextAttempt a.id ≠ 0 ∧ s.nextAttempt ≤ nextAttemptAfter s.nextAttempt a.id ∧
      a.id < nextAttemptAfter s.nextAttempt a.id ∧
      (nextAttemptAfter s.nextAttempt a.id).toNat ≤ (issuedIds limits log).length + 1 := by
  unfold FewIssued at hfew
  obtain ⟨hne, hle, hlt, hmax⟩ := @nextAttemptAfter_spec s.nextAttempt a.id h.counter (by omega)
  have hbound := h.bound
  exact ⟨hne, hle, hlt, by omega⟩

/-- A record that the log has, applied to the table. -/
theorem Catalogue.applyAttempt (h : Catalogue limits s log) (hfew : FewIssued limits log)
    (hid : a.id.toNat ≤ (issuedIds limits log).length) (hrecord : a ∈ recordsAbout limits log a.id) :
    Catalogue limits (applyAttempt limits a s) log := by
  obtain ⟨hne, hle, hlt, hbound⟩ := h.next hfew hid
  refine ⟨hne, hbound, ?_, ?_, ?_⟩
  · intro k b hb
    rcases find?_applyAttempt hb with ⟨rfl, rfl⟩ | ⟨-, hold⟩
    · exact hlt
    · exact UInt64.lt_of_lt_of_le (h.table k b hold) hle
  · intro k b hb
    rcases find?_applyAttempt hb with ⟨rfl, rfl⟩ | ⟨-, hold⟩
    · rfl
    · exact h.named k b hold
  · intro k b hb
    rcases find?_applyAttempt hb with ⟨rfl, rfl⟩ | ⟨-, hold⟩
    · exact hrecord
    · exact h.recorded k b hold

theorem Catalogue.id_le (h : Catalogue limits s log) (ha : s.attempts.find? a.id = some a) :
    a.id.toNat ≤ (issuedIds limits log).length := by
  have hbelow := UInt64.lt_iff_toNat_lt.mp (h.table a.id a ha)
  have hbound := h.bound
  omega

theorem newAttempt_named {next : AttemptId} (hnext : next ≠ 0) (live : Incarnation) (now : UnixMillis) (d : Decision) :
    (Engine.newAttempt live now next d).id = next := if_neg hnext

/-- What a record does to the table of attempts: nothing, a new attempt, or a move of one. -/
inductive Write.Effect (limits : RuntimeLimits) (live : Incarnation) (cause : Option Operation) (s : DurableState) :
    Event → Prop
  | none {e : Event} (hattempts : (applyEvent limits s e).attempts = s.attempts)
      (hnext : (applyEvent limits s e).nextAttempt = s.nextAttempt)
      (hother : ∀ a, e ≠ .attemptIssued a ∧ e ≠ .attemptTransition a) : Write.Effect limits live cause s e
  | issued (d : Decision) (now : UnixMillis) :
      Write.Effect limits live cause s (.attemptIssued (Engine.newAttempt live now s.nextAttempt d))
  | moved (a a' : AttemptRecord) (hm : Moves limits s a a') (hc : MoveCause live cause a a'.state) :
      Write.Effect limits live cause s (.attemptTransition a')

theorem Write.effect (he : Write limits live cause s e) : Write.Effect limits live cause s e := by
  cases he with
  | attemptIssued p d now hcause hd hact hfree hnone => exact .issued d now
  | attemptTransition a a' hm hc => exact .moved a a' hm hc
  | _ => exact .none rfl rfl (by simp)

/-- Records never turn the counter back. -/
theorem Catalogue.counts (h : Catalogue limits s log) (he : Write.Effect limits live cause s e)
    (ht : Catalogue limits (applyEvent limits s e) log') : s.nextAttempt ≤ (applyEvent limits s e).nextAttempt := by
  cases he with
  | none hattempts hnext hother => rw [hnext]
  | issued d now =>
    have hid := newAttempt_named h.counter live now d
    have hbelow := ht.table _ _ (@applyAttempt_stores limits s (Engine.newAttempt live now s.nextAttempt d) rfl)
    rw [hid] at hbelow
    exact UInt64.le_of_lt hbelow
  | moved a a' hm hc =>
    have hbelow : a'.id < s.nextAttempt := by
      rw [hm.same]
      exact h.table a.id a hm.stored
    have hsame : nextAttemptAfter s.nextAttempt a'.id = s.nextAttempt :=
      @reach_below [a'.id] s.nextAttempt h.counter (by simpa using hbelow)
    show s.nextAttempt ≤ nextAttemptAfter s.nextAttempt a'.id
    rw [hsame]

/-- Every record of an engine, with its entry in the log. -/
theorem Catalogue.write (h : Catalogue limits s log) (he : Write.Effect limits live cause s e) (hp : e.payload ≠ [])
    (hfew : FewIssued limits (log ++ [e.appending true acknowledged])) (hok : e.Ok limits) :
    Catalogue limits (applyEvent limits s e) (log ++ [e.appending true acknowledged]) := by
  have hlogged := h.logged (e.appending true acknowledged)
  have hrecord : ∀ a, e = .attemptIssued a ∨ e = .attemptTransition a → AttemptOk limits a →
      a ∈ recordsAbout limits (log ++ [e.appending true acknowledged]) a.id := by
    intro a ha haok
    exact mem_recordsAbout.mpr ⟨⟨_, by simp, attempt_whole ha hp haok acknowledged⟩, rfl⟩
  cases he with
  | none hattempts hnext hother => exact hlogged.congr hattempts hnext
  | issued d now =>
    refine hlogged.applyAttempt hfew ?_ (hrecord _ (.inl rfl) hok)
    rw [issuedIds_concat, issuedOf_whole hp hok, newAttempt_named h.counter]
    simpa using h.bound
  | moved a a' hm hc =>
    refine hlogged.applyAttempt hfew ?_ (hrecord _ (.inr rfl) hok)
    rw [show a'.id = a.id by rw [hm.same]]
    exact hlogged.id_le hm.stored

end Records

/-! ## Outcomes -/

/-- Of the attempts that have an outcome in the log, none is in flight, none will be issued, and the last
record of each is the one that the outcome is about. -/
structure Chronicle (limits : RuntimeLimits) (s : DurableState) (log : List Appending) : Prop
    extends Catalogue limits s log where
  once : ((outcomesIn log).map fun o => o.attempt).Nodup
  below : ∀ o ∈ outcomesIn log, o.attempt < s.nextAttempt
  ended : ∀ o ∈ outcomesIn log, ∀ a, s.attempts.find? o.attempt = some a → a.state.isTerminal = true
  agrees : ∀ o ∈ outcomesIn log, ∃ a, (recordsAbout limits log o.attempt).getLast? = some a ∧
    a.state.isTerminal = true ∧ OutcomeOf a o

section Outcomes

variable {limits : RuntimeLimits} {live : Incarnation} {cause : Option Operation} {s t : DurableState} {e : Event}
  {log : List Appending} {x : Appending} {a a' : AttemptRecord} {o : ReconciliationOutcome} {acknowledged : Bool}

/-- An entry that is no outcome, and about no attempt that has one. -/
theorem Chronicle.logged (h : Chronicle limits s log) (ht : Catalogue limits t (log ++ [x]))
    (hle : s.nextAttempt ≤ t.nextAttempt) (houtcome : x.outcome = none)
    (hattempt : ∀ a, x.attempt limits = some a → ∀ o ∈ outcomesIn log, o.attempt ≠ a.id)
    (htable : ∀ k a, t.attempts.find? k = some a → s.attempts.find? k = some a ∨ x.attempt limits = some a ∧ k = a.id) :
    Chronicle limits t (log ++ [x]) := by
  have hsame : outcomesIn (log ++ [x]) = outcomesIn log := by simp [outcomesIn_concat, houtcome]
  refine ⟨ht, ?_, ?_, ?_, ?_⟩
  · rw [hsame]
    exact h.once
  · rw [hsame]
    exact fun o ho => UInt64.lt_of_lt_of_le (h.below o ho) hle
  · rw [hsame]
    intro o ho a ha
    rcases htable _ a ha with hold | ⟨hnew, hid⟩
    · exact h.ended o ho a hold
    · exact absurd hid (hattempt a hnew o ho)
  · rw [hsame]
    intro o ho
    rw [recordsAbout_other fun a ha => (hattempt a ha o ho).symm]
    exact h.agrees o ho

/-- Every record but an outcome. -/
theorem Chronicle.write (h : Chronicle limits s log) (he : Write limits live cause s e) (hp : e.payload ≠ [])
    (hother : ∀ o, e ≠ .outcomeCommit o) (hfew : FewIssued limits (log ++ [e.appending true acknowledged])) :
    (e.Ok limits → Chronicle limits (applyEvent limits s e) (log ++ [e.appending true acknowledged])) ∧
      Chronicle limits s (log ++ [e.appending true acknowledged]) := by
  have houtcome := outcome_other hother acknowledged
  have hattempt : ∀ a, (e.appending true acknowledged).attempt limits = some a →
      ∀ o ∈ outcomesIn log, o.attempt ≠ a.id := by
    intro a ha o ho heq
    have hbelow := h.below o ho
    cases he.effect with
    | none hattempts hnext hnot =>
      rcases attempt_event hp ha with rfl | rfl
      · exact (hnot a).1 rfl
      · exact (hnot a).2 rfl
    | issued d now =>
      rcases attempt_event hp ha with hsame | hsame
      · injection hsame with hsame
        rw [heq, ← hsame, newAttempt_named h.counter] at hbelow
        exact absurd hbelow (UInt64.lt_irrefl _)
      · simp at hsame
    | moved b b' hm hc =>
      rcases attempt_event hp ha with hsame | hsame
      · simp at hsame
      · injection hsame with hsame
        have hid : o.attempt = b.id := by rw [heq, ← hsame, hm.same]
        have hended := h.ended o ho b (by rw [hid]; exact hm.stored)
        rw [hm.running] at hended
        simp at hended
  refine ⟨fun hok => ?_, h.logged (h.toCatalogue.logged _) (UInt64.le_refl _) houtcome hattempt fun _ _ ha => .inl ha⟩
  have hcatalogue := h.toCatalogue.write he.effect hp hfew hok
  refine h.logged hcatalogue (h.toCatalogue.counts he.effect hcatalogue) houtcome hattempt ?_
  intro k b hb
  cases he.effect with
  | none hattempts hnext hnot =>
    rw [hattempts] at hb
    exact .inl hb
  | issued d now =>
    rcases find?_applyAttempt hb with ⟨rfl, rfl⟩ | ⟨-, hold⟩
    · exact .inr ⟨attempt_whole (.inl rfl) hp hok acknowledged, rfl⟩
    · exact .inl hold
  | moved a a' hm hc =>
    rcases find?_applyAttempt hb with ⟨rfl, rfl⟩ | ⟨-, hold⟩
    · exact .inr ⟨attempt_whole (.inr rfl) hp hok acknowledged, rfl⟩
    · exact .inl hold

/-- An outcome, behind the last record of its attempt. -/
theorem Chronicle.outcome (h : Chronicle limits s log) (hok : OutcomeOk o) (hof : OutcomeOf a o)
    (hterminal : a.state.isTerminal = true) (hlast : (recordsAbout limits log a.id).getLast? = some a)
    (hbelow : a.id < s.nextAttempt) (hended : ∀ b, s.attempts.find? a.id = some b → b.state.isTerminal = true)
    (hnew : ∀ o ∈ outcomesIn log, o.attempt ≠ a.id) (acknowledged : Bool) :
    Chronicle limits s (log ++ [(Event.outcomeCommit o).appending true acknowledged]) := by
  have hmore : outcomesIn (log ++ [(Event.outcomeCommit o).appending true acknowledged]) = outcomesIn log ++ [o] := by
    rw [outcomesIn_concat, outcome_whole hok acknowledged]
    rfl
  have hrecords : ∀ id, recordsAbout limits (log ++ [(Event.outcomeCommit o).appending true acknowledged]) id =
      recordsAbout limits log id := by
    intro id
    apply recordsAbout_other
    intro b hb
    rcases attempt_event (outcome_payload o) hb with hsame | hsame <;> simp at hsame
  have hcatalogue := h.toCatalogue.logged ((Event.outcomeCommit o).appending true acknowledged)
  refine ⟨hcatalogue, ?_, ?_, ?_, ?_⟩
  · rw [hmore, List.map_append, List.map_singleton, List.nodup_append]
    refine ⟨h.once, List.nodup_singleton _, ?_⟩
    intro id hid id' hid'
    obtain ⟨o', ho', rfl⟩ := List.mem_map.mp hid
    rw [List.mem_singleton.mp hid', hof.attempt]
    exact hnew o' ho'
  · intro o' ho'
    rw [hmore, List.mem_append, List.mem_singleton] at ho'
    rcases ho' with hold | rfl
    · exact h.below o' hold
    · rw [hof.attempt]
      exact hbelow
  · intro o' ho'
    rw [hmore, List.mem_append, List.mem_singleton] at ho'
    rcases ho' with hold | rfl
    · exact h.ended o' hold
    · rw [hof.attempt]
      exact hended
  · intro o' ho'
    rw [hmore, List.mem_append, List.mem_singleton] at ho'
    rw [hrecords]
    rcases ho' with hold | rfl
    · exact h.agrees o' hold
    · rw [hof.attempt]
      exact ⟨a, hlast, hterminal, hof⟩

theorem Chronicle.congr (h : Chronicle limits s log) (hattempts : t.attempts = s.attempts)
    (hnext : t.nextAttempt = s.nextAttempt) : Chronicle limits t log := by
  refine ⟨h.toCatalogue.congr hattempts hnext, h.once, ?_, ?_, h.agrees⟩
  · rw [hnext]
    exact h.below
  · rw [hattempts]
    exact h.ended

/-- **`chronicle_preserved`**. -/
theorem chronicle_preserved (live : Incarnation) (cause : Option Operation) :
    Preserved limits live cause fun s log => FewIssued limits log → Chronicle limits s log where
  refused := by
    intro s log e hs hfew
    have h := hs hfew.of_concat
    refine h.logged (h.toCatalogue.logged _) (UInt64.le_refl _) (outcome_refused e) ?_ fun _ _ ha => .inl ha
    simp [attempt_refused]
  alone := by
    intro s log e hs he hlone hfits acknowledged
    have hother : ∀ o, e ≠ .outcomeCommit o := by
      rintro o rfl
      exact hlone
    exact ⟨fun hok hfew => ((hs hfew.of_concat).write he hfits.encoded hother hfew).1 hok,
      fun hfew => ((hs hfew.of_concat).write he hfits.encoded hother hfew).2⟩
  last := by
    intro s log a a' o hs hsettles hfits acknowledged
    exact ⟨fun hok hfew => ((hs hfew.of_concat).write hsettles.writes.1 hfits.encoded (by simp) hfew).1 hok,
      fun hfew => ((hs hfew.of_concat).write hsettles.writes.1 hfits.encoded (by simp) hfew).2⟩
  outcome := by
    intro s log a a' o hs hsettles hfits hok acknowledged
    have hdone : FewIssued limits (log ++ [(Event.attemptTransition a').appending true true] ++
          [(Event.outcomeCommit o).appending true acknowledged]) →
        Chronicle limits (applyEvent limits s (.attemptTransition a'))
          (log ++ [(Event.attemptTransition a').appending true true] ++
            [(Event.outcomeCommit o).appending true acknowledged]) := by
      intro hfew
      have hbefore := hs hfew.of_concat.of_concat
      have hafter := (hbefore.write hsettles.writes.1 hfits.encoded (by simp) hfew.of_concat).1 hok
      have hid : a'.id = a.id := by rw [hsettles.moves.same]
      have hrecord := attempt_whole (.inr rfl) hfits.encoded hok true
      refine hafter.outcome hsettles.ok hsettles.outcome hsettles.terminal ?_ ?_ ?_ ?_ acknowledged
      · rw [recordsAbout_concat, hrecord]
        simp
      · have hle := hbefore.toCatalogue.counts hsettles.writes.1.effect hafter.toCatalogue
        rw [hid]
        exact UInt64.lt_of_lt_of_le (hbefore.table a.id a hsettles.moves.stored) hle
      · intro b hb
        rcases find?_applyAttempt hb with ⟨-, rfl⟩ | ⟨hne, -⟩
        · exact hsettles.terminal
        · exact absurd rfl hne
      · -- an attempt in flight has no outcome yet
        intro o' ho' heq
        have hnone := @outcome_other (.attemptTransition a') (by simp) true
        rw [outcomesIn_concat, hnone, Option.toList_none, List.append_nil] at ho'
        have hended := hbefore.ended o' ho' a (by rw [heq, hid]; exact hsettles.moves.stored)
        rw [hsettles.moves.running] at hended
        simp at hended
    exact ⟨fun _ hfew => (hdone hfew).congr rfl rfl, hdone⟩

theorem chronicle_initial (limits : RuntimeLimits) : Chronicle limits View.initial.memory [] := by
  refine ⟨⟨by decide, ?_, ?_, ?_, ?_⟩, by simp [outcomesIn], by simp [outcomesIn], by simp [outcomesIn],
    by simp [outcomesIn]⟩
  · show (1 : UInt64).toNat ≤ _
    simp
  all_goals
    intro k a ha
    simp [View.initial, DurableState.tables, DurableState.core] at ha

end Outcomes

/-! ## Steps -/

theorem transitionLegal_irrefl (t : AttemptState) : transitionLegal t t = false := by
  cases t <;> rfl

/-- A restart ends every attempt in flight in the same way, also one that has just moved. -/
theorem transitionLegal_restart {s t u : AttemptState} (h : transitionLegal s t = true)
    (h' : transitionLegal t u = true) (hu : u = .interrupted ∨ u = .abandoned) : transitionLegal s u = true := by
  rcases hu with rfl | rfl <;> cases s <;> cases t <;> simp [transitionLegal] at h h' ⊢

/-- What the records of one step, of an engine of incarnation `live` that executes `cause`, make of attempt `x`. -/
inductive Stage (live : Incarnation) (cause : Option Operation) (x y : AttemptRecord) : Prop
  | same (h : y = x)
  | moved (hlegal : transitionLegal x.state y.state = true)
      (hsame : y = { x with state := y.state, transitions := y.transitions })
      (hlast : y.state.isTerminal = true ∨ cause = none ∨ ∃ r, cause = some (.complete r) ∧ y.state = r.target)
      (hown : (∃ r, cause = some (.complete r)) ∨ (∃ v, cause = some (.verify v)) →
        x.epoch = live.epoch ∧ x.boot = live.boot)

/-- The table of attempts against an earlier one. -/
structure Evolved (limits : RuntimeLimits) (live : Incarnation) (cause : Option Operation) (base s : DurableState)
    (log : List Appending) : Prop extends Catalogue limits s log where
  counted : base.nextAttempt ≤ s.nextAttempt
  kept : ∀ k x y, base.attempts.find? k = some x → s.attempts.find? k = some y → Stage live cause x y
  gone : ∀ k x, base.attempts.find? k = some x → s.attempts.find? k = none →
    ∃ y ∈ recordsAbout limits log k, y.state.isTerminal = true
  fresh : ∀ k y, base.attempts.find? k = none → s.attempts.find? k = some y → base.nextAttempt ≤ k

section Steps

variable {limits : RuntimeLimits} {live live' : Incarnation} {cause cause' : Option Operation}
  {base s : DurableState} {e : Event} {log log' : List Appending} {a a' x y : AttemptRecord} {u v w : View}
  {p q : Process}

/-- One attempt moves once in a step, but for a restart that finds it moved. -/
theorem Stage.move (h : Stage live cause x a) (hm : Moves limits s a a') (hc : MoveCause live cause a a'.state) :
    Stage live cause x a' := by
  cases h with
  | same h =>
    subst h
    cases hc with
    | restart h ht => exact .moved hm.legal hm.same (.inr (.inl h)) (by simp [h])
    | fence f h ht => exact .moved hm.legal hm.same (.inl (by rw [ht]; rfl)) (by simp [h])
    | complete r h ht hid hlive => exact .moved hm.legal hm.same (.inr (.inr ⟨r, h, ht⟩)) fun _ => hlive
    | verify v h happlied ht hlive =>
      refine .moved hm.legal hm.same (.inl ?_) fun _ => hlive
      rw [ht]
      split <;> rfl
  | moved hlegal hsame hlast hown =>
    have hlast := hlast.resolve_left (by simp [hm.running])
    have hsame' : a' = { x with state := a'.state, transitions := a'.transitions } := by
      rw [hm.same, hsame]
    cases hc with
    | restart h ht => exact .moved (transitionLegal_restart hlegal hm.legal ht) hsame' (.inr (.inl h)) (by simp [h])
    | fence f h ht => simp [h] at hlast
    | verify v h happlied ht hlive => simp [h] at hlast
    | complete r h ht hid hlive =>
      -- a second move to the same state is illegal
      rcases hlast with hnone | ⟨r', hr, htarget⟩
      · simp [h] at hnone
      · rw [h] at hr
        injection hr with hr
        injection hr with hr
        have hlegal' := hm.legal
        rw [htarget, ← hr, ← ht, transitionLegal_irrefl] at hlegal'
        simp at hlegal'

theorem mem_recordsAbout_prefix {id : AttemptId} (h : log <+: log') (ha : a ∈ recordsAbout limits log id) :
    a ∈ recordsAbout limits log' id := by
  obtain ⟨⟨x, hx, hax⟩, hid⟩ := mem_recordsAbout.mp ha
  exact mem_recordsAbout.mpr ⟨⟨x, h.subset hx, hax⟩, hid⟩

theorem Evolved.refl (h : Catalogue limits s log) : Evolved limits live cause s s log := by
  refine ⟨h, UInt64.le_refl _, ?_, ?_, ?_⟩
  · intro k x y hx hy
    rw [hx] at hy
    exact .same (Option.some.inj hy).symm
  · intro k x hx hnone
    simp [hx] at hnone
  · intro k y hnone hy
    simp [hy] at hnone

theorem Evolved.congr {t : DurableState} (h : Evolved limits live cause base s log) (ht : Catalogue limits t log')
    (hlog : log <+: log') (hattempts : t.attempts = s.attempts) (hnext : t.nextAttempt = s.nextAttempt) :
    Evolved limits live cause base t log' := by
  refine ⟨ht, hnext ▸ h.counted, ?_, ?_, ?_⟩
  · rw [hattempts]
    exact h.kept
  · rw [hattempts]
    intro k x hx hnone
    obtain ⟨y, hy, hterminal⟩ := h.gone k x hx hnone
    exact ⟨y, mem_recordsAbout_prefix hlog hy, hterminal⟩
  · rw [hattempts]
    exact h.fresh

/-- A record of attempt `a`. Trimming evicts only what has ended, and the log has the record that says so. -/
theorem Evolved.attempt (h : Evolved limits live cause base s log)
    (ht : Catalogue limits (applyAttempt limits a s) log') (hle : s.nextAttempt ≤ (applyAttempt limits a s).nextAttempt)
    (hlog : log <+: log') (hrecord : a ∈ recordsAbout limits log' a.id)
    (hkept : ∀ x, base.attempts.find? a.id = some x → Stage live cause x a)
    (hfresh : base.attempts.find? a.id = none → base.nextAttempt ≤ a.id) :
    Evolved limits live cause base (applyAttempt limits a s) log' := by
  refine ⟨ht, UInt64.le_trans h.counted hle, ?_, ?_, ?_⟩
  · intro k x y hx hy
    rcases find?_applyAttempt hy with ⟨rfl, rfl⟩ | ⟨-, hold⟩
    · exact hkept x hx
    · exact h.kept k x y hx hold
  · intro k x hx hnone
    by_cases hk : k = a.id
    · subst hk
      refine ⟨a, hrecord, ?_⟩
      by_contra hrun
      rw [applyAttempt_stores (by simpa using hrun)] at hnone
      simp at hnone
    · cases hs : s.attempts.find? k with
      | none =>
        obtain ⟨y, hy, hterminal⟩ := h.gone k x hx hs
        exact ⟨y, mem_recordsAbout_prefix hlog hy, hterminal⟩
      | some b =>
        refine ⟨b, mem_recordsAbout_prefix hlog (h.recorded k b hs), ?_⟩
        by_contra hrun
        rw [applyAttempt_keeps (by simpa using hrun) hk hs] at hnone
        simp at hnone
  · intro k y hx hy
    rcases find?_applyAttempt hy with ⟨rfl, -⟩ | ⟨-, hold⟩
    · exact hfresh hx
    · exact h.fresh k y hx hold

/-- A record that took effect, whoever wrote it. -/
theorem Evolved.write (h : Evolved limits live cause base s log) (hbase : Below base)
    (he : Write limits live' cause' s e) (ht : Catalogue limits (applyEvent limits s e) log')
    (hlog : log <+: log')
    (hrecord : ∀ a, e = .attemptIssued a ∨ e = .attemptTransition a → a ∈ recordsAbout limits log' a.id)
    (hstage : ∀ a a' x, Moves limits s a a' → MoveCause live' cause' a a'.state → base.attempts.find? a.id = some x →
      Stage live cause x a') : Evolved limits live cause base (applyEvent limits s e) log' := by
  have hle := h.toCatalogue.counts he.effect ht
  cases he.effect with
  | none hattempts hnext hother => exact h.congr ht hlog hattempts hnext
  | issued d now =>
    have hid := newAttempt_named h.counter live' now d
    refine h.attempt ht hle hlog (hrecord _ (.inl rfl)) ?_ ?_
    · intro x hx
      rw [hid] at hx
      exact absurd (UInt64.lt_of_lt_of_le (hbase _ x hx) h.counted) (UInt64.lt_irrefl _)
    · intro hnone
      rw [hid]
      exact h.counted
  | moved a a' hm hc =>
    have hid : a'.id = a.id := by rw [hm.same]
    refine h.attempt ht hle hlog (hrecord _ (.inr rfl)) ?_ ?_
    · intro x hx
      rw [hid] at hx
      exact hstage a a' x hm hc hx
    · intro hnone
      rw [hid] at hnone ⊢
      exact h.fresh a.id a hnone hm.stored

theorem Acts.evolved (h : Acts limits live cause v w) (hbase : Below base)
    (hv : FewIssued limits v.log → Evolved limits live cause base v.memory v.log) :
    FewIssued limits w.log → Evolved limits live cause base w.memory w.log := by
  refine h.each (J := fun u => FewIssued limits u.log → Evolved limits live cause base u.memory u.log) hv ?_ id
  intro u x e ok hu he ha hfew
  have hskip : ∀ entry, FewIssued limits (u.log ++ [entry]) →
      Evolved limits live cause base u.memory (u.log ++ [entry]) := by
    intro entry hmore
    have hbefore := hu hmore.of_concat
    exact hbefore.congr (hbefore.toCatalogue.logged entry) (List.prefix_append _ _) rfl rfl
  cases ha with
  | omitted => exact hu hfew
  | refused => exact hskip _ hfew
  | poisoned hnone hfits hbad => exact hskip _ hfew
  | severed hnone hfits => exact hskip _ hfew
  | applied hnone hfits hok =>
    have hbefore := hu hfew.of_concat
    have hafter := hbefore.toCatalogue.write he.effect hfits.encoded hfew hok
    refine hbefore.write hbase he hafter (List.prefix_append _ _) ?_ ?_
    · rintro a ha
      have haok : AttemptOk limits a := by rcases ha with rfl | rfl <;> exact hok
      exact mem_recordsAbout.mpr ⟨⟨e.appending true true, by simp, attempt_whole ha hfits.encoded haok true⟩, rfl⟩
    · intro a a' x hm hc hx
      exact (hbefore.kept a.id x a hx hm.stored).move hm hc

/-- The record that memory lacks has its entry in the log. -/
def View.Written (v : View) : Prop := ∀ e, v.pending = some e → e.appending true false ∈ v.log

theorem Acts.written (h : Acts limits live cause v w) (hv : v.Written) : w.Written := by
  refine h.each hv ?_ ?_
  · intro u x e ok hu he ha e' he'
    rcases ha.pending with ⟨hsame, -⟩ | hnone | ⟨hsome, -, hlog⟩
    · rw [hsame] at he'
      exact ha.log.subset (hu e' he')
    · simp [hnone] at he'
    · rw [hsome] at he'
      rw [hlog, ← Option.some.inj he']
      simp
  · intro u hu e he
    simp at he

theorem Progress.written {a : Step} (h : Progress limits p a v w) (hv : v.Written) : w.Written := by
  have hnone : ∀ {u : View}, u.pending = none → u.Written := by
    intro u hu e he
    simp [hu] at he
  cases h with
  | idle => exact hv
  | call e operation env h => exact h.written hv
  | readOnly dir last opening id env hmode h => exact hnone h.pending
  | boot dir last opening id env hmode h hacts => exact hacts.written (hnone h.pending)

/-- Reading the files again may find one attempt moved. -/
theorem Reopened.evolved (h : Reopened limits v u) (hsound : v.Sound limits) (hwritten : v.Written)
    (hkeeps : v.Keeps limits fun s log => FewIssued limits log → Chronicle limits s log) (hfew : FewIssued limits u.log) :
    Evolved limits live none v.memory u.memory u.log := by
  have hlog := h.log
  rw [hlog] at hfew ⊢
  have hbefore := (hkeeps.memory hfew).toCatalogue
  cases h with
  | same hnone => exact .refl hbefore
  | caughtUp e hsome hfits hok =>
    obtain ⟨live', cause', he⟩ := hsound.writable e hsome
    have hafter := (hkeeps.pending e hsome hok hfew).toCatalogue
    have hrefl : Evolved limits live none v.memory v.memory v.log := .refl hbefore
    refine hrefl.write hbefore.table he hafter List.prefix_rfl ?_ ?_
    · intro a ha
      have haok : AttemptOk limits a := by rcases ha with rfl | rfl <;> exact hok
      exact mem_recordsAbout.mpr ⟨⟨_, hwritten e hsome, attempt_whole ha hfits.encoded haok false⟩, rfl⟩
    · intro a a' x hm hc hx
      rw [hm.stored] at hx
      rw [← Option.some.inj hx]
      exact .moved hm.legal hm.same (.inr (.inl rfl)) (by simp)

/-- What a step of a process makes of the attempts it finds. -/
structure Lifecycle (limits : RuntimeLimits) (p : Process) (a : Step) : Prop where
  /-- an attempt stays as it is, or its state moves as `TransitionLegal` allows, and nothing else but its history -/
  kept : ∀ k x y, p.state.attempts.find? k = some x → (p.step a).2.state.attempts.find? k = some y → y = x ∨
    transitionLegal x.state y.state = true ∧ y = { x with state := y.state, transitions := y.transitions }
  /-- `Complete` and `Verify` move attempts of the live incarnation only -/
  own : ∀ e env k x y, p = .up e → ((∃ r, a = .call (.complete r) env) ∨ ∃ v, a = .call (.verify v) env) →
    p.state.attempts.find? k = some x → (p.step a).2.state.attempts.find? k = some y → y ≠ x →
    x.epoch = e.live.epoch ∧ x.boot = e.live.boot
  /-- an attempt leaves the table only after its end is in the journal -/
  gone : ∀ k x, p.state.attempts.find? k = some x → (p.step a).2.state.attempts.find? k = none →
    ∃ y ∈ recordsAbout limits (p.step a).2.log k, y.state.isTerminal = true
  /-- what is new in the table has a new identity -/
  fresh : ∀ k y, p.state.attempts.find? k = none → (p.step a).2.state.attempts.find? k = some y →
    p.state.nextAttempt ≤ k
  counted : p.state.nextAttempt ≤ (p.step a).2.state.nextAttempt

/-- The operation of a step. -/
def Step.operation : Step → Option Operation
  | .call operation _ => some operation
  | _ => none

/-- One step in the view. -/
theorem Progress.evolved {step : Step} (h : Progress limits p step v w) (hsound : v.Sound limits)
    (hwritten : v.Written)
    (hkeeps : v.Keeps limits fun s log => FewIssued limits log → Chronicle limits s log) (hfew : FewIssued limits w.log)
    (hbefore : FewIssued limits v.log) :
    ∃ live, (∀ e operation env, p = .up e → step = .call operation env → live = e.live) ∧
      Evolved limits live step.operation v.memory w.memory w.log := by
  have hcatalogue := (hkeeps.memory hbefore).toCatalogue
  cases h with
  | idle =>
    cases p with
    | up e =>
      refine ⟨e.live, ?_, .refl hcatalogue⟩
      rintro e' operation env ⟨⟩ -
      rfl
    | down dir last => exact ⟨⟨0, FixedBytes.zero⟩, by simp, .refl hcatalogue⟩
  | call e operation env h =>
    refine ⟨e.live, ?_, h.evolved hcatalogue.table (fun _ => .refl hcatalogue) hfew⟩
    rintro e' operation' env' ⟨⟩ -
    rfl
  | readOnly dir last opening id env hmode h =>
    exact ⟨⟨0, FixedBytes.zero⟩, by simp, h.evolved hsound hwritten hkeeps hfew⟩
  | boot dir last opening id env hmode h hacts =>
    exact ⟨_, by simp, hacts.evolved hcatalogue.table (fun hmiddle => h.evolved hsound hwritten hkeeps hmiddle) hfew⟩

theorem FewIssued.earlier (hlog : log <+: log') (h : FewIssued limits log') : FewIssued limits log := by
  obtain ⟨more, rfl⟩ := hlog
  unfold FewIssued issuedIds at h ⊢
  rw [List.filterMap_append, List.length_append] at h
  omega

/-- A reachable process in the view, with all that the log says of it. -/
structure View.Chronicled (limits : RuntimeLimits) (v : View) : Prop where
  sound : v.Sound limits
  written : v.Written
  keeps : v.Keeps limits fun s log => FewIssued limits log → Chronicle limits s log

/-- **`run_chronicled`**. -/
theorem run_chronicled (h : Run limits Process.Orderly p) : ∃ v, Kept limits p v ∧ v.Chronicled limits := by
  refine run_kept (J := fun _ v => v.Chronicled limits) ?_ ?_ (fun _ _ ha => ha) h
  · exact ⟨.of_none rfl, by simp [View.Written, View.initial],
      ⟨fun _ => chronicle_initial limits, by simp [View.initial]⟩⟩
  · intro p a v w hv hj ha hprogress hw
    exact ⟨hprogress.sound hj.sound, hprogress.written hj.written, hprogress.keeps chronicle_preserved hj.keeps⟩

/-- **`outcomes_settled`**: whatever fails, and whoever ends it, an attempt has at most one outcome among all
that ever reached the journal, and that outcome is about the last record of the attempt. -/
theorem outcomes_settled (h : Run limits Process.Orderly p) (hfew : FewIssued limits p.log) :
    ((outcomesIn p.log).map fun o => o.attempt).Nodup ∧
      ∀ o ∈ outcomesIn p.log, ∃ a, (recordsAbout limits p.log o.attempt).getLast? = some a ∧
        a.state.isTerminal = true ∧ OutcomeOf a o := by
  obtain ⟨v, hv, hj⟩ := run_chronicled h
  rw [← hv.log] at hfew ⊢
  exact ⟨(hj.keeps.memory hfew).once, (hj.keeps.memory hfew).agrees⟩

/-- **`lifecycle`**: every step from every reachable process, whichever of its appends fail. -/
theorem lifecycle (h : Run limits Process.Orderly p) {step : Step} (ha : p.Orderly step)
    (hlimits : ∀ options opening id env, step = .boot options opening id env → options.limits = limits)
    (hfew : FewIssued limits (p.step step).2.log) : Lifecycle limits p step := by
  obtain ⟨v, hv, hj⟩ := run_chronicled h
  obtain ⟨w, hw, hprogress⟩ := step_progress hv ha hlimits
  rw [← hw.log] at hfew
  obtain ⟨live, hlive, hevolved⟩ := hprogress.evolved hj.sound hj.written hj.keeps hfew (hfew.earlier hprogress.log)
  have hbefore : v.memory.attempts = p.state.attempts ∧ v.memory.nextAttempt = p.state.nextAttempt := by
    rw [hv.tables]
    exact ⟨rfl, rfl⟩
  have hafter : w.memory.attempts = (p.step step).2.state.attempts ∧
      w.memory.nextAttempt = (p.step step).2.state.nextAttempt := by
    rw [hw.tables]
    exact ⟨rfl, rfl⟩
  have hcounted := hevolved.counted
  have hkept := hevolved.kept
  have hgone := hevolved.gone
  have hfresh := hevolved.fresh
  rw [hbefore.2, hafter.2] at hcounted
  rw [hbefore.1, hafter.1] at hkept hgone
  rw [hbefore.1, hbefore.2, hafter.1] at hfresh
  rw [hw.log] at hgone
  refine ⟨?_, ?_, hgone, hfresh, hcounted⟩
  · intro k x y hx hy
    rcases hkept k x y hx hy with hsame | ⟨hlegal, hsame, -, -⟩
    · exact .inl hsame
    · exact .inr ⟨hlegal, hsame⟩
  · intro e env k x y hp hcall hx hy hne
    rcases hkept k x y hx hy with hsame | ⟨-, -, -, hown⟩
    · exact absurd hsame hne
    · rcases hcall with ⟨r, rfl⟩ | ⟨r, rfl⟩
      · rw [← hlive e _ env hp rfl]
        exact hown (.inl ⟨r, rfl⟩)
      · rw [← hlive e _ env hp rfl]
        exact hown (.inr ⟨r, rfl⟩)

/-- What the rest of a run makes of the attempts of a process. -/
structure Fate (limits : RuntimeLimits) (p q : Process) : Prop where
  kept : ∀ k x y, p.state.attempts.find? k = some x → q.state.attempts.find? k = some y →
    Relation.ReflTransGen (fun s t => transitionLegal s t = true) x.state y.state ∧
      y = { x with state := y.state, transitions := y.transitions } ∧ (x.state.isTerminal = true → y = x)
  gone : ∀ k x, p.state.attempts.find? k = some x → q.state.attempts.find? k = none →
    ∃ y ∈ recordsAbout limits q.log k, y.state.isTerminal = true
  fresh : ∀ k y, p.state.attempts.find? k = none → q.state.attempts.find? k = some y → p.state.nextAttempt ≤ k
  counted : p.state.nextAttempt ≤ q.state.nextAttempt
  log : p.log <+: q.log

theorem terminal_stays {s t : AttemptState} (hs : s.isTerminal = true) : transitionLegal s t = false := by
  cases s <;> simp [AttemptState.isTerminal] at hs <;> rfl

/-- One more step. An attempt that is gone does not come back: its identity is below the counter. -/
theorem Fate.step (h : Fate limits p q) (hbelow : Below p.state) {step : Step} (hq : Lifecycle limits q step)
    (hlog : q.log <+: (q.step step).2.log) : Fate limits p (q.step step).2 := by
  refine ⟨?_, ?_, ?_, UInt64.le_trans h.counted hq.counted, h.log.trans hlog⟩
  · intro k x z hx hz
    cases hy : q.state.attempts.find? k with
    | none =>
      have hlt := UInt64.lt_of_lt_of_le (hbelow k x hx) (UInt64.le_trans h.counted (hq.fresh k z hy hz))
      exact absurd hlt (UInt64.lt_irrefl _)
    | some y =>
      obtain ⟨hpath, hsame, hdone⟩ := h.kept k x y hx hy
      rcases hq.kept k y z hy hz with rfl | ⟨hlegal, hmoved⟩
      · exact ⟨hpath, hsame, hdone⟩
      · refine ⟨hpath.tail hlegal, ?_, ?_⟩
        · rw [hmoved, hsame]
        · intro hterminal
          rw [hdone hterminal, terminal_stays hterminal] at hlegal
          simp at hlegal
  · intro k x hx hnone
    cases hy : q.state.attempts.find? k with
    | none =>
      obtain ⟨y, hmem, hterminal⟩ := h.gone k x hx hy
      exact ⟨y, mem_recordsAbout_prefix hlog hmem, hterminal⟩
    | some y => exact hq.gone k y hy hnone
  · intro k z hx hz
    cases hy : q.state.attempts.find? k with
    | none => exact UInt64.le_trans h.counted (hq.fresh k z hy hz)
    | some y => exact h.fresh k y hx hy

/-- **`lifecycle_later`**: whatever follows, an attempt moves along legal transitions only, an ended one never
changes again, and one that is gone has ended and never comes back. -/
theorem lifecycle_later (h : Run limits Process.Orderly p) (hq : Later limits Process.Orderly p q)
    (hfew : FewIssued limits q.log) : Fate limits p q := by
  induction hq with
  | refl =>
    refine ⟨?_, ?_, ?_, UInt64.le_refl _, List.prefix_rfl⟩
    · intro k x y hx hy
      rw [hx] at hy
      cases hy
      exact ⟨.refl, rfl, fun _ => rfl⟩
    · intro k x hx hnone
      simp [hx] at hnone
    · intro k y hnone hy
      simp [hy] at hnone
  | @step q hq step ha hlimits ih =>
    have hrun := h.later hq
    obtain ⟨v, hv, hj⟩ := run_chronicled hrun
    obtain ⟨w, hw, hprogress⟩ := step_progress hv ha hlimits
    have hlog : q.log <+: (q.step step).2.log := by
      have hmore := hprogress.log
      rw [hv.log, hw.log] at hmore
      exact hmore
    have hfate := ih (hfew.earlier hlog)
    have hbelow : Below p.state := by
      obtain ⟨u, hu, hju⟩ := run_chronicled h
      have hfew' := (hfew.earlier hlog).earlier hfate.log
      rw [← hu.log] at hfew'
      have htable := (hju.keeps.memory hfew').table
      rw [hu.tables] at htable
      exact htable
    exact hfate.step hbelow (lifecycle hrun ha hlimits hfew) hlog

end Steps

/-! ## The sample -/

/-- The attempt of the sample is fenced. -/
def sampleFencing : Step := .call (.putFence (sampleFence ⟨[], valid_empty⟩ 5)) {}

/-- The attempt once it is fenced, and its outcome. -/
def sampleFencedAttempt : AttemptRecord :=
  sampleAttempt.move {} ⟨.dispatched, .fenced, 1, FixedBytes.zero, 1, .attemptFencedByEpochAdvance, .none⟩

def sampleFencedOutcome : ReconciliationOutcome :=
  makeOutcome sampleFencedAttempt .fenced .attemptFencedByEpochAdvance false 1

/-- The records of the sample up to the fence. -/
def fencedEvents : List Event :=
  sampleEvents ++ [.fencePut (sampleFence ⟨[], valid_empty⟩ 5)] ++
    [.attemptTransition sampleFencedAttempt, .outcomeCommit sampleFencedOutcome]

theorem sampleFenced_eq : sampleFlight.after sampleFencing =
    .up (Engine.on {} {} ⟨1, FixedBytes.zero⟩ 2 (told fencedEvents) fencedEvents) := by
  have hstep : (Process.up (sampleEngine 16 5)).step sampleFencing =
      (Status.ok, .up (Engine.on {} {} ⟨1, FixedBytes.zero⟩ 2 (told fencedEvents) fencedEvents)) := by
    apply @putFence_recorded _ _ _ _ _ _ _ (sampleFence ⟨[], valid_empty⟩ 5) rfl rfl rfl (by decide) (by decide)
      (by decide) ((brief_fence (by decide)).fits (sample_ample 16)) [sampleAttempt] rfl
    · intro a ha e he
      rw [List.mem_singleton.mp ha] at he
      simp only [settling, List.mem_cons, List.not_mem_nil, or_false] at he
      rcases he with rfl | rfl
      · exact ⟨⟨by decide, by decide, by decide, rfl, rfl⟩, (brief_transition (by decide)).fits (sample_ample 16)⟩
      · exact ⟨⟨rfl, rfl⟩, (brief_outcome _).fits (sample_ample 16)⟩
    · rfl
    · exact .inr (show (6 : UInt64) < 8192 by decide)
  rw [sampleFlight_eq, Process.after, hstep]

theorem sample_story : issuedIds {} (sampleFlight.after sampleFencing).log = [1] ∧
    (outcomesIn (sampleFlight.after sampleFencing).log).map (fun o => o.attempt) = [1] ∧
    (sampleFlight.state.attempts.find? 1).any (fun a => decide (a.state = .dispatched)) = true ∧
    ((sampleFlight.after sampleFencing).state.attempts.find? 1).any (fun a => decide (a.state = .fenced)) = true := by
  rw [sampleFenced_eq, sampleFlight_eq]
  show issuedIds {} (told fencedEvents) = [1] ∧ (outcomesIn (told fencedEvents)).map (fun o => o.attempt) = [1] ∧ _ ∧ _
  refine ⟨by decide +kernel, by decide +kernel, rfl, rfl⟩

theorem sample_few : FewIssued {} (sampleFlight.after sampleFencing).log := by
  unfold FewIssued
  rw [sample_story.1]
  decide

theorem sampleFenced_run : Run {} Process.Orderly (sampleFlight.after sampleFencing) :=
  sampleFlight_run.after (.inl rfl) (by simp [sampleFencing])

/-- One attempt is in flight, under its key. -/
theorem running_keys_distinct_sample :
    (sampleFlight.state.attempts.find? 1).any (fun a => decide (a.state = .dispatched)) = true ∧
      OnePerKey sampleFlight.state := ⟨sample_story.2.2.1, running_keys_distinct sampleFlight_run⟩

/-- Its one outcome is about its last record. -/
theorem outcomes_settled_fenced : ∃ o ∈ outcomesIn (sampleFlight.after sampleFencing).log, o.attempt = 1 ∧
    ∃ a, (recordsAbout {} (sampleFlight.after sampleFencing).log 1).getLast? = some a ∧ OutcomeOf a o := by
  obtain ⟨o, ho, hid⟩ := List.mem_map.mp (sample_story.2.1 ▸ List.mem_cons_self ..)
  obtain ⟨-, hagrees⟩ := outcomes_settled sampleFenced_run sample_few
  obtain ⟨a, hlast, -, hof⟩ := hagrees o ho
  rw [hid] at hlast
  exact ⟨o, ho, hid, a, hlast, hof⟩

/-- The fence moves it along a legal transition. -/
theorem lifecycle_fenced : Lifecycle {} sampleFlight sampleFencing ∧ ∃ x y, sampleFlight.state.attempts.find? 1 = some x ∧
    (sampleFlight.after sampleFencing).state.attempts.find? 1 = some y ∧ x.state = .dispatched ∧ y.state = .fenced := by
  refine ⟨lifecycle sampleFlight_run (.inl rfl) (by simp [sampleFencing]) ?_, ?_⟩
  · rw [Process.after_eq]
    exact sample_few
  obtain ⟨-, -, hbefore, hafter⟩ := sample_story
  cases hx : sampleFlight.state.attempts.find? 1 with
  | none => simp [hx] at hbefore
  | some x =>
    cases hy : (sampleFlight.after sampleFencing).state.attempts.find? 1 with
    | none => simp [hy] at hafter
    | some y => exact ⟨x, y, rfl, rfl, by simpa [hx] using hbefore, by simpa [hy] using hafter⟩

/-- The rest of the run is the fence. -/
theorem lifecycle_later_fenced : Fate {} sampleFlight (sampleFlight.after sampleFencing) :=
  lifecycle_later sampleFlight_run (Later.refl.after (.inl rfl) (by simp [sampleFencing])) sample_few

end FabricReconciliation
