import FabricReconciliation.Lineage

/-!
# Durable state and journal records (`store.hpp:39-62`, `store.cpp:342-490`)

`applyPayload` replays one record: decode, validate, update the tables, trim. The engine writes
nine kinds of records; `Event` is that typed vocabulary, with the encoder of each kind.

* **`applyPayload_event`** — replaying the bytes of a well-formed event is `applyEvent`;
* **`applyPayload_refused`** — an ill-formed attempt, outcome, fence or fence removal is refused;
* **`TablesOk`** — what every table entry satisfies in any state replay can reach
  (`applyPayload_tablesOk`).
-/

namespace FabricReconciliation

open Lib

/-- `RecordType` (`journal.hpp:32`). -/
inductive RecordType
  | invalid | storeHeader | policyPut | intentCommit | observationCommit | attemptIssued
  | attemptTransition | outcomeCommit | fencePut | fenceClear | epochAdvance | lineageTrim
deriving DecidableEq

instance : Enumeration RecordType where
  table := [.invalid, .storeHeader, .policyPut, .intentCommit, .observationCommit, .attemptIssued,
    .attemptTransition, .outcomeCommit, .fencePut, .fenceClear, .epochAdvance, .lineageTrim]
  complete a := by cases a <;> decide

/-- `DurableState` (`store.hpp:39`). -/
structure DurableState where
  store : StoreId := FixedBytes.zero
  lastEpoch : CoordinatorEpoch := 0
  sequence : RecordSequence := 0
  nextAttempt : AttemptId := 1
  hasPolicy : Bool := false
  policy : ReconciliationPolicy := {}
  intents : OrdMap ScopeId IntentDocument := OrdMap.empty
  intentGenerations : OrdMap ScopeId (List IntentGeneration) := OrdMap.empty
  observations : OrdMap ScopeId (List ObservationDocument) := OrdMap.empty
  attempts : OrdMap UInt64 AttemptRecord := OrdMap.empty
  outcomes : List ReconciliationOutcome := []
  fences : OrdMap FenceId FenceEntry := OrdMap.empty
  compactions : UInt64 := 0
deriving DecidableEq

/-! ## Retention -/

/-- Drops from the front until at most `n` elements are left. -/
def keepLast {α : Type} (n : Nat) (l : List α) : List α := l.drop (l.length - n)

theorem length_keepLast {α : Type} (n : Nat) (l : List α) : (keepLast n l).length ≤ n := by
  simp only [keepLast, List.length_drop]
  omega

theorem mem_of_mem_keepLast {α : Type} {n : Nat} {l : List α} {a : α} (h : a ∈ keepLast n l) : a ∈ l :=
  List.mem_of_mem_drop h

theorem keepLast_of_le {α : Type} {n : Nat} {l : List α} (h : l.length ≤ n) : keepLast n l = l := by
  simp [keepLast, Nat.sub_eq_zero_of_le h]

/-- `TrimAttempts` (`store.cpp:469`): evicts the oldest terminal attempt while the table is over
its bound, and stops when none is terminal. The first argument bounds the rounds. -/
def trimAttempts : Nat → Nat → OrdMap UInt64 AttemptRecord → OrdMap UInt64 AttemptRecord
  | 0, _, attempts => attempts
  | rounds + 1, bound, attempts =>
    if bound < attempts.size then
      match attempts.entries.find? fun e => e.2.state.isTerminal with
      | none => attempts
      | some victim => trimAttempts rounds bound (attempts.erase victim.1)
    else attempts

/-! ## Table updates -/

def applyPolicy (policy : ReconciliationPolicy) (s : DurableState) : DurableState :=
  { s with policy := policy, hasPolicy := true }

def applyIntent (limits : RuntimeLimits) (d : IntentDocument) (s : DurableState) : DurableState :=
  { s with
    intentGenerations := s.intentGenerations.insert d.scope
      (keepLast limits.maxRetainedObservationsPerScope.toNat
        ((s.intentGenerations.find? d.scope).getD [] ++ [d.generation]))
    intents := s.intents.insert d.scope d }

def applyObservation (limits : RuntimeLimits) (d : ObservationDocument) (s : DurableState) : DurableState :=
  { s with
    observations := s.observations.insert d.scope
      (keepLast limits.maxRetainedObservationsPerScope.toNat
        ((s.observations.find? d.scope).getD [] ++ [d])) }

/-- The identity counter after a record of attempt `id`: above it, and never zero. -/
def nextAttemptAfter (next id : AttemptId) : AttemptId :=
  let advanced := if next ≤ id then id + 1 else next
  if advanced = 0 then 1 else advanced

def applyAttempt (limits : RuntimeLimits) (a : AttemptRecord) (s : DurableState) : DurableState :=
  let attempts := s.attempts.insert a.id a
  { s with
    nextAttempt := nextAttemptAfter s.nextAttempt a.id
    attempts := trimAttempts attempts.size limits.maxRetainedAttempts.toNat attempts }

def applyOutcome (limits : RuntimeLimits) (o : ReconciliationOutcome) (s : DurableState) : DurableState :=
  { s with outcomes := keepLast limits.maxRetainedOutcomes.toNat (s.outcomes ++ [o]) }

def applyFence (f : FenceEntry) (s : DurableState) : DurableState :=
  { s with fences := s.fences.insert f.id f }

def applyFenceClear (id : FenceId) (s : DurableState) : DurableState :=
  { s with fences := s.fences.erase id }

def applyEpoch (epoch : CoordinatorEpoch) (s : DurableState) : DurableState :=
  { s with lastEpoch := if s.lastEpoch < epoch then epoch else s.lastEpoch }

/-- A record that fails validation. -/
def invalidRecord (detail : String) : Status := ⟨.integrityFailure, .journalEnumInvalid, detail⟩

/-- Applies a decoded record, or reports that it does not validate. -/
def applyDecoded {α : Type} (decoded : Option α) (detail : String) (apply : α → DurableState) :
    Except Status DurableState :=
  match decoded with
  | none => .error (invalidRecord detail)
  | some a => .ok (apply a)

/-- `ApplyPayload` (`store.cpp:342`). -/
def applyPayload (limits : RuntimeLimits) (type : RecordType) (payload : Bytes) (s : DurableState) :
    Except Status DurableState :=
  match type with
  | .storeHeader => .ok s
  | .policyPut =>
    applyDecoded (decodePolicyExact payload limits) "policy record failed validation"
      (applyPolicy · s)
  | .intentCommit =>
    applyDecoded (decodeIntentExact payload limits) "intent record failed validation"
      (applyIntent limits · s)
  | .observationCommit =>
    applyDecoded (decodeObservationExact payload limits) "observation record failed validation"
      (applyObservation limits · s)
  | .attemptIssued | .attemptTransition =>
    applyDecoded ((decodeAttempt limits).exactly payload) "attempt record failed validation"
      (applyAttempt limits · s)
  | .outcomeCommit =>
    applyDecoded (decodeOutcome.exactly payload) "outcome record failed validation"
      (applyOutcome limits · s)
  | .fencePut =>
    applyDecoded (decodeFence.exactly payload) "fence record failed validation" (applyFence · s)
  | .fenceClear =>
    match Read.bytes.exactly payload with
    | none => .error (invalidRecord "fence clear record failed validation")
    | some idText =>
      applyDecoded (StringId.tryParse idText) "fence clear record carries an invalid identity"
        (applyFenceClear · s)
  | .epochAdvance =>
    applyDecoded (Read.u64.exactly payload) "epoch record failed validation" (applyEpoch · s)
  | .lineageTrim => .ok s
  | .invalid => .error ⟨.integrityFailure, .journalRecordTypeUnknown, "unknown record type"⟩

/-! ## The typed records -/

/-- The records the store's mutators write. -/
inductive Event
  | policyPut (policy : ReconciliationPolicy)
  | intentCommit (document : IntentDocument)
  | observationCommit (document : ObservationDocument)
  | attemptIssued (attempt : AttemptRecord)
  | attemptTransition (attempt : AttemptRecord)
  | outcomeCommit (outcome : ReconciliationOutcome)
  | fencePut (fence : FenceEntry)
  | fenceClear (fence : FenceId)
  | epochAdvance (epoch : CoordinatorEpoch)
deriving DecidableEq

namespace Event

def type : Event → RecordType
  | policyPut _ => .policyPut
  | intentCommit _ => .intentCommit
  | observationCommit _ => .observationCommit
  | attemptIssued _ => .attemptIssued
  | attemptTransition _ => .attemptTransition
  | outcomeCommit _ => .outcomeCommit
  | fencePut _ => .fencePut
  | fenceClear _ => .fenceClear
  | epochAdvance _ => .epochAdvance

/-- The writes of the record's encoder. -/
def script : Event → Script
  | policyPut policy => policyScript policy
  | intentCommit document => intentScript document
  | observationCommit document => observationScript document
  | attemptIssued attempt => attemptScript attempt
  | attemptTransition attempt => attemptScript attempt
  | outcomeCommit outcome => outcomeScript outcome
  | fencePut fence => fenceScript fence
  | fenceClear fence => putBytes fence.text
  | epochAdvance epoch => putU64 epoch

/-- The payload handed to the journal; empty when the encoder failed. -/
def payload (e : Event) : Bytes := encoded e.script

/-- What the record's decoder validates. -/
def Ok (limits : RuntimeLimits) : Event → Prop
  | policyPut policy => PolicyOk limits policy
  | intentCommit document => IntentOk limits document
  | observationCommit document => ObservationOk limits document
  | attemptIssued attempt => AttemptOk limits attempt
  | attemptTransition attempt => AttemptOk limits attempt
  | outcomeCommit outcome => OutcomeOk outcome
  | fencePut fence => FenceOk fence
  | fenceClear fence => fence.empty = false
  | epochAdvance _ => True

end Event

/-- The effect of a typed record on the tables. -/
def applyEvent (limits : RuntimeLimits) (s : DurableState) : Event → DurableState
  | .policyPut policy => applyPolicy policy s
  | .intentCommit document => applyIntent limits document.withKeyIds s
  | .observationCommit document => applyObservation limits document.withKeyIds s
  | .attemptIssued attempt => applyAttempt limits attempt s
  | .attemptTransition attempt => applyAttempt limits attempt s
  | .outcomeCommit outcome => applyOutcome limits outcome s
  | .fencePut fence => applyFence fence s
  | .fenceClear fence => applyFenceClear fence s
  | .epochAdvance epoch => applyEpoch epoch s

/-- **`applyPayload_event`**: replaying a well-formed event's bytes is its effect. -/
theorem applyPayload_event {limits : RuntimeLimits} {e : Event} (s : DurableState)
    (hok : e.Ok limits) (hp : e.payload ≠ []) :
    applyPayload limits e.type e.payload s = .ok (applyEvent limits s e) := by
  obtain ⟨ht, hfit, himg⟩ := encoded_ne_nil hp
  unfold Event.payload
  rw [himg]
  cases e with
  | policyPut policy =>
    have h : decodePolicyExact (policyScript policy).image limits = some policy :=
      (reads_policy hok hfit).exactly
    simp only [applyPayload, Event.type, Event.script, h, applyDecoded, applyEvent]
  | intentCommit d =>
    have h : decodeIntentExact (intentScript d).image limits = some d.withKeyIds :=
      (reads_intent hok hfit).exactly
    simp only [applyPayload, Event.type, Event.script, h, applyDecoded, applyEvent]
  | observationCommit d =>
    have h : decodeObservationExact (observationScript d).image limits = some d.withKeyIds :=
      (reads_observation hok hfit).exactly
    simp only [applyPayload, Event.type, Event.script, h, applyDecoded, applyEvent]
  | attemptIssued a =>
    have h := (@reads_attempt limits a hfit).exactly
    simp only [applyPayload, Event.type, Event.script, h, applyDecoded, applyEvent,
      if_pos (show AttemptOk limits a from hok)]
  | attemptTransition a =>
    have h := (@reads_attempt limits a hfit).exactly
    simp only [applyPayload, Event.type, Event.script, h, applyDecoded, applyEvent,
      if_pos (show AttemptOk limits a from hok)]
  | outcomeCommit o =>
    have h := (reads_outcome o).exactly
    simp only [applyPayload, Event.type, Event.script, h, applyDecoded, applyEvent,
      if_pos (show OutcomeOk o from hok)]
  | fencePut f =>
    have h := (reads_fence ht hfit).exactly
    simp only [applyPayload, Event.type, Event.script, h, applyDecoded, applyEvent,
      if_pos (show FenceOk f from hok)]
  | fenceClear id =>
    have h := (reads_text id).exactly
    simp only [applyPayload, Event.type, Event.script, h, applyDecoded, applyEvent,
      StringId.tryParse_text (show id.empty = false from hok)]
  | epochAdvance epoch =>
    have h := (reads_u64 epoch).exactly
    simp only [applyPayload, Event.type, Event.script, h, applyDecoded, applyEvent]

namespace Event

/-- Policies and documents, which the engine validates before it encodes them. -/
def isDocument : Event → Bool
  | policyPut _ | intentCommit _ | observationCommit _ => true
  | _ => false

end Event

/-- **`applyPayload_refused`**: ill-formed lifecycle records are refused by replay. -/
theorem applyPayload_refused {limits : RuntimeLimits} {e : Event} (s : DurableState)
    (hdoc : e.isDocument = false) (hbad : ¬ e.Ok limits) (hp : e.payload ≠ []) :
    ∃ status, applyPayload limits e.type e.payload s = .error status := by
  obtain ⟨ht, hfit, himg⟩ := encoded_ne_nil hp
  unfold Event.payload
  rw [himg]
  cases e with
  | policyPut _ => simp [Event.isDocument] at hdoc
  | intentCommit _ => simp [Event.isDocument] at hdoc
  | observationCommit _ => simp [Event.isDocument] at hdoc
  | attemptIssued a =>
    have h := (@reads_attempt limits a hfit).exactly
    rw [if_neg (show ¬ AttemptOk limits a from hbad)] at h
    exact ⟨_, by simp only [applyPayload, Event.type, Event.script, h, applyDecoded]; rfl⟩
  | attemptTransition a =>
    have h := (@reads_attempt limits a hfit).exactly
    rw [if_neg (show ¬ AttemptOk limits a from hbad)] at h
    exact ⟨_, by simp only [applyPayload, Event.type, Event.script, h, applyDecoded]; rfl⟩
  | outcomeCommit o =>
    have h := (reads_outcome o).exactly
    rw [if_neg (show ¬ OutcomeOk o from hbad)] at h
    exact ⟨_, by simp only [applyPayload, Event.type, Event.script, h, applyDecoded]; rfl⟩
  | fencePut f =>
    have h := (reads_fence ht hfit).exactly
    rw [if_neg (show ¬ FenceOk f from hbad)] at h
    exact ⟨_, by simp only [applyPayload, Event.type, Event.script, h, applyDecoded]; rfl⟩
  | fenceClear id =>
    have h := (reads_text id).exactly
    have hnone := @tryParse_of_empty _ id (by simpa [Event.Ok] using hbad)
    exact ⟨_, by simp only [applyPayload, Event.type, Event.script, h, hnone, applyDecoded]; rfl⟩
  | epochAdvance _ => exact absurd trivial hbad

/-! ## Table invariant -/

/-- What every table entry satisfies in a state built by replay. -/
structure TablesOk (limits : RuntimeLimits) (s : DurableState) : Prop where
  nextAttempt : s.nextAttempt ≠ 0
  policy : s.hasPolicy = true → PolicyOk limits s.policy
  noPolicy : s.hasPolicy = false → s.policy = {}
  intents : ∀ e ∈ s.intents.entries, IntentOk limits e.2 ∧ e.2.withKeyIds = e.2 ∧ e.2.scope = e.1
  generations : ∀ e ∈ s.intentGenerations.entries,
    e.1.empty = false ∧ e.2.length ≤ limits.maxRetainedObservationsPerScope.toNat
  streams : ∀ e ∈ s.observations.entries,
    e.1.empty = false ∧ e.2.length ≤ limits.maxRetainedObservationsPerScope.toNat
  observations : ∀ e ∈ s.observations.entries, ∀ d ∈ e.2,
    ObservationOk limits d ∧ d.withKeyIds = d ∧ d.scope = e.1
  attempts : ∀ e ∈ s.attempts.entries, AttemptOk limits e.2 ∧ e.2.id = e.1
  outcomes : ∀ o ∈ s.outcomes, OutcomeOk o
  outcomesBound : s.outcomes.length ≤ limits.maxRetainedOutcomes.toNat
  fences : ∀ e ∈ s.fences.entries, FenceOk e.2 ∧ e.2.id = e.1

theorem tablesOk_initial (limits : RuntimeLimits) (store : StoreId) :
    TablesOk limits { store := store } := by
  constructor <;> simp [OrdMap.empty]

theorem mem_trimAttempts {bound : Nat} {e : UInt64 × AttemptRecord} :
    ∀ {rounds : Nat} {m : OrdMap UInt64 AttemptRecord},
      e ∈ (trimAttempts rounds bound m).entries → e ∈ m.entries
  | 0, m, h => h
  | rounds + 1, m, h => by
    unfold trimAttempts at h
    split at h
    · split at h
      · exact h
      · exact (List.mem_filter.mp (mem_trimAttempts h)).1
    · exact h

theorem nextAttemptAfter_ne_zero (next id : AttemptId) : nextAttemptAfter next id ≠ 0 := by
  unfold nextAttemptAfter
  by_cases h : (if next ≤ id then id + 1 else next) = 0
  · simp [h]
  · simp [h]

section Preservation

variable {limits : RuntimeLimits} {s : DurableState}

theorem TablesOk.applyPolicy (h : TablesOk limits s) {policy : ReconciliationPolicy}
    (hp : PolicyOk limits policy) : TablesOk limits (applyPolicy policy s) :=
  { h with policy := fun _ => hp, noPolicy := fun hn => by simp [FabricReconciliation.applyPolicy] at hn }

theorem TablesOk.applyIntent (h : TablesOk limits s) {d : IntentDocument} (hd : IntentOk limits d)
    (hk : d.withKeyIds = d) : TablesOk limits (applyIntent limits d s) :=
  { h with
    intents := fun e he => by
      rcases OrdMap.mem_insertEntry he with rfl | he
      · exact ⟨hd, hk, rfl⟩
      · exact h.intents e he
    generations := fun e he => by
      rcases OrdMap.mem_insertEntry he with rfl | he
      · exact ⟨hd.scope, length_keepLast _ _⟩
      · exact h.generations e he }

theorem TablesOk.applyObservation (h : TablesOk limits s) {d : ObservationDocument}
    (hd : ObservationOk limits d) (hk : d.withKeyIds = d) :
    TablesOk limits (applyObservation limits d s) :=
  { h with
    streams := fun e he => by
      rcases OrdMap.mem_insertEntry he with rfl | he
      · exact ⟨hd.scope, length_keepLast _ _⟩
      · exact h.streams e he
    observations := fun e he x hx => by
      rcases OrdMap.mem_insertEntry he with rfl | he
      · rcases List.mem_append.mp (mem_of_mem_keepLast hx) with hx | hx
        · cases hf : s.observations.find? d.scope with
          | none => simp [hf] at hx
          | some stream =>
            rw [hf] at hx
            exact h.observations (d.scope, stream) (OrdMap.find?_eq_some_iff.mp hf) x hx
        · rw [List.mem_singleton.mp hx]
          exact ⟨hd, hk, rfl⟩
      · exact h.observations e he x hx }

theorem TablesOk.applyAttempt (h : TablesOk limits s) {a : AttemptRecord} (ha : AttemptOk limits a) :
    TablesOk limits (applyAttempt limits a s) :=
  { h with
    nextAttempt := nextAttemptAfter_ne_zero _ _
    attempts := fun e he => by
      rcases OrdMap.mem_insertEntry (mem_trimAttempts he) with rfl | he
      · exact ⟨ha, rfl⟩
      · exact h.attempts e he }

theorem TablesOk.applyOutcome (h : TablesOk limits s) {o : ReconciliationOutcome} (ho : OutcomeOk o) :
    TablesOk limits (applyOutcome limits o s) :=
  { h with
    outcomes := fun x hx => by
      rcases List.mem_append.mp (mem_of_mem_keepLast hx) with hx | hx
      · exact h.outcomes x hx
      · rw [List.mem_singleton.mp hx]
        exact ho
    outcomesBound := length_keepLast _ _ }

theorem TablesOk.applyFence (h : TablesOk limits s) {f : FenceEntry} (hf : FenceOk f) :
    TablesOk limits (applyFence f s) :=
  { h with
    fences := fun e he => by
      rcases OrdMap.mem_insertEntry he with rfl | he
      · exact ⟨hf, rfl⟩
      · exact h.fences e he }

theorem TablesOk.applyFenceClear (h : TablesOk limits s) (id : FenceId) :
    TablesOk limits (applyFenceClear id s) :=
  { h with fences := fun e he => h.fences e (List.mem_filter.mp he).1 }

theorem TablesOk.applyEpoch (h : TablesOk limits s) (epoch : CoordinatorEpoch) :
    TablesOk limits (applyEpoch epoch s) := { h with }

/-- Well-formed events keep the tables well formed. -/
theorem TablesOk.applyEvent (h : TablesOk limits s) {e : Event} (he : e.Ok limits) :
    TablesOk limits (applyEvent limits s e) := by
  cases e with
  | policyPut policy => exact h.applyPolicy he
  | intentCommit d => exact h.applyIntent (IntentOk.withKeyIds he) (by simp [IntentDocument.withKeyIds])
  | observationCommit d =>
    exact h.applyObservation (ObservationOk.withKeyIds he) (by simp [ObservationDocument.withKeyIds])
  | attemptIssued a => exact h.applyAttempt he
  | attemptTransition a => exact h.applyAttempt he
  | outcomeCommit o => exact h.applyOutcome he
  | fencePut f => exact h.applyFence he
  | fenceClear id => exact h.applyFenceClear id
  | epochAdvance epoch => exact h.applyEpoch epoch

theorem applyDecoded_eq_ok {α : Type} {decoded : Option α} {detail : String} {apply : α → DurableState}
    {s' : DurableState} (h : applyDecoded decoded detail apply = .ok s') :
    ∃ a, decoded = some a ∧ apply a = s' := by
  cases decoded with
  | none => simp [applyDecoded] at h
  | some a => exact ⟨a, rfl, by simpa [applyDecoded] using h⟩

/-- **`applyPayload_tablesOk`**: any accepted record, whatever its bytes, keeps the tables well
formed. -/
theorem applyPayload_tablesOk (h : TablesOk limits s) {type : RecordType} {payload : Bytes}
    {s' : DurableState} (hap : applyPayload limits type payload s = .ok s') : TablesOk limits s' := by
  cases type with
  | invalid => simp [applyPayload] at hap
  | storeHeader =>
    simp only [applyPayload, Except.ok.injEq] at hap
    exact hap ▸ h
  | lineageTrim =>
    simp only [applyPayload, Except.ok.injEq] at hap
    exact hap ▸ h
  | policyPut =>
    obtain ⟨p, hp, rfl⟩ := applyDecoded_eq_ok hap
    exact h.applyPolicy (decodePolicy_sound (Reader.exactly_eq_some.mp hp))
  | intentCommit =>
    obtain ⟨d, hd, rfl⟩ := applyDecoded_eq_ok hap
    obtain ⟨hok, hk⟩ := decodeIntent_sound (Reader.exactly_eq_some.mp hd)
    exact h.applyIntent hok hk
  | observationCommit =>
    obtain ⟨d, hd, rfl⟩ := applyDecoded_eq_ok hap
    obtain ⟨hok, hk⟩ := decodeObservation_sound (Reader.exactly_eq_some.mp hd)
    exact h.applyObservation hok hk
  | attemptIssued =>
    obtain ⟨a, ha, rfl⟩ := applyDecoded_eq_ok hap
    exact h.applyAttempt (decodeAttempt_sound (Reader.exactly_eq_some.mp ha))
  | attemptTransition =>
    obtain ⟨a, ha, rfl⟩ := applyDecoded_eq_ok hap
    exact h.applyAttempt (decodeAttempt_sound (Reader.exactly_eq_some.mp ha))
  | outcomeCommit =>
    obtain ⟨o, ho, rfl⟩ := applyDecoded_eq_ok hap
    exact h.applyOutcome (decodeOutcome_sound (Reader.exactly_eq_some.mp ho))
  | fencePut =>
    obtain ⟨f, hf, rfl⟩ := applyDecoded_eq_ok hap
    exact h.applyFence (decodeFence_sound (Reader.exactly_eq_some.mp hf))
  | fenceClear =>
    simp only [applyPayload] at hap
    split at hap
    · simp at hap
    · obtain ⟨id, -, rfl⟩ := applyDecoded_eq_ok hap
      exact h.applyFenceClear id
  | epochAdvance =>
    obtain ⟨e, -, rfl⟩ := applyDecoded_eq_ok hap
    exact h.applyEpoch e

end Preservation

end FabricReconciliation
