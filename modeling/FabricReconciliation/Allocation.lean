import FabricReconciliation.Guard

/-!
# Attempt identities (`store.cpp:384-401`, `store.cpp:470-484`, `store.cpp:632-700`, `engine.cpp:864-889`)

The next identity is not stored with every record. It is rebuilt from the attempts in the journal, on top
of the value the last snapshot carries, while trimming drops attempts from the tables and compaction drops
their records. Replay only ever raises it, so neither the order of the records nor records that are
replayed twice matter, and no identity comes back until the counter itself wraps around.

* **`reach_spec`** — replaying attempts takes the counter to the least value above all of them;
* **`identities_never_reused`** — in every run that issues fewer than `2^64 - 1` attempts.
-/

namespace FabricReconciliation

open Lib

/-! ## The counter -/

/-- The counter after records of these attempts. -/
def reach (next : AttemptId) (ids : List AttemptId) : AttemptId := ids.foldl nextAttemptAfter next

theorem nextAttemptAfter_spec {next : AttemptId} (id : AttemptId) (hnext : next ≠ 0) (hid : id.toNat + 1 < 2 ^ 64) :
    nextAttemptAfter next id ≠ 0 ∧ next ≤ nextAttemptAfter next id ∧ id < nextAttemptAfter next id ∧
      (nextAttemptAfter next id).toNat ≤ max next.toNat (id.toNat + 1) := by
  have hone : (id + 1).toNat = id.toNat + 1 := by
    rw [UInt64.toNat_add]
    exact Nat.mod_eq_of_lt hid
  have hsucc : id + 1 ≠ 0 := by
    intro hzero
    rw [hzero] at hone
    simp at hone
  unfold nextAttemptAfter
  by_cases hle : next ≤ id
  · rw [if_pos hle, if_neg hsucc]
    rw [UInt64.le_iff_toNat_le] at hle
    refine ⟨hsucc, ?_⟩
    rw [UInt64.le_iff_toNat_le, UInt64.lt_iff_toNat_lt, hone]
    omega
  · rw [if_neg hle, if_neg hnext]
    exact ⟨hnext, UInt64.le_refl _, UInt64.not_le.mp hle, le_max_left _ _⟩

/-- **`reach_spec`**: below the bound of the word, the counter ends above every attempt and no higher than needed. -/
theorem reach_spec {bound : Nat} (hbound : bound < 2 ^ 64) {ids : List AttemptId} :
    ∀ {next : AttemptId}, next ≠ 0 → next.toNat ≤ bound → (∀ id ∈ ids, id.toNat < bound) →
      reach next ids ≠ 0 ∧ next ≤ reach next ids ∧ (∀ id ∈ ids, id < reach next ids) ∧
        (reach next ids).toNat ≤ bound := by
  induction ids with
  | nil =>
    intro next hnext hle _
    exact ⟨hnext, UInt64.le_refl _, by simp, hle⟩
  | cons id rest ih =>
    intro next hnext hle hids
    have hid := hids id (List.mem_cons_self ..)
    obtain ⟨hne, hmono, habove, hmax⟩ := nextAttemptAfter_spec id hnext (by omega)
    obtain ⟨hne', hmono', habove', hmax'⟩ := ih hne (by omega) fun x hx => hids x (List.mem_cons_of_mem _ hx)
    refine ⟨hne', UInt64.le_trans hmono hmono', ?_, hmax'⟩
    intro x hx
    rcases List.mem_cons.mp hx with rfl | hx
    · exact UInt64.lt_of_lt_of_le habove hmono'
    · exact habove' x hx

/-- Attempts below the counter leave it alone. -/
theorem reach_below {ids : List AttemptId} {next : AttemptId} (hnext : next ≠ 0) (h : ∀ id ∈ ids, id < next) :
    reach next ids = next := by
  induction ids with
  | nil => rfl
  | cons id rest ih =>
    have hid : ¬ next ≤ id := UInt64.not_le.mpr (h id (List.mem_cons_self ..))
    have hone : nextAttemptAfter next id = next := by simp [nextAttemptAfter, hid, hnext]
    show reach (nextAttemptAfter next id) rest = next
    rw [hone]
    exact ih fun x hx => h x (List.mem_cons_of_mem _ hx)

/-! ## Attempts in the journal -/

/-- The attempt an entry is about, when replay accepts it. -/
def attemptOf (limits : RuntimeLimits) (entry : RecordType × Bytes) : Option AttemptId :=
  if entry.1 = .attemptIssued ∨ entry.1 = .attemptTransition then
    ((decodeAttempt limits).exactly entry.2).map AttemptRecord.id
  else none

def attemptsOf (limits : RuntimeLimits) (entries : List (RecordType × Bytes)) : List AttemptId :=
  entries.filterMap (attemptOf limits)

/-- The attempts in the table are below the counter. -/
def Below (s : DurableState) : Prop := ∀ k a, s.attempts.find? k = some a → k < s.nextAttempt

section Entries

variable {limits : RuntimeLimits} {s : DurableState} {entry : RecordType × Bytes}
  {entries : List (RecordType × Bytes)}

/-- The state behind an entry that replay answers so. -/
def answered (s : DurableState) : Except Status DurableState → DurableState
  | .ok s' => s'
  | .error _ => s

/-- What an entry does to the counter and to the table of attempts. -/
theorem absorb_attempt (limits : RuntimeLimits) (s : DurableState) (entry : RecordType × Bytes) :
    (attemptOf limits entry = none ∧ (absorb limits s entry).nextAttempt = s.nextAttempt ∧
      (absorb limits s entry).attempts = s.attempts) ∨
    ∃ a, attemptOf limits entry = some a.id ∧ absorb limits s entry = applyAttempt limits a s := by
  obtain ⟨type, payload⟩ := entry
  have hdecoded : ∀ {α : Type} {decoded : Option α} {detail : String} {f : α → DurableState},
      (∀ a, (f a).nextAttempt = s.nextAttempt ∧ (f a).attempts = s.attempts) →
      (answered s (applyDecoded decoded detail f)).nextAttempt = s.nextAttempt ∧
        (answered s (applyDecoded decoded detail f)).attempts = s.attempts := by
    intro α decoded detail f hf
    cases decoded with
    | none => exact ⟨rfl, rfl⟩
    | some a => exact hf a
  have hattempt : ∀ {detail : String},
      (((decodeAttempt limits).exactly payload).map AttemptRecord.id = none ∧
        answered s (applyDecoded ((decodeAttempt limits).exactly payload) detail (applyAttempt limits · s)) = s) ∨
      ∃ a, ((decodeAttempt limits).exactly payload).map AttemptRecord.id = some a.id ∧
        answered s (applyDecoded ((decodeAttempt limits).exactly payload) detail (applyAttempt limits · s)) =
          applyAttempt limits a s := by
    intro detail
    cases (decodeAttempt limits).exactly payload with
    | none => exact .inl ⟨rfl, rfl⟩
    | some a => exact .inr ⟨a, rfl, rfl⟩
  cases type with
  | attemptIssued =>
    rcases @hattempt "attempt record failed validation" with ⟨hnone, hsame⟩ | ⟨a, hsome, happly⟩
    · exact .inl ⟨by simpa [attemptOf] using hnone, congrArg _ hsame, congrArg _ hsame⟩
    · exact .inr ⟨a, by simpa [attemptOf] using hsome, happly⟩
  | attemptTransition =>
    rcases @hattempt "attempt record failed validation" with ⟨hnone, hsame⟩ | ⟨a, hsome, happly⟩
    · exact .inl ⟨by simpa [attemptOf] using hnone, congrArg _ hsame, congrArg _ hsame⟩
    · exact .inr ⟨a, by simpa [attemptOf] using hsome, happly⟩
  | fenceClear =>
    refine .inl ⟨by simp [attemptOf], ?_⟩
    simp only [absorb, applyPayload]
    cases Read.bytes.exactly payload with
    | none => exact ⟨rfl, rfl⟩
    | some idText => exact hdecoded fun a => ⟨rfl, rfl⟩
  | invalid => exact .inl ⟨by simp [attemptOf], rfl, rfl⟩
  | storeHeader => exact .inl ⟨by simp [attemptOf], rfl, rfl⟩
  | lineageTrim => exact .inl ⟨by simp [attemptOf], rfl, rfl⟩
  | policyPut => exact .inl ⟨by simp [attemptOf], hdecoded fun a => ⟨rfl, rfl⟩⟩
  | intentCommit => exact .inl ⟨by simp [attemptOf], hdecoded fun a => ⟨rfl, rfl⟩⟩
  | observationCommit => exact .inl ⟨by simp [attemptOf], hdecoded fun a => ⟨rfl, rfl⟩⟩
  | outcomeCommit => exact .inl ⟨by simp [attemptOf], hdecoded fun a => ⟨rfl, rfl⟩⟩
  | fencePut => exact .inl ⟨by simp [attemptOf], hdecoded fun a => ⟨rfl, rfl⟩⟩
  | epochAdvance => exact .inl ⟨by simp [attemptOf], hdecoded fun a => ⟨rfl, rfl⟩⟩

/-- Replay takes the counter where the attempts of the entries take it. -/
theorem absorbAll_nextAttempt (limits : RuntimeLimits) (entries : List (RecordType × Bytes)) (s : DurableState) :
    (absorbAll limits entries s).nextAttempt = reach s.nextAttempt (attemptsOf limits entries) := by
  induction entries generalizing s with
  | nil => rfl
  | cons entry rest ih =>
    show (absorbAll limits rest (absorb limits s entry)).nextAttempt = _
    rw [ih]
    rcases absorb_attempt limits s entry with ⟨hnone, hnext, -⟩ | ⟨a, hsome, happly⟩
    · rw [hnext, attemptsOf, attemptsOf, List.filterMap_cons_none hnone]
    · rw [happly, attemptsOf, attemptsOf, List.filterMap_cons_some hsome]
      rfl

/-- Replay keeps the table below the counter. -/
theorem Below.absorbAll {bound : Nat} (hbound : bound < 2 ^ 64) (h : Below s) (hnext : s.nextAttempt ≠ 0)
    (hle : s.nextAttempt.toNat ≤ bound) (hids : ∀ id ∈ attemptsOf limits entries, id.toNat < bound) :
    Below (absorbAll limits entries s) := by
  induction entries generalizing s with
  | nil => exact h
  | cons entry rest ih =>
    rcases absorb_attempt limits s entry with ⟨hnone, hcounter, htable⟩ | ⟨a, hsome, happly⟩
    · rw [attemptsOf, List.filterMap_cons_none hnone] at hids
      refine ih ?_ (by rw [hcounter]; exact hnext) (by rw [hcounter]; exact hle) hids
      intro k b hb
      rw [hcounter]
      rw [htable] at hb
      exact h k b hb
    · rw [attemptsOf, List.filterMap_cons_some hsome] at hids
      have hid := hids a.id (List.mem_cons_self ..)
      obtain ⟨hne, hmono, habove, hmax⟩ := nextAttemptAfter_spec a.id hnext (by omega)
      show Below (FabricReconciliation.absorbAll limits rest (absorb limits s entry))
      rw [happly]
      refine ih ?_ hne (le_trans hmax (by omega)) fun id hmem => hids id (List.mem_cons_of_mem _ hmem)
      intro k b hb
      rcases find?_applyAttempt hb with ⟨rfl, -⟩ | ⟨-, hold⟩
      · exact habove
      · exact UInt64.lt_of_lt_of_le (h k b hold) hmono

end Entries

/-! ## Attempts in the log -/

/-- The attempt an append issued: its record reached the journal whole, and replay accepts it. -/
def issuedOf (limits : RuntimeLimits) (x : Appending) : Option AttemptId :=
  if x.type = .attemptIssued ∧ x.whole = true then attemptOf limits (x.type, x.payload) else none

/-- The identities of the issued attempts, in order. -/
def issuedIds (limits : RuntimeLimits) (log : List Appending) : List AttemptId := log.filterMap (issuedOf limits)

/-- Of these, the ones whose append was acknowledged. -/
def acknowledgedIds (limits : RuntimeLimits) (log : List Appending) : List AttemptId :=
  issuedIds limits (log.filter fun x => x.acknowledged)

/-- Fewer than `2^64 - 1` attempts were issued. -/
def FewIssued (limits : RuntimeLimits) (log : List Appending) : Prop := (issuedIds limits log).length < 2 ^ 64 - 1

theorem few_of_short {limits : RuntimeLimits} {log : List Appending} (h : log.length < 2 ^ 64 - 1) :
    FewIssued limits log := lt_of_le_of_lt (List.length_filterMap_le _ _) h

/-- What files with these entries know of the identities that the log issued. The snapshot in `start`
covers the first entries; `extra` is a record that was never acknowledged. -/
structure Ledger (limits : RuntimeLimits) (start : DurableState) (covered rest extra : List (RecordType × Bytes))
    (log : List Appending) : Prop where
  increasing : (issuedIds limits log).Pairwise (· < ·)
  positive : ∀ id ∈ issuedIds limits log, id ≠ 0
  counter : start.nextAttempt ≠ 0
  bound : start.nextAttempt.toNat ≤ (issuedIds limits log).length + 1
  table : Below start
  entries : ∀ id ∈ attemptsOf limits (covered ++ rest ++ extra), id.toNat ≤ (issuedIds limits log).length
  covered : ∀ id ∈ attemptsOf limits covered, id < start.nextAttempt
  issued : ∀ id ∈ issuedIds limits log, id < start.nextAttempt ∨ id ∈ attemptsOf limits (rest ++ extra)
  acknowledged : ∀ id ∈ acknowledgedIds limits log, id < start.nextAttempt ∨ id ∈ attemptsOf limits rest

/-- What a state in memory knows of them. -/
structure Ahead (limits : RuntimeLimits) (s : DurableState) (log : List Appending) : Prop where
  counter : s.nextAttempt ≠ 0
  bound : s.nextAttempt.toNat ≤ (issuedIds limits log).length + 1
  table : Below s
  acknowledged : ∀ id ∈ acknowledgedIds limits log, id < s.nextAttempt

section Ledger

variable {limits : RuntimeLimits} {start st : DurableState} {covered rest extra again : List (RecordType × Bytes)}
  {log log' : List Appending} {entry : RecordType × Bytes}

theorem issuedIds_concat (limits : RuntimeLimits) (log : List Appending) (x : Appending) :
    issuedIds limits (log ++ [x]) = issuedIds limits log ++ (issuedOf limits x).toList := by
  unfold issuedIds
  rw [List.filterMap_append]
  cases hx : issuedOf limits x <;> simp [hx]

theorem attemptsOf_append (limits : RuntimeLimits) (l l' : List (RecordType × Bytes)) :
    attemptsOf limits (l ++ l') = attemptsOf limits l ++ attemptsOf limits l' := List.filterMap_append

theorem acknowledgedIds_concat (limits : RuntimeLimits) (log : List Appending) (x : Appending) :
    acknowledgedIds limits (log ++ [x]) =
      acknowledgedIds limits log ++ if x.acknowledged then (issuedOf limits x).toList else [] := by
  unfold acknowledgedIds
  rw [List.filter_append]
  cases hx : x.acknowledged with
  | true => simp [hx, issuedIds_concat]
  | false => simp [hx]

theorem FewIssued.of_concat {x : Appending} (h : FewIssued limits (log ++ [x])) : FewIssued limits log := by
  unfold FewIssued at h ⊢
  rw [issuedIds_concat, List.length_append] at h
  omega

/-- A state rebuilt from the files, with some covered entries replayed again. -/
theorem Ledger.ahead (h : Ledger limits start covered rest extra log) (hfew : FewIssued limits log)
    (hagain : ∀ e ∈ again, e ∈ covered) (hst : st.core = (absorbAll limits (again ++ rest) start).core) :
    Ahead limits st log ∧ start.nextAttempt ≤ st.nextAttempt ∧ ∀ id ∈ attemptsOf limits rest, id < st.nextAttempt := by
  unfold FewIssued at hfew
  obtain ⟨-, hnext, -, -, -, -, -, htable, -, -⟩ := tables_eq_iff.mp (tables_of_core hst)
  have hmem : ∀ id ∈ attemptsOf limits (again ++ rest), id ∈ attemptsOf limits (covered ++ rest ++ extra) := by
    intro id hid
    obtain ⟨e, he, hof⟩ := List.mem_filterMap.mp hid
    refine List.mem_filterMap.mpr ⟨e, ?_, hof⟩
    rcases List.mem_append.mp he with hold | hnew
    · simp [hagain e hold]
    · simp [hnew]
  have hids : ∀ id ∈ attemptsOf limits (again ++ rest), id.toNat < (issuedIds limits log).length + 1 := fun id hid =>
    Nat.lt_succ_of_le (h.entries id (hmem id hid))
  obtain ⟨hne, hmono, habove, hmax⟩ := reach_spec (by omega) h.counter h.bound hids
  rw [← absorbAll_nextAttempt, ← hnext] at hne hmono habove hmax
  have hrest : ∀ id ∈ attemptsOf limits rest, id < st.nextAttempt := by
    intro id hid
    refine habove id ?_
    rw [attemptsOf_append]
    exact List.mem_append_right _ hid
  refine ⟨⟨hne, hmax, ?_, ?_⟩, hmono, hrest⟩
  · have hbelow := Below.absorbAll (by omega) h.table h.counter h.bound hids
    unfold Below
    rw [hnext, htable]
    exact hbelow
  · intro id hid
    rcases h.acknowledged id hid with hlt | hin
    · exact UInt64.lt_of_lt_of_le hlt hmono
    · exact hrest id hin

theorem Ledger.of_same (h : Ledger limits start covered rest extra log)
    (hissued : issuedIds limits log' = issuedIds limits log)
    (hacknowledged : acknowledgedIds limits log' = acknowledgedIds limits log) :
    Ledger limits start covered rest extra log' := by
  exact ⟨by rw [hissued]; exact h.increasing, by rw [hissued]; exact h.positive, h.counter,
    by rw [hissued]; exact h.bound, h.table, by rw [hissued]; exact h.entries, h.covered,
    by rw [hissued]; exact h.issued, by rw [hacknowledged]; exact h.acknowledged⟩

/-- The entry issues the next attempt, or is about an earlier one. -/
def Successor (limits : RuntimeLimits) (next : AttemptId) (entry : RecordType × Bytes) : Prop :=
  ∀ id, attemptOf limits entry = some id →
    entry.1 = .attemptIssued ∧ id = next ∨ entry.1 ≠ .attemptIssued ∧ id < next

/-- A whole record in the ledger: behind the others, or as the one that was never acknowledged. -/
theorem Ledger.record (h : Ledger limits start covered rest [] log) {next : AttemptId} (hnext : next ≠ 0)
    (hbound : next.toNat ≤ (issuedIds limits log).length + 1) (hstart : start.nextAttempt ≤ next)
    (hrest : ∀ id ∈ attemptsOf limits rest, id < next) (hentry : Successor limits next entry) :
    Ledger limits start covered (rest ++ [entry]) [] (log ++ [⟨entry.1, entry.2, true, true⟩]) ∧
      Ledger limits start covered rest [entry] (log ++ [⟨entry.1, entry.2, true, false⟩]) := by
  have hbefore : ∀ id ∈ issuedIds limits log, id < next := by
    intro id hid
    rcases h.issued id hid with hlt | hin
    · exact UInt64.lt_of_lt_of_le hlt hstart
    · exact hrest id (by simpa using hin)
  have hissued : ∀ flag id, issuedOf limits ⟨entry.1, entry.2, true, flag⟩ = some id ↔
      entry.1 = .attemptIssued ∧ attemptOf limits entry = some id := by
    intro flag id
    simp [issuedOf]
  have hlast : ∀ flag id, issuedOf limits ⟨entry.1, entry.2, true, flag⟩ = some id →
      attemptOf limits entry = some id ∧ id = next := by
    intro flag id hid
    obtain ⟨htype, hof⟩ := (hissued flag id).mp hid
    refine ⟨hof, ?_⟩
    rcases hentry id hof with ⟨-, heq⟩ | ⟨hnot, -⟩
    · exact heq
    · exact absurd htype hnot
  have hmem : ∀ {flag : Bool} {id : AttemptId}, id ∈ issuedIds limits (log ++ [⟨entry.1, entry.2, true, flag⟩]) →
      id ∈ issuedIds limits log ∨ attemptOf limits entry = some id ∧ id = next := by
    intro flag id hid
    rw [issuedIds_concat, List.mem_append, Option.mem_toList] at hid
    exact hid.imp_right (hlast flag id)
  have hlength : ∀ flag, (issuedIds limits log).length ≤
      (issuedIds limits (log ++ [⟨entry.1, entry.2, true, flag⟩])).length := by
    intro flag
    rw [issuedIds_concat, List.length_append]
    omega
  have hincreasing : ∀ flag, (issuedIds limits (log ++ [⟨entry.1, entry.2, true, flag⟩])).Pairwise (· < ·) := by
    intro flag
    rw [issuedIds_concat]
    refine List.pairwise_append.mpr ⟨h.increasing, ?_, ?_⟩
    · cases issuedOf limits ⟨entry.1, entry.2, true, flag⟩ <;> simp
    · intro id hid id' hid'
      rw [(hlast flag id' (Option.mem_toList.mp hid')).2]
      exact hbefore id hid
  have hcount : ∀ flag id, id ∈ attemptsOf limits (covered ++ rest) ∨ attemptOf limits entry = some id →
      id.toNat ≤ (issuedIds limits (log ++ [⟨entry.1, entry.2, true, flag⟩])).length := by
    intro flag id hid
    rcases hid with hold | hid
    · exact le_trans (h.entries id (by simpa using hold)) (hlength flag)
    rcases hentry id hid with ⟨htype, rfl⟩ | ⟨-, hlt⟩
    · rw [issuedIds_concat, (hissued flag id).mpr ⟨htype, hid⟩, List.length_append]
      simpa using hbound
    · rw [UInt64.lt_iff_toNat_lt] at hlt
      have := hlength flag
      omega
  have hpositive : ∀ flag, ∀ id ∈ issuedIds limits (log ++ [⟨entry.1, entry.2, true, flag⟩]), id ≠ 0 := by
    intro flag id hid
    rcases hmem hid with hold | ⟨-, rfl⟩
    · exact h.positive id hold
    · exact hnext
  have hone : ∀ id, id ∈ attemptsOf limits [entry] ↔ attemptOf limits entry = some id := by
    intro id
    simp [attemptsOf]
  have hknown : ∀ flag, ∀ id ∈ issuedIds limits (log ++ [⟨entry.1, entry.2, true, flag⟩]),
      id < start.nextAttempt ∨ id ∈ attemptsOf limits (rest ++ [entry]) := by
    intro flag id hid
    rw [attemptsOf_append, List.mem_append, hone]
    rcases hmem hid with hold | ⟨hof, -⟩
    · exact (h.issued id hold).imp_right fun hin => .inl (by simpa using hin)
    · exact .inr (.inr hof)
  have hentries : ∀ flag, ∀ id ∈ attemptsOf limits (covered ++ rest ++ [entry]),
      id.toNat ≤ (issuedIds limits (log ++ [⟨entry.1, entry.2, true, flag⟩])).length := by
    intro flag id hid
    rw [attemptsOf_append, List.mem_append, hone] at hid
    exact hcount flag id hid
  refine ⟨⟨hincreasing true, hpositive true, h.counter, le_trans h.bound (Nat.succ_le_succ (hlength true)), h.table,
    ?_, h.covered, ?_, ?_⟩, ⟨hincreasing false, hpositive false, h.counter,
    le_trans h.bound (Nat.succ_le_succ (hlength false)), h.table, hentries false, h.covered, hknown false, ?_⟩⟩
  · rw [List.append_nil, ← List.append_assoc]
    exact hentries true
  · rw [List.append_nil]
    exact hknown true
  · intro id hid
    rw [acknowledgedIds_concat, if_pos rfl, List.mem_append, Option.mem_toList] at hid
    rw [attemptsOf_append, List.mem_append, hone]
    rcases hid with hold | hnew
    · exact (h.acknowledged id hold).imp_right .inl
    · exact .inr (.inr (hlast true id hnew).1)
  · intro id hid
    rw [acknowledgedIds_concat, if_neg (by simp), List.append_nil] at hid
    exact h.acknowledged id hid

/-- An append of which nothing whole reached the file issues nothing. -/
theorem Ledger.skip (h : Ledger limits start covered rest extra log) (type : RecordType) (payload : Bytes) :
    Ledger limits start covered rest extra (log ++ [⟨type, payload, false, false⟩]) := by
  refine h.of_same ?_ ?_
  · simp [issuedIds_concat, issuedOf]
  · simp [acknowledgedIds_concat]

/-- A pending record is one more record once the process is gone. -/
theorem Ledger.settle (h : Ledger limits start covered rest extra log) :
    Ledger limits start covered (rest ++ extra) [] log := by
  refine ⟨h.increasing, h.positive, h.counter, h.bound, h.table, ?_, h.covered, ?_, ?_⟩
  · rw [List.append_nil, ← List.append_assoc]
    exact h.entries
  · rw [List.append_nil]
    exact h.issued
  · intro id hid
    rw [attemptsOf_append, List.mem_append]
    exact (h.acknowledged id hid).imp_right .inl

/-- A snapshot of the state in memory. -/
theorem Ledger.snapshot (h : Ledger limits start covered rest extra log) (hst : Ahead limits st log)
    (hmono : start.nextAttempt ≤ st.nextAttempt) (hrest : ∀ id ∈ attemptsOf limits rest, id < st.nextAttempt)
    {published : DurableState} (hpublished : published.tables = st.tables) :
    Ledger limits published (covered ++ rest) [] extra log := by
  obtain ⟨-, hnext, -, -, -, -, -, htable, -, -⟩ := tables_eq_iff.mp hpublished
  have hbelow : Below published := by
    unfold Below
    rw [hnext, htable]
    exact hst.table
  refine ⟨h.increasing, h.positive, hnext ▸ hst.counter, hnext ▸ hst.bound, hbelow, ?_, ?_, ?_, ?_⟩
  · rw [List.append_nil]
    exact h.entries
  · intro id hid
    rw [hnext]
    rw [attemptsOf_append, List.mem_append] at hid
    rcases hid with hold | hnew
    · exact UInt64.lt_of_lt_of_le (h.covered id hold) hmono
    · exact hrest id hnew
  · intro id hid
    rw [hnext, List.nil_append]
    rcases h.issued id hid with hlt | hin
    · exact .inl (UInt64.lt_of_lt_of_le hlt hmono)
    · rw [attemptsOf_append, List.mem_append] at hin
      exact hin.imp_left (hrest id)
  · intro id hid
    rw [hnext]
    exact .inl (hst.acknowledged id hid)

end Ledger

/-! ## Stores -/

/-- What a store whose journal is gone still knows. -/
structure Stranded (limits : RuntimeLimits) (s : DurableStore) : Prop where
  increasing : (issuedIds limits s.directory.log).Pairwise (· < ·)
  positive : ∀ id ∈ issuedIds limits s.directory.log, id ≠ 0
  ahead : Ahead limits s.state s.directory.log
  healthy : s.journal.writeFailed = false → ∀ id ∈ issuedIds limits s.directory.log, id < s.state.nextAttempt

/-- A store of an engine and the identities that its log issued. -/
inductive Issuing (limits : RuntimeLimits) (s : DurableStore) : Prop
  | live {c : Contents} {extra again : List (RecordType × Bytes)} (h : Live limits c extra again s)
      (hl : FewIssued limits s.directory.log → Ledger limits c.start (c.entries.take c.covered)
        (c.entries.drop c.covered) extra s.directory.log)
  | lost (h : Lost limits s) (hl : FewIssued limits s.directory.log → Stranded limits s)

section Stores

variable {limits : RuntimeLimits} {s t : DurableStore} {e : Event} {env : CallEnv} {live : Incarnation}
  {cause : Option Operation}

theorem Ahead.congr {st st' : DurableState} {log : List Appending} (h : Ahead limits st log)
    (he : st.tables = st'.tables) : Ahead limits st' log := by
  obtain ⟨-, hnext, -, -, -, -, -, htable, -, -⟩ := tables_eq_iff.mp he
  refine ⟨hnext ▸ h.counter, hnext ▸ h.bound, ?_, hnext ▸ h.acknowledged⟩
  unfold Below
  rw [← hnext, ← htable]
  exact h.table

theorem Issuing.ahead (h : Issuing limits s) (hfew : FewIssued limits s.directory.log) :
    (issuedIds limits s.directory.log).Pairwise (· < ·) ∧ (∀ id ∈ issuedIds limits s.directory.log, id ≠ 0) ∧
      Ahead limits s.state s.directory.log := by
  cases h with
  | live h hl => exact ⟨(hl hfew).increasing, (hl hfew).positive, ((hl hfew).ahead hfew h.repeated h.memory).1⟩
  | lost h hl => exact ⟨(hl hfew).increasing, (hl hfew).positive, (hl hfew).ahead⟩

/-- The attempt a record of an engine is about. -/
theorem attemptOf_event {a : AttemptRecord} {id : AttemptId} (he : e = .attemptIssued a ∨ e = .attemptTransition a)
    (hp : e.payload ≠ []) (h : attemptOf limits (e.type, e.payload) = some id) : id = a.id := by
  have hpayload : e.payload = encodeAttempt a := by rcases he with rfl | rfl <;> rfl
  rw [hpayload] at hp
  obtain ⟨-, hfit, himage⟩ := encoded_ne_nil hp
  have hread := (@reads_attempt limits _ hfit).exactly
  unfold attemptOf at h
  split at h
  · simp only [hpayload, encodeAttempt, himage, hread] at h
    split at h
    · simpa using h.symm
    · simp at h
  · simp at h

/-- Engines issue the next identity, and otherwise write about attempts they hold. -/
theorem Write.successor {st : DurableState} (hw : Write limits live cause st e) (hnext : st.nextAttempt ≠ 0)
    (hbelow : Below st) (hp : e.payload ≠ []) : Successor limits st.nextAttempt (e.type, e.payload) := by
  intro id hid
  cases hw with
  | attemptIssued p d now hcause hd hact hfree hnone =>
    left
    refine ⟨rfl, ?_⟩
    rw [attemptOf_event (.inl rfl) hp hid]
    exact if_neg hnext
  | attemptTransition a a' hm hc =>
    right
    refine ⟨by simp [Event.type], ?_⟩
    have hsame : a'.id = a.id := by rw [hm.same]
    rw [attemptOf_event (.inr rfl) hp hid, hsame]
    exact hbelow a.id a hm.stored
  | _ => simp [attemptOf, Event.type] at hid

/-- A refused append changes the log only. -/
theorem Issuing.skip (h : Issuing limits s) {entry : RecordType × Bytes} (hsame : Skipped s entry t) :
    Issuing limits t := by
  rw [show t = _ from hsame]
  cases h with
  | live h hl => exact .live (h.logged _ _) fun hfew => (hl hfew.of_concat).skip _ _
  | lost h hl =>
    refine .lost { h with } fun hfew => ?_
    have hold := hl hfew.of_concat
    have hissued : issuedIds limits (s.directory.log ++ [⟨entry.1, entry.2, false, false⟩]) =
        issuedIds limits s.directory.log := by simp [issuedIds_concat, issuedOf]
    have hacknowledged : acknowledgedIds limits (s.directory.log ++ [⟨entry.1, entry.2, false, false⟩]) =
        acknowledgedIds limits s.directory.log := by simp [acknowledgedIds_concat]
    refine ⟨hissued ▸ hold.increasing, hissued ▸ hold.positive, ⟨hold.ahead.counter, ?_, hold.ahead.table, ?_⟩, ?_⟩
    · simpa only [hissued] using hold.ahead.bound
    · simpa only [hacknowledged] using hold.ahead.acknowledged
    · simpa only [hissued] using hold.healthy

/-- One commit of what an engine may write, with any outcome. -/
theorem Issuing.commit (h : Issuing limits s) (what : String) (hw : Write limits live cause s.state e) :
    Issuing limits (s.commit what e).2 := by
  unfold DurableStore.commit
  by_cases hro : s.readOnly = true
  · rw [if_pos hro]
    exact h
  rw [if_neg hro]
  by_cases hp : e.payload = []
  · rw [if_pos hp]
    exact h
  rw [if_neg hp]
  have hcopy := h
  cases h with
  | lost h hl =>
    obtain ⟨bytes, hfile, -⟩ := h.short
    obtain ⟨status, hs', happ⟩ := append_refused (.inr h.closed) e.type e.payload (s.faults.headD .ok)
      (s.directory.journal.getD [])
    exact hcopy.skip (appendAndApply_skips hfile (e.type, e.payload) hs' happ).2
  | @live c extra again h hl =>
    by_cases hwf : s.journal.writeFailed = true
    · exact hcopy.skip (appendAndApply_stuck hwf h.holds.journal (e.type, e.payload)).2
    obtain ⟨rfl, -⟩ := h.healthy (by simpa using hwf)
    have hrecord : FewIssued limits s.directory.log →
        Ledger limits c.start (c.entries.take c.covered) (c.entries.drop c.covered ++ [(e.type, e.payload)]) []
          (s.directory.log ++ [⟨e.type, e.payload, true, true⟩]) ∧
        Ledger limits c.start (c.entries.take c.covered) (c.entries.drop c.covered) [(e.type, e.payload)]
          (s.directory.log ++ [⟨e.type, e.payload, true, false⟩]) := by
      intro hfew
      obtain ⟨hahead, hmono, hrest⟩ := (hl hfew).ahead hfew h.repeated h.memory
      exact (hl hfew).record hahead.counter hahead.bound hmono hrest (hw.successor hahead.counter hahead.table hp)
    have htype : e.type ≠ .invalid := by cases e <;> simp [Event.type]
    rcases append_live h (e.type, e.payload) htype (length_payload_lt_word e) with
      ⟨-, hsame, -⟩ | ⟨-, -, -, -, -, hlog, hlive⟩ | ⟨-, -, -, -, -, hlog, hlive⟩ |
      ⟨-, -, -, -, -, tail, -, extra', hcase, hlog, hlive⟩
    · exact hcopy.skip hsame
    · refine .live hlive fun hfew => ?_
      rw [hlog] at hfew ⊢
      rw [take_with c h.covered, drop_with c h.covered]
      exact (hrecord hfew.of_concat).1
    · refine .live hlive fun hfew => ?_
      rw [hlog] at hfew ⊢
      rw [take_with c h.covered, drop_with c h.covered]
      exact (hrecord hfew.of_concat).1
    · refine .live hlive fun hfew => ?_
      rw [hlog] at hfew ⊢
      rcases hcase with rfl | ⟨rfl, -⟩
      · exact (hl hfew.of_concat).skip _ _
      · exact (hrecord hfew.of_concat).2

theorem compact_writeFailed (h : s.journal.writeFailed = true) (io : CompactIo) (now headerNow : UnixMillis) :
    (s.compact io now headerNow).2.journal.writeFailed = true := by
  have hreset : ∀ store file, (s.journal.reset io.reopened io.header store headerNow file).2.1.writeFailed = true := by
    intro store file
    unfold Journal.reset
    split
    · exact h
    split
    · exact h
    · simp [Journal.writeAndFlush, h, integrityFailure]
  unfold DurableStore.compact
  split
  · exact h
  simp only
  split
  · exact h
  split
  · exact h
  split
  · exact hreset _ _
  · exact hreset _ _

/-- Where no record is pending, memory is ahead of everything that was issued. -/
theorem Issuing.settled (h : Issuing limits s) (hfew : FewIssued limits s.directory.log)
    (hhealthy : s.journal.writeFailed = false) : ∀ id ∈ issuedIds limits s.directory.log, id < s.state.nextAttempt := by
  cases h with
  | lost h hl => exact (hl hfew).healthy hhealthy
  | live h hl =>
    obtain ⟨rfl, -⟩ := h.healthy hhealthy
    obtain ⟨-, hmono, hrest⟩ := (hl hfew).ahead hfew h.repeated h.memory
    intro id hid
    rcases (hl hfew).issued id hid with hlt | hin
    · exact UInt64.lt_of_lt_of_le hlt hmono
    · exact hrest id (by simpa using hin)

theorem counted_tables (s : DurableStore) : ({ s.counted with sequence := 0 } : DurableState).tables = s.state.tables :=
  rfl

/-- One compaction, with any outcome. -/
theorem Issuing.compact (h : Issuing limits s) (hfit : EntriesFit s.state) (io : CompactIo) (now headerNow : UnixMillis) :
    Issuing limits (s.compact io now headerNow).2 := by
  have hhandle : Handle limits s := by
    cases h with
    | live h hl => exact h.toHandle
    | lost h hl => exact h.toHandle
  have hlog := compact_log s io now headerNow
  rcases compact_cases hhandle hfit io now headerNow with
    ⟨-, staging, hsame⟩ | ⟨-, hp, -, hsame⟩ | ⟨-, -, -, hhealthy, hlive⟩ | ⟨-, hstate, -, -, hlost⟩
  · rw [hsame]
    cases h with
    | live h hl => exact .live (h.staging staging) hl
    | lost h hl => exact .lost { h with } fun hfew => { hl hfew with }
  · rw [show (s.compact io now headerNow).2 = s.shut now from hsame]
    cases h with
    | lost h hl => exact .lost (h.shut now) fun hfew => { hl hfew with }
    | @live c extra again h hl =>
      refine .live (h.shut hfit hp now) fun hfew => ?_
      obtain ⟨hahead, hmono, hrest⟩ := (hl hfew).ahead hfew h.repeated h.memory
      have hsnapshot := (hl hfew).snapshot hahead hmono hrest (counted_tables s)
      rw [List.take_append_drop] at hsnapshot
      have htake : (c.sealed s now).entries.take (c.sealed s now).covered = c.entries := by simp [Contents.sealed]
      have hdrop : (c.sealed s now).entries.drop (c.sealed s now).covered = [] := by simp [Contents.sealed]
      rw [htake, hdrop]
      exact hsnapshot
  · -- the journal starts again, so everything issued is below what the snapshot carries
    refine .live hlive fun hfew => ?_
    rw [hlog] at hfew ⊢
    obtain ⟨hincreasing, hpositive, hahead⟩ := h.ahead hfew
    have hsettled := h.settled hfew hhealthy
    exact ⟨hincreasing, hpositive, hahead.counter, hahead.bound, hahead.table, by simp [DurableStore.restarted, attemptsOf],
      by simp [DurableStore.restarted, attemptsOf], fun id hid => .inl (hsettled id hid),
      fun id hid => .inl (hahead.acknowledged id hid)⟩
  · refine .lost hlost fun hfew => ?_
    rw [hlog] at hfew
    obtain ⟨hincreasing, hpositive, hahead⟩ := h.ahead hfew
    refine ⟨hlog ▸ hincreasing, hlog ▸ hpositive, ?_, ?_⟩
    · rw [hlog, hstate]
      exact hahead
    · intro hflag
      have hhealthy : s.journal.writeFailed = false := by
        by_contra hfailed
        rw [compact_writeFailed (by simpa using hfailed)] at hflag
        simp at hflag
      rw [hlog, hstate]
      exact h.settled hfew hhealthy

/-- Whatever an engine commits. -/
theorem Issuing.commits (h : Issuing limits s) (hsound : Sound limits s)
    (hlive : cause ≠ none → live.epoch ≤ s.state.lastEpoch) (hc : Commits (Write limits live cause) env s t) :
    Issuing limits t := by
  induction hc with
  | refl => exact h
  | commit hc what e he ih => exact ih.commit what he
  | compact hc ih => exact ih.compact (hsound.commits hlive hc).1.stamped.entries _ _ _
  | faults hc ih =>
    cases ih with
    | live h hl => exact .live (h.faults env.faults) hl
    | lost h hl => exact .lost { h with } fun hfew => { hl hfew with }

end Stores

/-! ## Processes -/

/-- A process and the identities issued so far. -/
inductive Allotted (limits : RuntimeLimits) : Process → Prop
  | blank {dir : Directory} {last : DurableState} (hblank : Blank dir) (hlog : dir.log = []) :
      Allotted limits (.down dir last)
  | down {c : Contents} {dir : Directory} {last : DurableState} (h : Holds limits c dir)
      (hl : FewIssued limits dir.log → Ledger limits c.start (c.entries.take c.covered) (c.entries.drop c.covered) []
        dir.log) : Allotted limits (.down dir last)
  | lost {dir : Directory} {last : DurableState} {bytes : Bytes} (hpresent : dir.present = true)
      (hjournal : dir.journal = some bytes) (hshort : bytes.length < 96)
      (hl : FewIssued limits dir.log → (issuedIds limits dir.log).Pairwise (· < ·) ∧
        ∀ id ∈ issuedIds limits dir.log, id ≠ 0) : Allotted limits (.down dir last)
  | up {e : Engine} (h : Issuing limits e.store) : Allotted limits (.up e)

section Process

variable {limits : RuntimeLimits} {p : Process}

theorem Issuing.leaves {s : DurableStore} (h : Issuing limits s) {last : DurableState} :
    Allotted limits (.down s.directory last) := by
  cases h with
  | lost h hl =>
    obtain ⟨bytes, hjournal, hshort⟩ := h.short
    exact .lost h.present hjournal hshort fun hfew => ⟨(hl hfew).increasing, (hl hfew).positive⟩
  | @live c extra again h hl =>
    refine .down h.holds fun hfew => ?_
    rw [take_with c h.covered, drop_with c h.covered]
    exact (hl hfew).settle

/-- Before anything was written. -/
theorem ledger_created (limits : RuntimeLimits) (opening : DurableStore.OpenEnv) :
    Ledger limits opening.contents.start (opening.contents.entries.take opening.contents.covered)
      (opening.contents.entries.drop opening.contents.covered) [] [] := by
  have hempty : issuedIds limits [] = [] := rfl
  have hnone : acknowledgedIds limits [] = [] := rfl
  refine ⟨by simp [hempty], by simp [hempty], ?_, ?_, ?_, ?_, ?_, by simp [hempty], by simp [hnone]⟩
  · show (1 : UInt64) ≠ 0
    decide
  · rw [hempty]
    show (1 : UInt64).toNat ≤ 1
    decide
  · intro k a ha
    simp [DurableStore.OpenEnv.contents, Contents.start, OrdMap.empty, OrdMap.find?, OrdMap.lookup] at ha
  · simp [DurableStore.OpenEnv.contents, attemptsOf]
  · simp [DurableStore.OpenEnv.contents, attemptsOf]

/-- Opening issues nothing and forgets nothing. -/
theorem Allotted.open {dir dir' : Directory} {last : DurableState} (h : Allotted limits (.down dir last))
    {createIfMissing readOnly : Bool} {opening : DurableStore.OpenEnv}
    {answer : Except Status (DurableStore × DurableStore.StoreOpenReport)}
    (hopen : DurableStore.open limits createIfMissing readOnly opening dir = (dir', answer)) :
    (∀ opened report, answer = .ok (opened, report) → Issuing limits opened) ∧
      (∀ status, answer = .error status → Allotted limits (.down dir' last)) := by
  have hkept : dir.present = true ∨ dir.log = [] → dir'.log = dir.log := by
    intro hdir
    have hlog := open_log limits createIfMissing readOnly opening dir hdir
    rw [hopen] at hlog
    exact hlog
  cases h with
  | blank hblank hnone =>
    have hlog : dir'.log = [] := (hkept (.inr hnone)).trans hnone
    have hcreated := open_blank limits createIfMissing readOnly opening hblank
    rw [hopen] at hcreated
    cases hcreated with
    | refused status hblank' => exact ⟨by simp, fun _ _ => .blank hblank' hlog⟩
    | torn status hio hdir =>
      refine ⟨by simp, fun _ _ => ?_⟩
      rcases hdir with hholds | ⟨hpresent, bytes, hjournal, hshort⟩
      · exact .down hholds fun _ => by rw [hlog]; exact ledger_created limits opening
      · exact .lost hpresent hjournal hshort fun _ => by rw [hlog]; simp [issuedIds]
    | opened s report hstate hlive hflags hdir =>
      refine ⟨?_, by simp⟩
      intro opened report' heq
      rw [Except.ok.injEq, Prod.mk.injEq] at heq
      obtain ⟨rfl, -⟩ := heq
      exact .live hlive fun _ => by rw [hdir, hlog]; exact ledger_created limits opening
  | down hholds hl =>
    have hlog := hkept (.inl hholds.present)
    cases answer with
    | error status =>
      refine ⟨by simp, fun _ _ => ?_⟩
      rcases open_failed hholds hopen with hdir | hdir
      · exact .down hdir (by rw [hlog]; exact hl)
      · exact .down hdir (by rw [hlog]; exact hl)
    | ok result =>
      refine ⟨?_, by simp⟩
      intro opened report heq
      rw [heq] at hopen
      obtain ⟨again, state, -, -, -, hlive, -, -, -, -, hdir⟩ := open_live hholds hopen
      exact .live hlive (by rw [hdir, hlog]; exact hl)
  | lost hpresent hjournal hshort hl =>
    have hlog := hkept (.inl hpresent)
    obtain ⟨dir'', status, hlost, hpresent', hjournal'⟩ :=
      open_lost limits createIfMissing readOnly opening hpresent hjournal hshort
    rw [hopen, Prod.mk.injEq] at hlost
    obtain ⟨rfl, rfl⟩ := hlost
    exact ⟨by simp, fun _ _ => .lost hpresent' hjournal' hshort (by rw [hlog]; exact hl)⟩

theorem Allotted.boot {dir : Directory} {last : DurableState} (h : Allotted limits (.down dir last))
    (ht : Tracked limits (.down dir last)) {options : EngineOptions} (hoptions : options.limits = limits)
    (opening : DurableStore.OpenEnv) (id : BootId) (env : CallEnv) :
    Allotted limits (Process.boot dir last options opening id env).2 := by
  subst hoptions
  rcases hopen : DurableStore.open options.limits options.createIfMissing options.readOnly opening dir with
    ⟨dir', answer⟩
  obtain ⟨hok, hbad⟩ := h.open hopen
  unfold Process.boot
  rw [hopen]
  cases answer with
  | error status => exact hbad status rfl
  | ok result =>
    have hsound := ((ht.open hopen).1 result.1 result.2 rfl).1
    have hissuing := hok result.1 result.2 rfl
    obtain ⟨opened, report⟩ := result
    simp only at hsound hissuing ⊢
    cases hmode : options.readOnly with
    | true =>
      have hstart : Engine.start options id env opened =
          .ok ⟨options, opened, ⟨opened.state.lastEpoch, id⟩, opened.state.sequence⟩ := by
        unfold Engine.start
        rw [if_pos hmode]
      rw [hstart]
      exact .up hissuing
    | false =>
      have hcommits := start_commits id env hsound.handle.bound hsound.handle.tables hmode
      have hafter := hissuing.commits hsound (fun hc => absurd rfl hc) hcommits
      cases hstart : Engine.start options id env opened with
      | error failed =>
        rw [hstart] at hafter
        exact hafter.leaves
      | ok e =>
        rw [hstart] at hafter
        exact .up hafter

theorem Allotted.step (h : Allotted limits p) (ht : Tracked limits p) (a : Step)
    (hlimits : ∀ options opening id env, a = .boot options opening id env → options.limits = limits) :
    Allotted limits (p.step a).2 := by
  cases p with
  | down dir last =>
    cases a with
    | boot options opening id env => exact h.boot ht (hlimits options opening id env rfl) opening id env
    | call operation env => exact h
    | exit => exact h
  | up e =>
    cases h with
    | up h =>
      cases a with
      | boot options opening id env => exact .up h
      | exit => exact h.leaves
      | call operation env =>
        obtain ⟨hsound, hepoch⟩ := ht.sound
        exact .up (h.commits hsound (fun _ => hepoch) (call_commits ht.consistent env operation))

theorem run_allotted {allowed : Process → Step → Prop} (h : Run limits allowed p) : Allotted limits p := by
  induction h with
  | start => exact .blank ⟨rfl, rfl⟩ rfl
  | step h a ha hlimits ih => exact ih.step (run_tracked h) a hlimits

/-- **`identities_never_reused`**: as long as fewer than `2^64 - 1` attempts were issued, their identities
ascend strictly from the first to the last and are never zero, and a running engine's counter is above
every identity whose issue it was told of or found in its files, and above every attempt in its table. -/
theorem identities_never_reused {allowed : Process → Step → Prop} (h : Run limits allowed p)
    (hfew : FewIssued limits p.log) :
    (issuedIds limits p.log).Pairwise (· < ·) ∧ (∀ id ∈ issuedIds limits p.log, id ≠ 0) ∧
      ∀ e, p = .up e → (∀ id ∈ acknowledgedIds limits p.log, id < e.store.state.nextAttempt) ∧
        (e.store.journal.writeFailed = false → ∀ id ∈ issuedIds limits p.log, id < e.store.state.nextAttempt) ∧
        ∀ k a, e.store.state.attempts.find? k = some a → k < e.store.state.nextAttempt := by
  cases run_allotted h with
  | @blank dir last hblank hlog =>
    have hempty : issuedIds limits (Process.down dir last).log = [] := by
      rw [show (Process.down dir last).log = [] from hlog]
      rfl
    simp [hempty]
  | down hholds hl => exact ⟨(hl hfew).increasing, (hl hfew).positive, by simp⟩
  | lost hpresent hjournal hshort hl => exact ⟨(hl hfew).1, (hl hfew).2, by simp⟩
  | up hissuing =>
    obtain ⟨hincreasing, hpositive, hahead⟩ := hissuing.ahead hfew
    refine ⟨hincreasing, hpositive, ?_⟩
    intro e heq
    rw [Process.up.injEq] at heq
    subst heq
    exact ⟨hahead.acknowledged, hissuing.settled hfew, hahead.table⟩

/-- One dispatch in a fresh store. -/
theorem identities_never_reused_first :
    issuedIds {} sampleFlight.log = [1] ∧ ∃ e, sampleFlight = .up e ∧ 1 < e.store.state.nextAttempt := by
  have hfacts : (sampleFlight.runs fun e => decide (issuedIds {} e.store.directory.log = [1] ∧
      acknowledgedIds {} e.store.directory.log = [1])) = true := by
    rw [sampleFlight_eq]
    decide +kernel
  obtain ⟨e, he, hids⟩ := Process.runs_iff.mp hfacts
  obtain ⟨hissued, hacknowledged⟩ := of_decide_eq_true hids
  have hflight : Run {} (fun _ _ => True) sampleFlight :=
    Run.start.later (sampleFlight_run.ofStart.mono fun _ _ _ => trivial)
  rw [he] at hflight ⊢
  have hfew : FewIssued {} (Process.up e).log := by
    unfold FewIssued
    rw [show (Process.up e).log = e.store.directory.log from rfl, hissued]
    decide
  obtain ⟨-, -, hup⟩ := identities_never_reused hflight hfew
  refine ⟨hissued, e, rfl, (hup e rfl).1 1 ?_⟩
  rw [show (Process.up e).log = e.store.directory.log from rfl, hacknowledged]
  simp

end Process

end FabricReconciliation
