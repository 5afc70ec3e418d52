import FabricReconciliation.Tables

/-!
# Epoch stamps in every run

Here any append, any compaction and any opening may fail. Memory and files then differ by at most one
record, and once record numbers have wrapped around `Open` may apply covered entries a second time.
What the tables say about epochs survives all of it, since an entry may be absorbed in any state whose
epoch is new enough.

* **`run_tracked`** — in every reachable process the stored stamps are at most `last_epoch`, histories
  are not empty, and a table above its bound holds in-flight attempts only.
-/

namespace FabricReconciliation

open Lib

/-! ## Stamped records and tables -/

/-- What a record may carry when `n` is the newest epoch. -/
def Event.Stamped (n : CoordinatorEpoch) : Event → Prop
  | .observationCommit d => d.receivedEpoch ≤ n
  | .attemptIssued a => a.epoch ≤ n ∧ a.transitions ≠ []
  | .attemptTransition a => a.epoch ≤ n ∧ a.transitions ≠ []
  | _ => True

theorem Event.Stamped.mono {m n : CoordinatorEpoch} {e : Event} (h : e.Stamped m) (hmn : m ≤ n) : e.Stamped n := by
  cases e with
  | observationCommit d => exact le_trans h hmn
  | attemptIssued a => exact ⟨le_trans h.1 hmn, h.2⟩
  | attemptTransition a => exact ⟨le_trans h.1 hmn, h.2⟩
  | _ => trivial

/-- The tables of an engine's store. -/
structure Stamped (limits : RuntimeLimits) (s : DurableState) : Prop where
  entries : EntriesFit s
  observations : ∀ e ∈ s.observations.entries, ∀ d ∈ e.2, d.receivedEpoch ≤ s.lastEpoch
  attempts : ∀ e ∈ s.attempts.entries, e.2.epoch ≤ s.lastEpoch ∧ e.2.transitions ≠ []
  trimmed : limits.maxRetainedAttempts.toNat < s.attempts.size →
    ∀ e ∈ s.attempts.entries, e.2.state.isTerminal = false

theorem Stamped.of_tables {limits : RuntimeLimits} {s t : DurableState} (h : Stamped limits s)
    (he : s.tables = t.tables) : Stamped limits t := by
  obtain ⟨h1, -, -, -, -, -, h2, h3, -, -⟩ := tables_eq_iff.mp he
  exact ⟨h.entries.of_tables he, by rw [← h1, ← h2]; exact h.observations,
    by rw [← h1, ← h3]; exact h.attempts, by rw [← h3]; exact h.trimmed⟩

theorem stamped_initial (limits : RuntimeLimits) (store : StoreId) : Stamped limits { store := store } :=
  ⟨by constructor <;> simp [OrdMap.empty], by simp [OrdMap.empty], by simp [OrdMap.empty], by simp [OrdMap.empty]⟩

/-- After trimming, the table is within its bound or nothing in it can be evicted. -/
theorem trimAttempts_settles {bound : Nat} : ∀ {rounds : Nat} {m : OrdMap UInt64 AttemptRecord}, m.size ≤ rounds →
    bound < (trimAttempts rounds bound m).size →
    ∀ e ∈ (trimAttempts rounds bound m).entries, e.2.state.isTerminal = false := by
  intro rounds
  induction rounds with
  | zero =>
    intro m hrounds hover e he
    have hempty : m.entries = [] := List.length_eq_zero_iff.mp (by simpa [OrdMap.size] using hrounds)
    rw [show trimAttempts 0 bound m = m from rfl, hempty] at he
    simp at he
  | succ rounds ih =>
    intro m hrounds
    unfold trimAttempts
    split
    · split
      next hnone =>
        intro _ e he
        simpa using List.find?_eq_none.mp hnone e he
      next victim hvictim =>
        refine ih ?_
        have hfind : m.find? victim.1 = some victim.2 :=
          OrdMap.find?_eq_some_iff.mpr (List.mem_of_find?_eq_some hvictim)
        have hsize := OrdMap.size_erase_of_mem hfind
        omega
    next hle =>
      intro hover
      exact absurd hover hle

section Records

variable {limits : RuntimeLimits} {s t : DurableState} {e : Event}

theorem Stamped.applyAttempt (h : Stamped limits s) {a : AttemptRecord} (hfit : EntriesFit (applyAttempt limits a s))
    (ha : a.epoch ≤ s.lastEpoch ∧ a.transitions ≠ []) : Stamped limits (applyAttempt limits a s) := by
  refine ⟨hfit, h.observations, ?_, trimAttempts_settles (le_refl _)⟩
  intro entry hentry
  rcases OrdMap.mem_insertEntry (mem_trimAttempts hentry) with rfl | hold
  · exact ha
  · exact h.attempts entry hold

/-- A stamped record keeps the tables stamped. -/
theorem Stamped.applyEvent (h : Stamped limits s) (hp : e.payload ≠ []) (he : e.Stamped s.lastEpoch) :
    Stamped limits (applyEvent limits s e) := by
  have hfit : EntriesFit (FabricReconciliation.applyEvent limits s e) := h.entries.applyEvent hp
  cases e with
  | policyPut policy => exact { h with entries := hfit }
  | intentCommit d => exact { h with entries := hfit }
  | observationCommit d =>
    refine { h with entries := hfit, observations := ?_ }
    intro entry hentry doc hdoc
    rcases OrdMap.mem_insertEntry hentry with rfl | hold
    · rcases List.mem_append.mp (mem_of_mem_keepLast hdoc) with hkept | hnew
      · cases hfind : s.observations.find? d.withKeyIds.scope with
        | none => simp [hfind] at hkept
        | some stream =>
          rw [hfind] at hkept
          exact h.observations _ (OrdMap.find?_eq_some_iff.mp hfind) doc hkept
      · rw [List.mem_singleton.mp hnew]
        exact he
    · exact h.observations entry hold doc hdoc
  | attemptIssued a => exact h.applyAttempt hfit he
  | attemptTransition a => exact h.applyAttempt hfit he
  | outcomeCommit o => exact { h with entries := hfit }
  | fencePut f => exact { h with entries := hfit }
  | fenceClear id => exact { h with entries := hfit }
  | epochAdvance epoch =>
    have hle : s.lastEpoch ≤ (applyEpoch epoch s).lastEpoch := by
      unfold applyEpoch
      split
      next hlt => exact le_of_lt hlt
      next => exact le_refl _
    exact ⟨hfit, fun entry hentry d hd => le_trans (h.observations entry hentry d hd) hle,
      fun entry hentry => ⟨le_trans (h.attempts entry hentry).1 hle, (h.attempts entry hentry).2⟩, h.trimmed⟩

/-- The epoch after a record depends on nothing but the epoch before it. -/
theorem lastEpoch_applyEvent_congr (h : s.lastEpoch = t.lastEpoch) (e : Event) :
    (applyEvent limits s e).lastEpoch = (applyEvent limits t e).lastEpoch := by
  cases e with
  | epochAdvance epoch =>
    show (if s.lastEpoch < epoch then epoch else s.lastEpoch) = if t.lastEpoch < epoch then epoch else t.lastEpoch
    rw [h]
  | _ => exact h

theorem le_lastEpoch_applyEvent (limits : RuntimeLimits) (s : DurableState) (e : Event) :
    s.lastEpoch ≤ (applyEvent limits s e).lastEpoch := by
  cases e with
  | epochAdvance epoch =>
    show s.lastEpoch ≤ if s.lastEpoch < epoch then epoch else s.lastEpoch
    split
    next hlt => exact le_of_lt hlt
    next => exact le_refl _
  | _ => exact le_refl _

end Records

/-! ## Stamped entries -/

/-- An entry that an engine wrote when `n` was the newest epoch, or earlier. -/
structure Written (limits : RuntimeLimits) (n : CoordinatorEpoch) (entry : RecordType × Bytes) (e : Event) : Prop where
  entry : entry = (e.type, e.payload)
  payload : e.payload ≠ []
  document : e.isDocument = true → e.Ok limits
  stamped : e.Stamped n

/-- An entry that was absorbed when `n` was the newest epoch, or earlier. -/
structure Absorbed (limits : RuntimeLimits) (n : CoordinatorEpoch) (entry : RecordType × Bytes) (e : Event) : Prop
    extends Written limits n entry e where
  settled : ∀ epoch, e = .epochAdvance epoch → epoch ≤ n

/-- Each entry is stamped no later than the epoch it finds. -/
def Chain (limits : RuntimeLimits) : DurableState → List (RecordType × Bytes) → Prop
  | _, [] => True
  | s, entry :: rest => (∃ e, Written limits s.lastEpoch entry e) ∧ Chain limits (absorb limits s entry) rest

section Entries

variable {limits : RuntimeLimits} {m n : CoordinatorEpoch} {s t : DurableState} {entry : RecordType × Bytes}
  {entries more : List (RecordType × Bytes)} {e : Event}

theorem Written.mono (h : Written limits m entry e) (hmn : m ≤ n) : Written limits n entry e :=
  { h with stamped := h.stamped.mono hmn }

theorem Absorbed.mono (h : Absorbed limits m entry e) (hmn : m ≤ n) : Absorbed limits n entry e :=
  { h.toWritten.mono hmn with settled := fun epoch he => le_trans (h.settled epoch he) hmn }

/-- Absorbing a written entry applies its record, or does nothing. -/
theorem Written.absorb_cases (h : Written limits n entry e) (s : DurableState) :
    e.Ok limits ∧ absorb limits s entry = applyEvent limits s e ∨ ¬ e.Ok limits ∧ absorb limits s entry = s := by
  rw [h.entry]
  unfold absorb
  by_cases hok : e.Ok limits
  · exact .inl ⟨hok, by rw [applyPayload_event s hok h.payload]⟩
  · have hnot : e.isDocument = false := by simpa using fun hd => hok (h.document hd)
    obtain ⟨status, hrefused⟩ := applyPayload_refused s hnot hok h.payload
    exact .inr ⟨hok, by rw [hrefused]⟩

theorem Written.le_lastEpoch (h : Written limits n entry e) (s : DurableState) :
    s.lastEpoch ≤ (absorb limits s entry).lastEpoch := by
  rcases h.absorb_cases s with ⟨-, heq⟩ | ⟨-, heq⟩
  · rw [heq]
    exact le_lastEpoch_applyEvent limits s e
  · rw [heq]

theorem Written.lastEpoch_congr (h : Written limits n entry e) (hst : s.lastEpoch = t.lastEpoch) :
    (absorb limits s entry).lastEpoch = (absorb limits t entry).lastEpoch := by
  rcases h.absorb_cases s with ⟨hok, hs⟩ | ⟨hbad, hs⟩ <;> rcases h.absorb_cases t with ⟨hok', ht⟩ | ⟨hbad', ht⟩
  · rw [hs, ht]
    exact lastEpoch_applyEvent_congr hst e
  · exact absurd hok hbad'
  · exact absurd hok' hbad
  · rw [hs, ht, hst]

theorem Written.stamps (h : Written limits s.lastEpoch entry e) (hs : Stamped limits s) :
    Stamped limits (absorb limits s entry) := by
  rcases h.absorb_cases s with ⟨-, heq⟩ | ⟨-, heq⟩
  · rw [heq]
    exact hs.applyEvent h.payload h.stamped
  · rw [heq]
    exact hs

/-- Once absorbed, an entry raises the epoch no further. -/
theorem Written.absorbed (h : Written limits s.lastEpoch entry e) :
    Absorbed limits (absorb limits s entry).lastEpoch entry e := by
  refine { h.mono (h.le_lastEpoch s) with settled := ?_ }
  rintro epoch rfl
  rcases h.absorb_cases s with ⟨-, heq⟩ | ⟨hbad, -⟩
  · rw [heq]
    show epoch ≤ if s.lastEpoch < epoch then epoch else s.lastEpoch
    split
    next => exact le_refl _
    next hge => exact not_lt.mp hge
  · exact absurd trivial hbad

theorem Absorbed.lastEpoch (h : Absorbed limits s.lastEpoch entry e) :
    (absorb limits s entry).lastEpoch = s.lastEpoch := by
  rcases h.toWritten.absorb_cases s with ⟨-, heq⟩ | ⟨-, heq⟩
  · rw [heq]
    cases e with
    | epochAdvance epoch =>
      show (if s.lastEpoch < epoch then epoch else s.lastEpoch) = s.lastEpoch
      rw [if_neg (not_lt.mpr (h.settled epoch rfl))]
    | _ => rfl
  · rw [heq]

theorem Chain.stamps (h : Chain limits s entries) (hs : Stamped limits s) :
    Stamped limits (absorbAll limits entries s) := by
  induction entries generalizing s with
  | nil => exact hs
  | cons entry rest ih =>
    obtain ⟨⟨e, he⟩, hrest⟩ := h
    exact ih hrest (he.stamps hs)

theorem Chain.append : Chain limits s (entries ++ more) ↔
    Chain limits s entries ∧ Chain limits (absorbAll limits entries s) more := by
  induction entries generalizing s with
  | nil => simp [Chain, absorbAll]
  | cons entry rest ih =>
    simp only [List.cons_append, Chain, ih, and_assoc]
    rfl

/-- A chain only reads the epoch it starts from. -/
theorem Chain.congr (h : Chain limits s entries) (hst : s.lastEpoch = t.lastEpoch) :
    Chain limits t entries ∧ (absorbAll limits entries s).lastEpoch = (absorbAll limits entries t).lastEpoch := by
  induction entries generalizing s t with
  | nil => exact ⟨trivial, hst⟩
  | cons entry rest ih =>
    obtain ⟨⟨e, he⟩, hrest⟩ := h
    obtain ⟨hchain, hlast⟩ := ih hrest (he.lastEpoch_congr hst)
    exact ⟨⟨⟨e, hst ▸ he⟩, hchain⟩, hlast⟩

theorem Chain.le_lastEpoch (h : Chain limits s entries) : s.lastEpoch ≤ (absorbAll limits entries s).lastEpoch := by
  induction entries generalizing s with
  | nil => exact le_refl _
  | cons entry rest ih =>
    obtain ⟨⟨e, he⟩, hrest⟩ := h
    exact le_trans (he.le_lastEpoch s) (ih hrest)

/-- The entries of a chain are absorbed at its end. -/
theorem Chain.absorbed (h : Chain limits s entries) :
    ∀ entry ∈ entries, ∃ e, Absorbed limits (absorbAll limits entries s).lastEpoch entry e := by
  induction entries generalizing s with
  | nil => simp
  | cons first rest ih =>
    obtain ⟨⟨e, he⟩, hrest⟩ := h
    intro entry hmem
    rcases List.mem_cons.mp hmem with rfl | hmem
    · exact ⟨e, he.absorbed.mono hrest.le_lastEpoch⟩
    · exact ih hrest entry hmem

/-- Entries that were absorbed before form a chain that leaves the epoch alone. -/
theorem chain_of_absorbed (h : ∀ entry ∈ entries, ∃ e, Absorbed limits s.lastEpoch entry e) :
    Chain limits s entries ∧ (absorbAll limits entries s).lastEpoch = s.lastEpoch := by
  induction entries generalizing s with
  | nil => exact ⟨trivial, rfl⟩
  | cons first rest ih =>
    obtain ⟨e, he⟩ := h first (List.mem_cons_self ..)
    have hrest : ∀ entry ∈ rest, ∃ e, Absorbed limits (absorb limits s first).lastEpoch entry e := by
      intro entry hmem
      rw [he.lastEpoch]
      exact h entry (List.mem_cons_of_mem first hmem)
    obtain ⟨hchain, hlast⟩ := ih hrest
    exact ⟨⟨⟨e, he.toWritten⟩, hchain⟩, hlast.trans he.lastEpoch⟩

end Entries

/-! ## Stores -/

/-- Files that engines wrote: what the snapshot covers was absorbed, the rest continues it. -/
structure Recorded (limits : RuntimeLimits) (c : Contents) (extra : List (RecordType × Bytes)) : Prop where
  start : Stamped limits c.start
  covered : ∀ entry ∈ c.entries.take c.covered, ∃ e, Absorbed limits c.start.lastEpoch entry e
  chain : Chain limits c.start (c.entries.drop c.covered ++ extra)

/-- A store of an engine, whatever happened to its I/O. -/
inductive Sound (limits : RuntimeLimits) (s : DurableStore) : Prop
  | live {c : Contents} {extra again : List (RecordType × Bytes)} (h : Live limits c extra again s)
      (hr : Recorded limits c extra)
  | lost (h : Lost limits s) (hs : Stamped limits s.state)

section Store

variable {limits : RuntimeLimits} {c : Contents} {extra again : List (RecordType × Bytes)} {s t : DurableStore}
  {e : Event} {env : CallEnv}

/-- The memory of a live store. The entries applied twice leave the epoch alone. -/
theorem Recorded.memory (hr : Recorded limits c extra) (h : Live limits c extra again s) :
    Stamped limits s.state ∧
      s.state.lastEpoch = (absorbAll limits (c.entries.drop c.covered) c.start).lastEpoch := by
  obtain ⟨hagain, hsame⟩ := chain_of_absorbed fun entry hmem => hr.covered entry (h.repeated entry hmem)
  obtain ⟨hdrop, hlast⟩ := (Chain.append.mp hr.chain).1.congr hsame.symm
  have hstamped := (Chain.append.mpr ⟨hagain, hdrop⟩).stamps hr.start
  have htables := tables_of_core h.memory
  refine ⟨hstamped.of_tables htables.symm, ?_⟩
  rw [(tables_eq_iff.mp htables).1, absorbAll_append, hlast]

theorem Sound.stamped (h : Sound limits s) : Stamped limits s.state := by
  cases h with
  | live h hr => exact (hr.memory h).1
  | lost h hs => exact hs

theorem Sound.handle (h : Sound limits s) : Handle limits s := by
  cases h with
  | live h hr => exact h.toHandle
  | lost h hs => exact h.toHandle

theorem Recorded.tail (hr : Recorded limits c extra) (tail : Bytes) : Recorded limits { c with tail := tail } extra :=
  ⟨hr.start, hr.covered, hr.chain⟩

/-- The record that follows, acknowledged or not. -/
theorem Recorded.next (hr : Recorded limits c extra) (h : Live limits c extra again s)
    (he : Written limits s.state.lastEpoch (e.type, e.payload) e) :
    Recorded limits (c.with [(e.type, e.payload)]) [] ∧ Recorded limits c [(e.type, e.payload)] ∧
      Recorded limits c [] := by
  have hdrop := (Chain.append.mp hr.chain).1
  have hchain : Chain limits c.start (c.entries.drop c.covered ++ [(e.type, e.payload)]) := by
    refine Chain.append.mpr ⟨hdrop, ⟨e, ?_⟩, trivial⟩
    rw [← (hr.memory h).2]
    exact he
  refine ⟨⟨hr.start, ?_, ?_⟩, ⟨hr.start, hr.covered, hchain⟩, ⟨hr.start, hr.covered, by rw [List.append_nil]; exact hdrop⟩⟩
  · rw [take_with c h.covered]
    exact hr.covered
  · rw [drop_with c h.covered, List.append_nil]
    exact hchain

theorem Sound.logged (h : Sound limits s) (log : List Appending) (faults : List WriteIo) :
    Sound limits { s with directory := { s.directory with log := log }, faults := faults } := by
  cases h with
  | live h hr => exact .live (h.logged log faults) hr
  | lost h hs => exact .lost { h with } hs

/-- One commit, with any outcome. -/
theorem Sound.commit (h : Sound limits s) (what : String) (hdoc : e.isDocument = true → e.Ok limits)
    (hstamped : e.Stamped s.state.lastEpoch) : Sound limits (s.commit what e).2 := by
  unfold DurableStore.commit
  by_cases hro : s.readOnly = true
  · rw [if_pos hro]
    exact h
  rw [if_neg hro]
  by_cases hp : e.payload = []
  · rw [if_pos hp]
    exact h
  rw [if_neg hp]
  have hwritten : Written limits s.state.lastEpoch (e.type, e.payload) e := ⟨rfl, hp, hdoc, hstamped⟩
  cases h with
  | live h hr =>
    have htype : e.type ≠ .invalid := by cases e <;> simp [Event.type]
    obtain ⟨happended, hextra, hbare⟩ := hr.next h hwritten
    rcases append_live h (e.type, e.payload) htype (length_payload_lt_word e) with
      ⟨-, hsame, -⟩ | ⟨-, -, -, -, -, -, hlive⟩ | ⟨-, -, -, -, -, -, hlive⟩ |
      ⟨-, -, -, -, -, tail, -, extra', hcase, -, hlive⟩
    · rw [show (s.appendAndApply e.type e.payload).2 = _ from hsame]
      exact (Sound.live h hr).logged _ _
    · exact .live hlive happended
    · exact .live hlive happended
    · rcases hcase with rfl | ⟨rfl, -⟩
      · exact .live hlive (hbare.tail tail)
      · exact .live hlive (hextra.tail tail)
  | lost h hs =>
    obtain ⟨bytes, hfile, -⟩ := h.short
    obtain ⟨status, hs', happ⟩ := append_refused (.inr h.closed) e.type e.payload (s.faults.headD .ok)
      (s.directory.journal.getD [])
    obtain ⟨-, hsame⟩ := appendAndApply_skips hfile (e.type, e.payload) hs' happ
    rw [show (s.appendAndApply e.type e.payload).2 = _ from hsame]
    exact (Sound.lost h hs).logged _ _

/-- The state a snapshot carries. -/
theorem Stamped.published {st : DurableState} (h : Stamped limits st) {q : RecordSequence} {n : UInt64} :
    Stamped limits { st with sequence := q, compactions := n } := h.of_tables rfl

/-- One compaction, with any outcome. -/
theorem Sound.compact (h : Sound limits s) (io : CompactIo) (now headerNow : UnixMillis) :
    Sound limits (s.compact io now headerNow).2 := by
  have hstamped := h.stamped
  rcases compact_cases h.handle hstamped.entries io now headerNow with
    ⟨-, staging, hsame⟩ | ⟨-, hp, -, hsame⟩ | ⟨-, -, -, -, hlive⟩ | ⟨-, hstate, -, -, hlost⟩
  · rw [hsame]
    cases h with
    | live h hr => exact .live (h.staging staging) hr
    | lost h hs => exact .lost { h with } hs
  · rw [show (s.compact io now headerNow).2 = s.shut now from hsame]
    cases h with
    | lost h hs => exact .lost (h.shut now) hs
    | @live c extra _ h hr =>
      refine .live (h.shut hstamped.entries hp now) ⟨hstamped.published, ?_, ?_⟩
      · -- every entry is absorbed in the state that the snapshot now holds
        obtain ⟨hdrop, -⟩ := Chain.append.mp hr.chain
        have hlast := (hr.memory h).2
        intro entry hmem
        have hentry : entry ∈ c.entries.take c.covered ++ c.entries.drop c.covered := by
          rw [List.take_append_drop]
          exact List.mem_of_mem_take hmem
        rcases List.mem_append.mp hentry with htake | hmemDrop
        · obtain ⟨e, he⟩ := hr.covered entry htake
          refine ⟨e, he.mono ?_⟩
          show _ ≤ s.state.lastEpoch
          rw [hlast]
          exact hdrop.le_lastEpoch
        · obtain ⟨e, he⟩ := hdrop.absorbed entry hmemDrop
          refine ⟨e, he.mono ?_⟩
          show _ ≤ s.state.lastEpoch
          rw [hlast]
      · obtain ⟨-, hextra⟩ := Chain.append.mp hr.chain
        rw [show (c.sealed s now).entries.drop (c.sealed s now).covered = [] by simp [Contents.sealed]]
        exact (hextra.congr (t := (c.sealed s now).start) (hr.memory h).2.symm).1
  · exact .live hlive ⟨hstamped.published, by simp [DurableStore.restarted], by simp [DurableStore.restarted, Chain]⟩
  · exact .lost hlost (by rw [hstate]; exact hstamped)

/-! Sequences of commits -/

/-- What an engine may write, under an epoch that is no newer than the newest one. -/
theorem Write.stamped {live : Incarnation} {cause : Option Operation} {st : DurableState}
    (hw : Write limits live cause st e) (htables : TablesOk limits st) (hst : Stamped limits st)
    (hlive : cause ≠ none → live.epoch ≤ st.lastEpoch) : e.Stamped st.lastEpoch := by
  cases hw with
  | observationCommit d hok hepoch hcause =>
    obtain ⟨submission, stamp, rfl, -⟩ := hcause
    show d.receivedEpoch ≤ st.lastEpoch
    rw [hepoch]
    exact hlive (by simp)
  | attemptIssued p d now hcause hd hact hnone => exact ⟨hlive (by simp [hcause]), by simp [Engine.newAttempt]⟩
  | attemptTransition a a' hm hc =>
    have hmem := OrdMap.find?_eq_some_iff.mp hm.stored
    obtain ⟨hepoch, hhistory⟩ := hst.attempts _ hmem
    obtain ⟨hok, -⟩ := htables.attempts _ hmem
    refine ⟨?_, (hm.history hhistory hok.history).1⟩
    rw [hm.same]
    exact hepoch
  | _ => trivial

/-- A failed commit leaves the epoch, an effective one never lowers it. -/
theorem le_lastEpoch_commit (s : DurableStore) (what : String) (hdoc : e.isDocument = true → e.Ok s.limits) :
    s.state.lastEpoch ≤ (s.commit what e).2.state.lastEpoch := by
  rcases commit_result (s := s) what hdoc with ⟨-, -, q, hq⟩ | ⟨-, q, hq⟩
  · rw [hq]
    exact le_lastEpoch_applyEvent s.limits s.state e
  · rw [hq]

/-- Whatever an engine commits keeps its store sound. -/
theorem Sound.commits {live : Incarnation} {cause : Option Operation} (h : Sound limits s)
    (hlive : cause ≠ none → live.epoch ≤ s.state.lastEpoch) (hc : Commits (Write limits live cause) env s t) :
    Sound limits t ∧ s.state.lastEpoch ≤ t.state.lastEpoch := by
  induction hc with
  | refl => exact ⟨h, le_refl _⟩
  | @commit u hc what e he ih =>
    obtain ⟨hu, hle⟩ := ih
    have hstamped := he.stamped hu.handle.tables hu.stamped fun hcause => le_trans (hlive hcause) hle
    refine ⟨hu.commit what he.document hstamped, le_trans hle (le_lastEpoch_commit u what ?_)⟩
    rw [hu.handle.bound]
    exact he.document
  | @compact u hc ih =>
    obtain ⟨hu, hle⟩ := ih
    obtain ⟨q, n, hstate⟩ := compact_state u env.io env.snapshotNow env.headerNow
    exact ⟨hu.compact env.io env.snapshotNow env.headerNow, by rw [hstate]; exact hle⟩
  | faults hc ih => exact ⟨ih.1.logged _ env.faults, ih.2⟩

/-- What every record that the cause allows preserves holds after any of its commits. -/
theorem Sound.invariant {P : DurableState → Prop} {live : Incarnation} {cause : Option Operation}
    (h : Sound limits s) (hlive : cause ≠ none → live.epoch ≤ s.state.lastEpoch)
    (hc : Commits (Write limits live cause) env s t)
    (hcongr : ∀ {st st' : DurableState}, st.tables = st'.tables → P st → P st')
    (hwrite : ∀ {st : DurableState} {ev : Event}, Stamped limits st → TablesOk limits st →
      Write limits live cause st ev → P st → P (applyEvent limits st ev)) (hs : P s.state) : P t.state := by
  induction hc with
  | refl => exact hs
  | @commit u hu what ev he ih =>
    obtain ⟨hsound, -⟩ := h.commits hlive hu
    have hbound := hsound.handle.bound
    rcases commit_result (s := u) what (by rw [hbound]; exact he.document) with ⟨-, -, q, hq⟩ | ⟨-, q, hq⟩
    · rw [hq, hbound]
      exact hcongr (show (applyEvent limits u.state ev).tables = _ from rfl)
        (hwrite hsound.stamped hsound.handle.tables he ih)
    · rw [hq]
      exact hcongr (show u.state.tables = _ from rfl) ih
  | @compact u hu ih =>
    obtain ⟨q, n, hstate⟩ := compact_state u env.io env.snapshotNow env.headerNow
    rw [hstate]
    exact hcongr (show u.state.tables = _ from rfl) ih
  | faults hu ih => exact ih

end Store

/-! ## Processes -/

/-- The processes of any run. -/
inductive Tracked (limits : RuntimeLimits) : Process → Prop
  | blank {dir : Directory} {last : DurableState} (hblank : Blank dir) (hlast : Stamped limits last) :
      Tracked limits (.down dir last)
  | down {c : Contents} {dir : Directory} {last : DurableState} (h : Holds limits c dir) (hr : Recorded limits c [])
      (hlast : Stamped limits last) : Tracked limits (.down dir last)
  | lost {dir : Directory} {last : DurableState} {bytes : Bytes} (hpresent : dir.present = true)
      (hjournal : dir.journal = some bytes) (hshort : bytes.length < 96) (hlast : Stamped limits last) :
      Tracked limits (.down dir last)
  | up {e : Engine} (h : Sound limits e.store) (hoptions : e.options.limits = limits)
      (hepoch : e.live.epoch ≤ e.store.state.lastEpoch) : Tracked limits (.up e)

section Process

variable {limits : RuntimeLimits} {p : Process}

theorem Tracked.stamped (h : Tracked limits p) : Stamped limits p.state := by
  cases h with
  | blank hblank hlast => exact hlast
  | down h hr hlast => exact hlast
  | lost hpresent hjournal hshort hlast => exact hlast
  | up h hoptions hepoch => exact h.stamped

/-- The directory that a store leaves behind. -/
theorem Sound.leaves {s : DurableStore} (h : Sound limits s) : Tracked limits (.down s.directory s.state) := by
  have hstamped := h.stamped
  cases h with
  | lost h hs =>
    obtain ⟨bytes, hjournal, hshort⟩ := h.short
    exact .lost h.present hjournal hshort hs
  | live h hr =>
    refine .down h.holds ⟨hr.start, ?_, ?_⟩ hstamped
    · rw [take_with _ h.covered]
      exact hr.covered
    · rw [drop_with _ h.covered, List.append_nil]
      exact hr.chain

theorem Recorded.trimmed {c : Contents} (hr : Recorded limits c []) : Recorded limits c.trimmed [] :=
  ⟨hr.start, hr.covered, hr.chain⟩

theorem recorded_created (limits : RuntimeLimits) (env : DurableStore.OpenEnv) : Recorded limits env.contents [] :=
  ⟨stamped_initial limits env.fresh, by simp [DurableStore.OpenEnv.contents],
    by simp [DurableStore.OpenEnv.contents, Chain]⟩

/-- A store that opens is sound, one that does not is left as it was. -/
theorem Tracked.open {dir dir' : Directory} {last : DurableState} (h : Tracked limits (.down dir last))
    {createIfMissing readOnly : Bool} {opening : DurableStore.OpenEnv}
    {answer : Except Status (DurableStore × DurableStore.StoreOpenReport)}
    (hopen : DurableStore.open limits createIfMissing readOnly opening dir = (dir', answer)) :
    (∀ opened report, answer = .ok (opened, report) → Sound limits opened ∧ opened.readOnly = readOnly) ∧
      (∀ status, answer = .error status → Tracked limits (.down dir' last)) := by
  cases h with
  | blank hblank hlast =>
    have hcreated := open_blank limits createIfMissing readOnly opening hblank
    rw [hopen] at hcreated
    cases hcreated with
    | refused status hblank' => exact ⟨by simp, fun _ _ => .blank hblank' hlast⟩
    | torn status hio hdir =>
      refine ⟨by simp, fun _ _ => ?_⟩
      rcases hdir with hholds | ⟨hpresent, bytes, hjournal, hshort⟩
      · exact .down hholds (recorded_created limits opening) hlast
      · exact .lost hpresent hjournal hshort hlast
    | opened s report hstate hlive hflags hdir =>
      refine ⟨?_, by simp⟩
      intro opened report' heq
      rw [Except.ok.injEq, Prod.mk.injEq] at heq
      obtain ⟨rfl, -⟩ := heq
      exact ⟨.live hlive (recorded_created limits opening), hflags.2.2.1⟩
  | down hholds hr hlast =>
    cases answer with
    | error status =>
      refine ⟨by simp, fun _ _ => ?_⟩
      rcases open_failed hholds hopen with hdir | hdir
      · exact .down hdir hr hlast
      · exact .down hdir hr.trimmed hlast
    | ok result =>
      refine ⟨?_, by simp⟩
      intro opened report heq
      rw [heq] at hopen
      obtain ⟨again, state, -, -, -, hlive, -, -, hro, -⟩ := open_live hholds hopen
      exact ⟨.live hlive hr.trimmed, hro⟩
  | lost hpresent hjournal hshort hlast =>
    obtain ⟨dir'', status, hlost, hpresent', hjournal'⟩ :=
      open_lost limits createIfMissing readOnly opening hpresent hjournal hshort
    rw [hopen, Prod.mk.injEq] at hlost
    obtain ⟨rfl, rfl⟩ := hlost
    exact ⟨by simp, fun _ _ => .lost hpresent' hjournal' hshort hlast⟩

/-- A process that comes up has opened its store and booted from it. -/
theorem Tracked.boot {dir : Directory} {last : DurableState} (h : Tracked limits (.down dir last))
    {options : EngineOptions} (hoptions : options.limits = limits) (opening : DurableStore.OpenEnv) (id : BootId)
    (env : CallEnv) :
    Tracked limits (Process.boot dir last options opening id env).2 ∧
      ∀ e, (Process.boot dir last options opening id env).2 = .up e → options.readOnly = false →
        ∃ opened, Sound limits opened ∧ Booted options id opened e ∧
          Commits (Write limits (bootLive opened id) none) env opened e.store := by
  subst hoptions
  rcases hopen : DurableStore.open options.limits options.createIfMissing options.readOnly opening dir with
    ⟨dir', answer⟩
  obtain ⟨hok, hbad⟩ := h.open hopen
  unfold Process.boot
  rw [hopen]
  cases answer with
  | error status => exact ⟨hbad status rfl, by simp⟩
  | ok result =>
    obtain ⟨hopened, -⟩ := hok result.1 result.2 rfl
    obtain ⟨opened, report⟩ := result
    simp only at hopened ⊢
    cases hmode : options.readOnly with
    | true =>
      have hstart : Engine.start options id env opened =
          .ok ⟨options, opened, ⟨opened.state.lastEpoch, id⟩, opened.state.sequence⟩ := by
        unfold Engine.start
        rw [if_pos hmode]
      rw [hstart]
      exact ⟨.up hopened rfl (le_refl _), by simp⟩
    | false =>
      have hlim := hopened.handle.bound
      have htab := hopened.handle.tables
      have hcommits := start_commits id env hlim htab hmode
      obtain ⟨hsound, -⟩ := hopened.commits (fun hc => absurd rfl hc) hcommits
      cases hstart : Engine.start options id env opened with
      | error failed =>
        rw [hstart] at hsound
        exact ⟨hsound.leaves, by simp⟩
      | ok e =>
        have hbooted := start_ok hlim htab hmode hstart
        rw [hstart] at hsound hcommits
        refine ⟨.up hsound (by rw [hbooted.options]) (le_of_eq hbooted.epoch.symm), ?_⟩
        intro e' he' _
        rw [Process.up.injEq] at he'
        subst he'
        exact ⟨opened, hopened, hbooted, hcommits⟩

theorem Tracked.sound {e : Engine} (h : Tracked limits (.up e)) :
    Sound limits e.store ∧ e.live.epoch ≤ e.store.state.lastEpoch := by
  cases h with
  | up h hoptions hepoch => exact ⟨h, hepoch⟩

theorem Tracked.consistent {e : Engine} (h : Tracked limits (.up e)) : Consistent limits e := by
  cases h with
  | up h hoptions hepoch => exact ⟨hoptions, h.handle.bound, h.handle.tables⟩

theorem Tracked.step (h : Tracked limits p) (a : Step)
    (hlimits : ∀ options opening id env, a = .boot options opening id env → options.limits = limits) :
    Tracked limits (p.step a).2 := by
  cases p with
  | down dir last =>
    cases a with
    | boot options opening id env => exact (h.boot (hlimits options opening id env rfl) opening id env).1
    | call operation env => exact h
    | exit => exact h
  | up e =>
    cases a with
    | boot options opening id env => exact h
    | exit =>
      cases h with
      | up h hoptions hepoch => exact h.leaves
    | call operation env =>
      have hcommits := call_commits h.consistent env operation
      obtain ⟨hopt, hlive⟩ := call_frame e env operation
      cases h with
      | up h hoptions hepoch =>
        obtain ⟨hsound, hle⟩ := h.commits (fun _ => hepoch) hcommits
        refine .up hsound ?_ ?_
        · rw [hopt]
          exact hoptions
        · rw [hlive]
          exact le_trans hepoch hle

/-- **`run_tracked`**. -/
theorem run_tracked {allowed : Process → Step → Prop} (h : Run limits allowed p) : Tracked limits p := by
  induction h with
  | start => exact .blank ⟨rfl, rfl⟩ (stamped_initial limits _)
  | step h a ha hlimits ih => exact ih.step a hlimits

end Process

end FabricReconciliation
