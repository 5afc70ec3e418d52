import FabricReconciliation.View

/-!
# Stores behind their view

Any append may fail here, at any byte, and the process may go on or die. A compaction that replaces the
snapshot and is then denied the journal file leaves the two overlapping, and only record numbers tell
what is in both. `Process.Orderly` excludes it once these may have wrapped around, after `2^64` appends.

* **`Follows.commit`**, **`Follows.settle`**, **`Follows.compact`** — the store's operations in the view;
* **`step_progress`** — one step of a process;
* **`run_kept`** — what every step preserves in the view holds in every reachable process.
-/

namespace FabricReconciliation

open Lib

/-! ## Record numbers -/

/-- There are no more records than appends, and a snapshot that reaches into the journal is older than
the first number that was used twice. -/
structure Numbered (c : Contents) (log : List Appending) : Prop where
  count : c.base.toNat + c.entries.length ≤ log.length
  covered : c.base.toNat + c.covered < 2 ^ 64

section Numbers

variable {c : Contents} {log : List Appending}

theorem Numbered.grow (h : Numbered c log) (entry : RecordType × Bytes) (x : Appending) :
    Numbered (c.with [entry]) (log ++ [x]) := by
  refine ⟨?_, h.covered⟩
  have := h.count
  simp only [Contents.with, List.length_append, List.length_singleton]
  omega

theorem Numbered.skip (h : Numbered c log) (x : Appending) : Numbered c (log ++ [x]) := by
  refine ⟨?_, h.covered⟩
  have := h.count
  simp only [List.length_append]
  omega

/-- The last number used is no larger than their count. -/
theorem Numbered.last (h : Numbered c log) : c.last.toNat ≤ log.length := by
  have hcount := h.count
  have hmod := Nat.mod_le (c.base.toNat + (UInt64.ofNat c.entries.length).toNat) (2 ^ 64)
  have hlen : (UInt64.ofNat c.entries.length).toNat ≤ c.entries.length := by
    rw [UInt64.toNat_ofNat']
    exact Nat.mod_le _ _
  unfold Contents.last
  rw [UInt64.toNat_add]
  omega

theorem numbered_restarted {s : DurableStore} (h : s.journal.lastSequence.toNat ≤ log.length)
    (now headerNow : UnixMillis) : Numbered (s.restarted now headerNow) log :=
  ⟨by simpa [DurableStore.restarted] using h, by
    have := s.journal.lastSequence.toNat_lt
    simpa [DurableStore.restarted] using this⟩

theorem Numbered.sealed (h : Numbered c log) (hserial : log.length < 2 ^ 64) (s : DurableStore) (now : UnixMillis) :
    Numbered (c.sealed s now) log :=
  ⟨h.count, lt_of_le_of_lt h.count hserial⟩

end Numbers

/-! ## Stores -/

/-- The view of an open store. -/
inductive Follows (limits : RuntimeLimits) (s : DurableStore) : View → Prop
  /-- the files restore memory -/
  | level {c : Contents} (h : Live limits c [] [] s) (hnumbers : Numbered c s.directory.log)
      (hfit : EntriesFit s.state) : Follows limits s ⟨s.directory.log, s.state.tables, none⟩
  /-- they restore one record more -/
  | ahead {c : Contents} {e : Event} (h : Live limits c [(e.type, e.payload)] [] s)
      (hnumbers : Numbered (c.with [(e.type, e.payload)]) s.directory.log)
      (hfit : EntriesFit s.state) (hfits : e.Fits limits) (hdoc : e.isDocument = true → e.Ok limits) :
      Follows limits s ⟨s.directory.log, s.state.tables, some e⟩
  /-- they restore nothing -/
  | lost (h : Lost limits s) (hlast : s.journal.lastSequence.toNat ≤ s.directory.log.length)
      (hfit : EntriesFit s.state) : Follows limits s ⟨s.directory.log, s.state.tables, none⟩

section Store

variable {limits : RuntimeLimits} {s t : DurableStore} {v : View} {e : Event}

theorem Follows.handle (h : Follows limits s v) : Handle limits s := by
  cases h with
  | level h hnumbers hfit => exact h.toHandle
  | ahead h hnumbers hfit hfits hdoc => exact h.toHandle
  | lost h hlast hfit => exact h.toHandle

theorem Follows.entries (h : Follows limits s v) : EntriesFit s.state := by
  cases h with
  | level h hnumbers hfit => exact hfit
  | ahead h hnumbers hfit hfits hdoc => exact hfit
  | lost h hlast hfit => exact hfit

theorem Follows.log (h : Follows limits s v) : v.log = s.directory.log := by
  cases h <;> rfl

theorem Follows.memory (h : Follows limits s v) : v.memory = s.state.tables := by
  cases h <;> rfl

theorem Follows.last (h : Follows limits s v) : s.journal.lastSequence.toNat ≤ s.directory.log.length := by
  cases h with
  | level h hnumbers hfit =>
    rw [h.last]
    exact hnumbers.last
  | @ahead c e h hnumbers hfit hfits hdoc =>
    rw [h.last]
    have hfewer : Numbered c s.directory.log := by
      refine ⟨?_, hnumbers.covered⟩
      have hcount := hnumbers.count
      simp only [Contents.with, List.length_append] at hcount
      omega
    exact hfewer.last
  | lost h hlast hfit => exact hlast

/-- A journal in which no write failed holds nothing that memory does not. -/
theorem Follows.healthy (h : Follows limits s v) (hhealthy : s.journal.writeFailed = false) : v.pending = none := by
  cases h with
  | level h hnumbers hfit => rfl
  | ahead h hnumbers hfit hfits hdoc => simpa using (h.healthy hhealthy).1
  | lost h hlast hfit => rfl

theorem Follows.faults (h : Follows limits s v) (faults : List WriteIo) :
    Follows limits { s with faults := faults } v := by
  cases h with
  | level h hnumbers hfit => exact .level (h.faults faults) hnumbers hfit
  | ahead h hnumbers hfit hfits hdoc => exact .ahead (h.faults faults) hnumbers hfit hfits hdoc
  | lost h hlast hfit => exact .lost { h with } hlast hfit

/-- An append that leaves no trace but its log entry. -/
theorem Follows.skip (h : Follows limits s v) (hsame : Skipped s (e.type, e.payload) t) :
    Follows limits t { v with log := v.log ++ [e.appending false false] } := by
  rw [show t = _ from hsame]
  cases h with
  | level h hnumbers hfit => exact .level (h.logged _ _) (hnumbers.skip _) hfit
  | ahead h hnumbers hfit hfits hdoc => exact .ahead (h.logged _ _) (hnumbers.skip _) hfit hfits hdoc
  | lost h hlast hfit =>
    refine .lost { h with } ?_ hfit
    simp only [List.length_append]
    omega

/-- After a failed append the journal refuses all others. -/
theorem appendAndApply_stuck (hwf : s.journal.writeFailed = true) {file : Bytes}
    (hfile : s.directory.journal = some file) (entry : RecordType × Bytes) :
    (s.appendAndApply entry.1 entry.2).1.code ≠ .ok ∧ Skipped s entry (s.appendAndApply entry.1 entry.2).2 := by
  by_cases hshut : s.journal.readOnly = true ∨ s.journal.isOpen = false
  · obtain ⟨status, hs, happ⟩ := append_refused hshut entry.1 entry.2 (s.faults.headD .ok)
      (s.directory.journal.getD [])
    exact appendAndApply_skips hfile entry hs happ
  push Not at hshut
  rcases append_cases (by simpa using hshut.2) (by simpa using hshut.1) entry.1 entry.2 (s.faults.headD .ok)
    (s.directory.journal.getD []) with ⟨status, hs, happ, -⟩ | ⟨-, hno, -⟩ | ⟨-, hno, -⟩
  · exact appendAndApply_skips hfile entry hs happ
  · simp [hwf] at hno
  · simp [hwf] at hno

/-- **`Follows.commit`**. -/
theorem Follows.commit (h : Follows limits s v) (what : String) (hdoc : e.isDocument = true → e.Ok limits) :
    ∃ ok w, Append limits v e ok w ∧ Follows limits (s.commit what e).2 w ∧
      ((s.commit what e).1.code = .ok ↔ ok = true) := by
  unfold DurableStore.commit
  by_cases hro : s.readOnly = true
  · rw [if_pos hro]
    exact ⟨false, v, .omitted, h, by simp [DurableStore.readOnlyStatus]⟩
  rw [if_neg hro]
  by_cases hp : e.payload = []
  · rw [if_pos hp]
    exact ⟨false, v, .omitted, h, by simp⟩
  rw [if_neg hp]
  have hskip : (s.appendAndApply e.type e.payload).1.code ≠ .ok →
      Skipped s (e.type, e.payload) (s.appendAndApply e.type e.payload).2 →
      ∃ ok w, Append limits v e ok w ∧ Follows limits (s.appendAndApply e.type e.payload).2 w ∧
        ((s.appendAndApply e.type e.payload).1.code = .ok ↔ ok = true) := by
    intro hs hsame
    exact ⟨false, _, .refused, h.skip hsame, by simp [hs]⟩
  have htype : e.type ≠ .invalid := by cases e <;> simp [Event.type]
  cases h with
  | lost h hlast hfit =>
    obtain ⟨bytes, hfile, -⟩ := h.short
    obtain ⟨status, hs, happ⟩ := append_refused (.inr h.closed) e.type e.payload (s.faults.headD .ok)
      (s.directory.journal.getD [])
    obtain ⟨hcode, hsame⟩ := appendAndApply_skips hfile (e.type, e.payload) hs happ
    exact hskip hcode hsame
  | ahead h hnumbers hfit hfits hdoc' =>
    have hwf : s.journal.writeFailed = true := by
      by_contra hno
      simpa using (h.healthy (by simpa using hno)).1
    obtain ⟨hcode, hsame⟩ := appendAndApply_stuck hwf h.holds.journal (e.type, e.payload)
    exact hskip hcode hsame
  | @level c h hnumbers hfit =>
    have hgrown : ∀ {x : Appending}, (s.appendAndApply e.type e.payload).2.directory.log = s.directory.log ++ [x] →
        Numbered (c.with [(e.type, e.payload)]) (s.appendAndApply e.type e.payload).2.directory.log := by
      intro x hlog
      rw [hlog]
      exact hnumbers.grow _ x
    have hok : ∀ {status}, applyPayload limits e.type e.payload s.state = .error status → ¬ e.Ok limits := by
      intro status herror hok
      rw [applyPayload_event s.state hok hp] at herror
      simp at herror
    rcases append_live h (e.type, e.payload) htype (length_payload_lt_word e) with
      ⟨hs, hsame, -⟩ | ⟨hs, state, happly, hstate, -, hlog, hlive⟩ | ⟨hs, refused, happly, hstate, -, hlog, hlive⟩ |
      ⟨hs, -, -, hstate, -, tail, -, extra, hextra, hlog, hlive⟩
    · exact hskip hs hsame
    · -- applied
      have hgood : e.Ok limits := by
        by_contra hbad
        have hnot : e.isDocument = false := by simpa using fun hd => hbad (hdoc hd)
        obtain ⟨status, hrefused⟩ := applyPayload_refused s.state hnot hbad hp
        rw [show applyPayload limits e.type e.payload s.state = _ from happly] at hrefused
        simp at hrefused
      have hfits : e.Fits limits := ⟨hp, (hlive.holds.fits (e.type, e.payload) (by simp [Contents.with])).payload⟩
      have hresult : state = applyEvent limits s.state e := by
        have := applyPayload_event s.state hgood hp
        rw [show applyPayload limits e.type e.payload s.state = _ from happly, Except.ok.injEq] at this
        exact this
      refine ⟨true, _, .applied rfl hfits hgood, ?_, by simp [hs, Status.ok]⟩
      have hentries : EntriesFit (s.appendAndApply e.type e.payload).2.state := by
        rw [hstate, hresult]
        exact { hfit.applyEvent hp with }
      have hfollows := Follows.level hlive (hgrown hlog) hentries
      rw [hlog, hstate, hresult] at hfollows
      rw [applyEvent_tables]
      exact hfollows
    · -- durable, and refused by replay
      have hfits : e.Fits limits := ⟨hp, (hlive.holds.fits (e.type, e.payload) (by simp [Contents.with])).payload⟩
      refine ⟨false, _, .poisoned rfl hfits (hok happly), ?_, by simp [hs]⟩
      have hentries : EntriesFit (s.appendAndApply e.type e.payload).2.state := by
        rw [hstate]
        exact { hfit with }
      have hfollows := Follows.level hlive (hgrown hlog) hentries
      rw [hlog, hstate] at hfollows
      exact hfollows
    · have hentries : EntriesFit (s.appendAndApply e.type e.payload).2.state := by
        rw [hstate]
        exact hfit
      rcases hextra with rfl | ⟨rfl, -⟩
      · refine ⟨false, _, .refused, ?_, by simp [hs]⟩
        have hskipped : Numbered { c with tail := tail } (s.appendAndApply e.type e.payload).2.directory.log := by
          rw [hlog]
          have hmore := hnumbers.skip (e.appending false false)
          exact ⟨hmore.count, hmore.covered⟩
        have hfollows := Follows.level hlive hskipped hentries
        rw [hlog, hstate] at hfollows
        exact hfollows
      · have hfits : e.Fits limits :=
          ⟨hp, (hlive.holds.fits (e.type, e.payload) (by simp [Contents.with])).payload⟩
        refine ⟨false, _, .severed rfl hfits, ?_, by simp [hs]⟩
        have hmore := hgrown hlog
        have hfollows := Follows.ahead hlive ⟨hmore.count, hmore.covered⟩ hentries hfits hdoc
        rw [hlog, hstate] at hfollows
        exact hfollows

theorem compact_log (s : DurableStore) (io : CompactIo) (now headerNow : UnixMillis) :
    (s.compact io now headerNow).2.directory.log = s.directory.log := by
  have hpublish : ∀ (io : SnapshotIo) (image : Bytes) (dir : Directory),
      (writeSnapshotAtomic io image dir).2.log = dir.log := by
    intro io image dir
    cases io <;> rfl
  unfold DurableStore.compact
  split
  · rfl
  simp only
  split
  · rfl
  split
  · exact hpublish _ _ _
  split <;> exact hpublish _ _ _

theorem commit_log (s : DurableStore) (what : String) (e : Event) :
    s.directory.log <+: (s.commit what e).2.directory.log := by
  unfold DurableStore.commit
  split
  · exact List.prefix_rfl
  split
  · exact List.prefix_rfl
  rcases happ : s.journal.append e.type e.payload (s.faults.headD .ok) (s.directory.journal.getD []) with
    ⟨status, j, file⟩
  rw [appendAndApply_eq s e.type e.payload happ]
  split
  · exact List.prefix_append _ _
  split <;> exact List.prefix_append _ _

theorem settle_log (s : DurableStore) (a : AttemptRecord) (o : ReconciliationOutcome) :
    s.directory.log <+: (s.settle a o).2.directory.log := by
  have hfirst : s.directory.log <+: (s.transitionAttempt a).2.directory.log := commit_log s _ _
  have hsecond : (s.transitionAttempt a).2.directory.log <+:
      ((s.transitionAttempt a).2.commitOutcome o).2.directory.log := commit_log _ _ _
  unfold DurableStore.settle
  simp only
  split
  · exact hfirst
  · exact hfirst.trans hsecond

/-- **`Follows.compact`**: only a pending record can get lost. -/
theorem Follows.compact (h : Follows limits s v) {env : CallEnv}
    (hserial : env.io.reopened = true ∨ s.directory.log.length < 2 ^ 64) :
    Follows limits (s.compact env.io env.snapshotNow env.headerNow).2 v ∨
      Follows limits (s.compact env.io env.snapshotNow env.headerNow).2 { v with pending := none } := by
  obtain ⟨q, n, hstate⟩ := compact_state s env.io env.snapshotNow env.headerNow
  have hfit : EntriesFit (s.compact env.io env.snapshotNow env.headerNow).2.state := by
    rw [hstate]
    exact h.entries.relabel q n
  have htables : (s.compact env.io env.snapshotNow env.headerNow).2.state.tables = s.state.tables := by
    rw [hstate]
    rfl
  have hlog := compact_log s env.io env.snapshotNow env.headerNow
  have hview : (⟨(s.compact env.io env.snapshotNow env.headerNow).2.directory.log,
      (s.compact env.io env.snapshotNow env.headerNow).2.state.tables, none⟩ : View) = { v with pending := none } := by
    rw [htables, hlog, ← h.log, ← h.memory]
  rcases compact_cases h.handle h.entries env.io env.snapshotNow env.headerNow with
    ⟨-, staging, hsame⟩ | ⟨-, hencodable, hdenied, hsame⟩ | ⟨-, -, -, -, hlive⟩ | ⟨-, hsame, -, -, hlost⟩
  · left
    rw [hsame]
    cases h with
    | level h hnumbers hfit => exact .level (h.staging staging) hnumbers hfit
    | ahead h hnumbers hfit hfits hdoc => exact .ahead (h.staging staging) hnumbers hfit hfits hdoc
    | lost h hlast hfit => exact .lost { h with } hlast hfit
  · -- the snapshot now covers every entry of a journal that is still there
    have hfew : s.directory.log.length < 2 ^ 64 := hserial.resolve_left (by simp [hdenied])
    left
    rw [show (s.compact env.io env.snapshotNow env.headerNow).2 = s.shut env.snapshotNow from hsame]
    cases h with
    | level h hnumbers hfit => exact .level (h.shut hfit hencodable _) (hnumbers.sealed hfew s _) hfit
    | @ahead c e h hnumbers hfit hfits hdoc =>
      have hfewer : c.base.toNat + c.entries.length < 2 ^ 64 := by
        have hcount := hnumbers.count
        simp only [Contents.with, List.length_append] at hcount
        omega
      exact .ahead (h.shut hfit hencodable _) ⟨hnumbers.count, hfewer⟩ hfit hfits hdoc
    | lost h hlast hfit => exact .lost (h.shut _) hlast hfit
  · right
    rw [← hview]
    refine .level hlive ?_ hfit
    rw [hlog]
    exact numbered_restarted h.last _ _
  · right
    rw [← hview]
    refine .lost hlost ?_ hfit
    rw [hlog, ← hlost.sequence, hsame, h.handle.sequence]
    exact h.last

theorem Follows.maybeCompact {e : Engine} {env : CallEnv} (h : Follows limits e.store v)
    (hserial : env.io.reopened = true ∨ e.store.directory.log.length < 2 ^ 64) :
    ∃ w, Follows limits (e.maybeCompact env).store w ∧ (w = v ∨ w = { v with pending := none }) := by
  have hcompact : ∃ w, Follows limits (e.store.compact env.io env.snapshotNow env.headerNow).2 w ∧
      (w = v ∨ w = { v with pending := none }) := by
    rcases h.compact hserial with hw | hw
    · exact ⟨v, hw, .inl rfl⟩
    · exact ⟨_, hw, .inr rfl⟩
  unfold Engine.maybeCompact
  split
  · exact ⟨v, h, .inl rfl⟩
  split
  · exact ⟨v, h, .inl rfl⟩
  simp only
  split
  · exact hcompact
  · exact hcompact

/-- **`Follows.settle`**. -/
theorem Follows.settle (h : Follows limits s v) (a' : AttemptRecord) {o : ReconciliationOutcome} (ho : OutcomeOk o) :
    ∃ w, Follows limits (s.settle a' o).2 w ∧
      (Append limits v (.attemptTransition a') false w ∧ (s.settle a' o).1.code ≠ .ok ∨
        ∃ ok u, Append limits v (.attemptTransition a') true u ∧ Append limits u (.outcomeCommit o) ok w ∧
          ((s.settle a' o).1.code = .ok ↔ ok = true)) := by
  obtain ⟨ok, u, hfirst, hu, hcode⟩ := h.commit "attempt" (e := .attemptTransition a') (by simp [Event.isDocument])
  unfold DurableStore.settle
  by_cases hs : (s.transitionAttempt a').1.code ≠ .ok
  · have hno : ok = false := by simpa using mt hcode.mpr hs
    subst hno
    simp only [if_pos hs]
    exact ⟨u, hu, .inl ⟨hfirst, hs⟩⟩
  · simp only [if_neg hs]
    push Not at hs
    have hyes : ok = true := hcode.mp hs
    subst hyes
    obtain ⟨ok, w, hsecond, hw, hcode'⟩ := hu.commit "outcome" (e := .outcomeCommit o) (fun _ => ho)
    exact ⟨w, hw, .inr ⟨ok, u, hfirst, hsecond, hcode'⟩⟩

/-- The commits of a call or boot in the view. -/
theorem Follows.paired {live : Incarnation} {cause : Option Operation} {env : CallEnv} (h : Follows limits s v)
    (hp : Paired limits live cause env s t) (hserial : env.io.reopened = true ∨ t.directory.log.length < 2 ^ 64) :
    ∃ w, Follows limits t w ∧ Acts limits live cause v w := by
  induction hp with
  | refl => exact ⟨v, h, .refl⟩
  | @commit t hp what e he hlone ih =>
    obtain ⟨u, hu, hacts⟩ := ih (hserial.imp_right (lt_of_le_of_lt (commit_log t what e).length_le))
    obtain ⟨ok, w, happend, hw, -⟩ := hu.commit what he.document
    have hwrite := he.tables
    rw [← hu.memory] at hwrite
    exact ⟨w, hw, hacts.append e hwrite hlone ok happend⟩
  | @settle t hp a a' o hs ih =>
    obtain ⟨u, hu, hacts⟩ := ih (hserial.imp_right (lt_of_le_of_lt (settle_log t a' o).length_le))
    have hsettles := hs.tables
    rw [← hu.memory] at hsettles
    obtain ⟨w, hw, hcase⟩ := hu.settle a' hs.ok
    rcases hcase with ⟨hfirst, -⟩ | ⟨ok, x, hfirst, hsecond, -⟩
    · exact ⟨w, hw, hacts.cut a a' o hsettles hfirst⟩
    · exact ⟨w, hw, hacts.settle a a' o hsettles hfirst ok hsecond⟩
  | @compact t hp hsame ih =>
    have hlog := compact_log t env.io env.snapshotNow env.headerNow
    rw [hlog] at hserial
    obtain ⟨u, hu, hacts⟩ := ih hserial
    rcases hu.compact hserial with hw | hw
    · exact ⟨u, hw, hacts⟩
    · exact ⟨_, hw, hacts.truncated⟩
  | faults hp ih =>
    obtain ⟨u, hu, hacts⟩ := ih hserial
    exact ⟨u, hu.faults env.faults, hacts⟩

end Store

/-! ## Processes -/

/-- The view of a directory that no process has open. -/
inductive Rests (limits : RuntimeLimits) (dir : Directory) (last : DurableState) : View → Prop
  /-- nothing was ever written -/
  | blank (hblank : Blank dir) (hlog : dir.log = []) (hlast : last.tables = ({} : DurableState).tables) :
      Rests limits dir last ⟨dir.log, last.tables, none⟩
  | level {c : Contents} (h : Holds limits c dir) (hnumbers : Numbered c dir.log) (htables : TablesOk limits last)
      (hfit : EntriesFit last)
      (hmemory : last.tables = (absorbAll limits (c.entries.drop c.covered) c.start).tables) :
      Rests limits dir last ⟨dir.log, last.tables, none⟩
  | ahead {c : Contents} {e : Event} (h : Holds limits (c.with [(e.type, e.payload)]) dir)
      (hcovered : c.covered ≤ c.entries.length) (hnumbers : Numbered (c.with [(e.type, e.payload)]) dir.log)
      (htables : TablesOk limits last) (hfit : EntriesFit last)
      (hmemory : last.tables = (absorbAll limits (c.entries.drop c.covered) c.start).tables) (hfits : e.Fits limits)
      (hdoc : e.isDocument = true → e.Ok limits) : Rests limits dir last ⟨dir.log, last.tables, some e⟩
  /-- the files can never be opened again -/
  | lost {bytes : Bytes} (hpresent : dir.present = true) (hjournal : dir.journal = some bytes)
      (hshort : bytes.length < 96) (htables : TablesOk limits last) (hfit : EntriesFit last) :
      Rests limits dir last ⟨dir.log, last.tables, none⟩

/-- The view of a process. -/
inductive Kept (limits : RuntimeLimits) : Process → View → Prop
  | down {dir : Directory} {last : DurableState} {v : View} (h : Rests limits dir last v) :
      Kept limits (.down dir last) v
  | up {e : Engine} {v : View} (h : Follows limits e.store v) (hoptions : e.options.limits = limits)
      (hepoch : e.live.epoch = e.store.state.lastEpoch) : Kept limits (.up e) v

/-- No compaction is denied the journal file behind its snapshot once record numbers may have wrapped around. -/
def Process.Orderly (p : Process) (a : Step) : Prop :=
  match a with
  | .call _ env => env.io.reopened = true ∨ (p.step a).2.log.length < 2 ^ 64
  | _ => True

/-- What a step does in the view. -/
inductive Progress (limits : RuntimeLimits) : Process → Step → View → View → Prop
  | idle (p : Process) (a : Step) (v : View) : Progress limits p a v v
  | call (e : Engine) (operation : Operation) (env : CallEnv) {v w : View}
      (h : Acts limits e.live (some operation) v w) : Progress limits (.up e) (.call operation env) v w
  | readOnly (dir : Directory) (last : DurableState) {options : EngineOptions} (opening : DurableStore.OpenEnv)
      (id : BootId) (env : CallEnv) {v w : View} (hmode : options.readOnly = true) (h : Reopened limits v w) :
      Progress limits (.down dir last) (.boot options opening id env) v w
  | boot (dir : Directory) (last : DurableState) {options : EngineOptions} (opening : DurableStore.OpenEnv)
      (id : BootId) (env : CallEnv) {v u w : View} (hmode : options.readOnly = false) (h : Reopened limits v u)
      (hacts : Acts limits ⟨u.memory.lastEpoch + 1, id⟩ none u w) :
      Progress limits (.down dir last) (.boot options opening id env) v w

section Process

variable {limits : RuntimeLimits} {dir dir' : Directory} {last : DurableState} {v w : View} {p : Process}

theorem Rests.log (h : Rests limits dir last v) : v.log = dir.log := by
  cases h <;> rfl

/-- Only a directory that does not exist yet has no log. -/
theorem Rests.present (h : Rests limits dir last v) : dir.present = true ∨ dir.log = [] := by
  cases h with
  | blank hblank hlog hlast => exact .inr hlog
  | level h hnumbers htables hfit hmemory => exact .inl h.present
  | ahead h hcovered hnumbers htables hfit hmemory hfits hdoc => exact .inl h.present
  | lost hpresent hjournal hshort htables hfit => exact .inl hpresent

theorem Rests.memory (h : Rests limits dir last v) : v.memory = last.tables := by
  cases h <;> rfl

/-- A process that ends leaves its view behind. -/
theorem Follows.leaves {s : DurableStore} (h : Follows limits s v) : Rests limits s.directory s.state v := by
  cases h with
  | level h hnumbers hfit =>
    have hholds := h.holds
    rw [Contents.with_nil] at hholds
    exact .level hholds hnumbers h.tables hfit (tables_of_core h.memory)
  | ahead h hnumbers hfit hfits hdoc =>
    exact .ahead h.holds h.covered hnumbers h.tables hfit (tables_of_core h.memory) hfits hdoc
  | lost h hlast hfit =>
    obtain ⟨bytes, hjournal, hshort⟩ := h.short
    exact .lost h.present hjournal hshort h.tables hfit

/-- `Open` leaves the log alone. -/
theorem open_log (limits : RuntimeLimits) (createIfMissing readOnly : Bool) (opening : DurableStore.OpenEnv)
    (dir : Directory) (h : dir.present = true ∨ dir.log = []) :
    (DurableStore.open limits createIfMissing readOnly opening dir).1.log = dir.log := by
  have hfinish : ∀ (created : Bool) (cleaned : Directory) (snapshot : Option (SnapshotHeader × Bytes)),
      (DurableStore.openFiles.finish limits createIfMissing readOnly created opening cleaned snapshot).1.log =
        cleaned.log := by
    intro created cleaned snapshot
    unfold DurableStore.openFiles.finish
    simp only
    split
    · rfl
    split <;> rfl
  have hfiles : ∀ (created : Bool) (d : Directory),
      (DurableStore.openFiles limits createIfMissing readOnly created opening d).1.log = d.log := by
    intro created d
    have hclean : (if readOnly then d else { d with staging := none }).log = d.log := by split <;> rfl
    unfold DurableStore.openFiles
    simp only
    split
    · split
      · exact hclean
      · rw [hfinish, hclean]
    · rw [hfinish, hclean]
  unfold DurableStore.open
  split
  next hmissing =>
    split
    · rfl
    · rw [hfiles]
      rcases h with hpresent | hlog
      · simp [hpresent] at hmissing
      · exact hlog.symm
  next hpresent => rw [hfiles]

/-- The record beyond memory is replayed on top of it. -/
theorem replay_pending {entries : List (RecordType × Bytes)} {start state : DurableState} {e : Event}
    (h : replayEntries limits (entries ++ [(e.type, e.payload)]) start = .ok state)
    (hmemory : last.tables = (absorbAll limits entries start).tables) (hp : e.payload ≠ [])
    (hdoc : e.isDocument = true → e.Ok limits) : e.Ok limits ∧ state.tables = applyEvent limits last.tables e := by
  rw [replayEntries_append] at h
  cases hfront : replayEntries limits entries start with
  | error status => simp [hfront] at h
  | ok mid =>
    simp only [hfront, replayEntries] at h
    have hok : e.Ok limits := by
      by_contra hbad
      have hnot : e.isDocument = false := by simpa using fun hd => hbad (hdoc hd)
      obtain ⟨status, hrefused⟩ := applyPayload_refused mid hnot hbad hp
      simp [hrefused] at h
    rw [applyPayload_event mid hok hp] at h
    simp only [Except.ok.injEq] at h
    refine ⟨hok, ?_⟩
    rw [← h, hmemory, absorbAll_of_replay hfront, applyEvent_tables]

/-- Opening the files of a view. -/
theorem Rests.open (h : Rests limits dir last v) {createIfMissing readOnly : Bool} {opening : DurableStore.OpenEnv}
    {answer : Except Status (DurableStore × DurableStore.StoreOpenReport)}
    (hopen : DurableStore.open limits createIfMissing readOnly opening dir = (dir', answer)) :
    (∀ status, answer = .error status → Rests limits dir' last v) ∧
      ∀ s report, answer = .ok (s, report) → s.journal.writeFailed = false ∧
        ∃ w, Reopened limits v w ∧ Follows limits s w := by
  have hkept : dir.present = true ∨ dir.log = [] → dir'.log = dir.log := by
    intro hdir
    have hlog := open_log limits createIfMissing readOnly opening dir hdir
    rw [hopen] at hlog
    exact hlog
  cases h with
  | blank hblank hnone hlast =>
    have hlog := hkept (.inr hnone)
    have hinit : ∀ store : StoreId, ({ store := store } : DurableState).tables = last.tables := by
      intro store
      rw [hlast]
      rfl
    have hfresh : ∀ log, Numbered opening.contents log := by
      intro log
      constructor <;> simp [DurableStore.OpenEnv.contents]
    have hcreated := open_blank limits createIfMissing readOnly opening hblank
    rw [hopen] at hcreated
    have htables : TablesOk limits last := (tablesOk_initial limits FixedBytes.zero).of_tables (hinit _)
    have hfit : EntriesFit last := (entriesFit_initial FixedBytes.zero).of_tables (hinit _)
    cases hcreated with
    | refused status hblank' =>
      refine ⟨fun _ _ => ?_, by simp⟩
      rw [← hlog]
      exact .blank hblank' (hlog.trans hnone) hlast
    | torn status hio hdir =>
      refine ⟨fun _ _ => ?_, by simp⟩
      rw [← hlog]
      rcases hdir with hholds | ⟨hpresent, bytes, hjournal, hshort⟩
      · exact .level hholds (hfresh _) htables hfit (hinit opening.fresh).symm
      · exact .lost hpresent hjournal hshort htables hfit
    | opened s report hstate hlive hflags hdir =>
      refine ⟨by simp, ?_⟩
      intro s' report' heq
      rw [Except.ok.injEq, Prod.mk.injEq] at heq
      obtain ⟨rfl, -⟩ := heq
      refine ⟨hflags.2.1, _, .same rfl, ?_⟩
      have hfollows := Follows.level hlive (hfresh _) (by rw [hstate]; exact entriesFit_initial opening.fresh)
      rw [hstate, hinit, hdir, hlog] at hfollows
      exact hfollows
  | @level c h hnumbers htables hfit hmemory =>
    have hlog := hkept (.inl h.present)
    have htrimmed : Numbered c.trimmed dir'.log := by
      rw [hlog]
      exact ⟨hnumbers.count, hnumbers.covered⟩
    constructor
    · rintro status rfl
      rw [← hlog]
      rcases open_failed h hopen with hholds | hholds
      · exact .level hholds ⟨htrimmed.count, htrimmed.covered⟩ htables hfit hmemory
      · exact .level hholds htrimmed htables hfit hmemory
    · rintro s report rfl
      obtain ⟨again, state, hreplay, hstate, hnone, hlive, -, hhealthy, -, -, hdir⟩ := open_live h hopen
      have hagain : again = [] := hnone hnumbers.covered
      subst hagain
      rw [List.nil_append] at hreplay
      have hsame : s.state.tables = last.tables := by
        rw [hmemory, absorbAll_of_replay hreplay, hstate]
        rfl
      refine ⟨hhealthy, _, .same rfl, ?_⟩
      have hfollows := Follows.level hlive (by rw [hdir]; exact htrimmed) (hfit.of_tables hsame.symm)
      rw [hsame, hdir, hlog] at hfollows
      exact hfollows
  | @ahead c e h hcovered hnumbers htables hfit hmemory hfits hdoc =>
    have hlog := hkept (.inl h.present)
    have htrimmed : Numbered (c.with [(e.type, e.payload)]).trimmed dir'.log := by
      rw [hlog]
      exact ⟨hnumbers.count, hnumbers.covered⟩
    constructor
    · rintro status rfl
      rw [← hlog]
      rcases open_failed h hopen with hholds | hholds
      · exact .ahead hholds hcovered ⟨htrimmed.count, htrimmed.covered⟩ htables hfit hmemory hfits hdoc
      · exact @Rests.ahead limits dir' last c.trimmed e hholds hcovered htrimmed htables hfit hmemory hfits hdoc
    · rintro s report rfl
      obtain ⟨again, state, hreplay, hstate, hnone, hlive, -, hhealthy, -, -, hdir⟩ := open_live h hopen
      have hagain : again = [] := hnone hnumbers.covered
      subst hagain
      rw [drop_with c hcovered, List.nil_append] at hreplay
      obtain ⟨hok, hsame⟩ := replay_pending hreplay hmemory hfits.encoded hdoc
      have hstate : s.state.tables = applyEvent limits last.tables e := by
        rw [hstate, ← hsame]
        rfl
      have hentries : EntriesFit s.state :=
        (hfit.applyEvent hfits.encoded).of_tables (by rw [hstate, applyEvent_tables])
      refine ⟨hhealthy, _, .caughtUp e rfl hfits hok, ?_⟩
      have hfollows := Follows.level hlive (by rw [hdir]; exact htrimmed) hentries
      rw [hstate, hdir, hlog] at hfollows
      exact hfollows
  | lost hpresent hjournal hshort htables hfit =>
    have hlog := hkept (.inl hpresent)
    obtain ⟨dir'', status, hlost, hpresent', hjournal'⟩ :=
      open_lost limits createIfMissing readOnly opening hpresent hjournal hshort
    rw [hopen, Prod.mk.injEq] at hlost
    obtain ⟨rfl, rfl⟩ := hlost
    refine ⟨fun _ _ => ?_, by simp⟩
    rw [← hlog]
    exact .lost hpresent' hjournal' hshort htables hfit

/-- A boot in the view. An engine that came up has lost track of nothing. -/
theorem Rests.boot (h : Rests limits dir last v) {options : EngineOptions} (hoptions : options.limits = limits)
    (opening : DurableStore.OpenEnv) (id : BootId) (env : CallEnv) :
    ∃ w, Kept limits (Process.boot dir last options opening id env).2 w ∧
      Progress limits (.down dir last) (.boot options opening id env) v w ∧
      ∀ e, (Process.boot dir last options opening id env).2 = .up e → w.pending = none := by
  subst hoptions
  rcases hopen : DurableStore.open options.limits options.createIfMissing options.readOnly opening dir with
    ⟨dir', answer⟩
  obtain ⟨hbad, hgood⟩ := h.open hopen
  unfold Process.boot
  rw [hopen]
  cases answer with
  | error status => exact ⟨v, .down (hbad status rfl), .idle _ _ _, by simp⟩
  | ok result =>
    obtain ⟨opened, report⟩ := result
    obtain ⟨hhealthy, u, hreopened, hu⟩ := hgood opened report rfl
    simp only
    cases hmode : options.readOnly with
    | true =>
      have hstart : Engine.start options id env opened =
          .ok ⟨options, opened, ⟨opened.state.lastEpoch, id⟩, opened.state.sequence⟩ := by
        unfold Engine.start
        rw [if_pos hmode]
      rw [hstart]
      exact ⟨u, .up hu rfl rfl, .readOnly dir last opening id env hmode hreopened, fun _ _ => hreopened.pending⟩
    | false =>
      have hlim := hu.handle.bound
      have htab := hu.handle.tables
      -- a boot compacts nothing, so it does not depend on that part of its environment
      have hpaired : Paired options.limits (bootLive opened id) none { env with io := {} } opened
          (bootStore (Engine.start options id env opened)) := start_paired id { env with io := {} } hlim htab hmode
      obtain ⟨w, hw, hacts⟩ := hu.paired hpaired (.inl rfl)
      have hlive : bootLive opened id = ⟨u.memory.lastEpoch + 1, id⟩ := by
        rw [hu.memory]
        rfl
      rw [hlive] at hacts
      cases hstart : Engine.start options id env opened with
      | error failed =>
        rw [hstart] at hw
        exact ⟨w, .down hw.leaves, .boot dir last opening id env hmode hreopened hacts, by simp⟩
      | ok e =>
        have hbooted := start_ok hlim htab hmode hstart
        rw [hstart] at hw
        exact ⟨w, .up hw (by rw [hbooted.options]) hbooted.epoch.symm,
          .boot dir last opening id env hmode hreopened hacts,
          fun _ _ => hw.healthy ((start_journal hmode hstart).trans hhealthy)⟩

theorem Kept.consistent {e : Engine} (h : Kept limits (.up e) v) : Consistent limits e := by
  cases h with
  | up h hoptions hepoch => exact ⟨hoptions, h.handle.bound, h.handle.tables⟩

/-- **`step_progress`**. -/
theorem step_progress (h : Kept limits p v) {a : Step} (ha : p.Orderly a)
    (hlimits : ∀ options opening id env, a = .boot options opening id env → options.limits = limits) :
    ∃ w, Kept limits (p.step a).2 w ∧ Progress limits p a v w := by
  cases p with
  | down dir last =>
    cases h with
    | down h =>
      cases a with
      | boot options opening id env =>
        obtain ⟨w, hw, hprogress, -⟩ := h.boot (hlimits options opening id env rfl) opening id env
        exact ⟨w, hw, hprogress⟩
      | call operation env => exact ⟨v, .down h, .idle _ _ _⟩
      | exit => exact ⟨v, .down h, .idle _ _ _⟩
  | up e =>
    have hconsistent := h.consistent
    cases h with
    | up h hoptions hepoch =>
      cases a with
      | boot options opening id env => exact ⟨v, .up h hoptions hepoch, .idle _ _ _⟩
      | exit => exact ⟨v, .down h.leaves, .idle _ _ _⟩
      | call operation env =>
        obtain ⟨w, hw, hacts⟩ := h.paired (call_paired hconsistent env operation) ha
        obtain ⟨hopt, hlive⟩ := call_frame e env operation
        refine ⟨w, .up hw ?_ ?_, .call e operation env hacts⟩
        · rw [hopt]
          exact hoptions
        · have hepochs := hacts.lastEpoch
          rw [hw.memory, h.memory] at hepochs
          rw [hlive, hepoch]
          exact hepochs.symm

/-- What every step preserves, from any process on. -/
theorem later_kept {allowed : Process → Step → Prop} {J : Process → View → Prop} {q : Process}
    (hv : Kept limits p v) (hj : J p v)
    (hstep : ∀ {p : Process} {a : Step} {v w : View}, Kept limits p v → J p v → allowed p a →
      Progress limits p a v w → Kept limits (p.step a).2 w → J (p.step a).2 w)
    (horderly : ∀ p a, allowed p a → p.Orderly a) (h : Later limits allowed p q) : ∃ w, Kept limits q w ∧ J q w := by
  induction h with
  | refl => exact ⟨v, hv, hj⟩
  | @step q h a ha hlimits ih =>
    obtain ⟨u, hu, hju⟩ := ih
    obtain ⟨w, hw, hprogress⟩ := step_progress hu (horderly q a ha) hlimits
    exact ⟨w, hw, hstep hu hju ha hprogress hw⟩

/-- The view of the process a run starts from. -/
def View.initial : View := ⟨[], ({} : DurableState).tables, none⟩

/-- **`run_kept`**. -/
theorem run_kept {allowed : Process → Step → Prop} {J : Process → View → Prop}
    (hstart : J (.down {} {}) View.initial)
    (hstep : ∀ {p : Process} {a : Step} {v w : View}, Kept limits p v → J p v → allowed p a →
      Progress limits p a v w → Kept limits (p.step a).2 w → J (p.step a).2 w)
    (horderly : ∀ p a, allowed p a → p.Orderly a) (h : Run limits allowed p) : ∃ v, Kept limits p v ∧ J p v := by
  have hinitial : Kept limits (.down {} {}) View.initial := .down (.blank ⟨rfl, rfl⟩ rfl rfl)
  exact later_kept hinitial hstart hstep horderly h.ofStart

theorem Progress.sound {a : Step} (h : Progress limits p a v w) (hv : v.Sound limits) : w.Sound limits := by
  cases h with
  | idle => exact hv
  | call e operation env h => exact h.sound hv
  | readOnly dir last opening id env hmode h => exact h.sound
  | boot dir last opening id env hmode h hacts => exact hacts.sound h.sound

/-- The tables of a step evolve by records that may be written. -/
theorem Progress.memory {a : Step} {P : DurableState → Prop} (h : Progress limits p a v w) (hv : v.Sound limits)
    (hwrite : ∀ {st : DurableState} {e : Event} {live : Incarnation} {cause : Option Operation}, P st →
      Write limits live cause st e → e.Ok limits → e.Fits limits → P (applyEvent limits st e)) (hp : P v.memory) :
    P w.memory := by
  have hreopen : ∀ {u : View}, Reopened limits v u → P u.memory := by
    intro u hu
    cases hu with
    | same hnone => exact hp
    | caughtUp e hsome hfits hok =>
      obtain ⟨live, cause, he⟩ := hv.writable e hsome
      exact hwrite hp he hok hfits
  cases h with
  | idle => exact hp
  | call e operation env h => exact h.memory hp fun hst he hok hfits => hwrite hst he hok hfits
  | readOnly dir last opening id env hmode h => exact hreopen h
  | boot dir last opening id env hmode h hacts =>
    exact hacts.memory (hreopen h) fun hst he hok hfits => hwrite hst he hok hfits

theorem Progress.log {a : Step} (h : Progress limits p a v w) : v.log <+: w.log := by
  cases h with
  | idle => exact List.prefix_rfl
  | call e operation env h => exact h.log
  | readOnly dir last opening id env hmode h => exact h.log ▸ List.prefix_rfl
  | boot dir last opening id env hmode h hacts =>
    have hlog := hacts.log
    rw [h.log] at hlog
    exact hlog

/-- The incarnation and the operation behind the records of a step; a boot has no operation. -/
inductive Caused : Process → Step → View → Incarnation → Option Operation → Prop
  | call (e : Engine) (operation : Operation) (env : CallEnv) (v : View) :
      Caused (.up e) (.call operation env) v e.live (some operation)
  | boot (dir : Directory) (last : DurableState) {options : EngineOptions} (opening : DurableStore.OpenEnv)
      (id : BootId) (env : CallEnv) (v : View) (hmode : options.readOnly = false) :
      Caused (.down dir last) (.boot options opening id env) v ⟨v.memory.lastEpoch + 1, id⟩ none

/-- A step from a process whose files hold what its memory holds. -/
theorem Progress.level {a : Step} (h : Progress limits p a v w) (hnone : v.pending = none) :
    w = v ∨ ∃ live cause, Caused p a v live cause ∧ Acts limits live cause v w := by
  have hsame : ∀ {u : View}, Reopened limits v u → u = v := by
    intro u hu
    cases hu with
    | same hnone => rfl
    | caughtUp e hsome hfits hok => simp [hnone] at hsome
  cases h with
  | idle => exact .inl rfl
  | call e operation env h => exact .inr ⟨_, _, .call e operation env v, h⟩
  | readOnly dir last opening id env hmode h => exact .inl (hsame h)
  | boot dir last opening id env hmode h hacts =>
    rw [hsame h] at hacts
    exact .inr ⟨_, _, .boot dir last opening id env v hmode, hacts⟩

theorem Kept.tables (h : Kept limits p v) : v.memory = p.state.tables := by
  cases h with
  | down h => exact h.memory
  | up h hoptions hepoch => exact h.memory

theorem Kept.log (h : Kept limits p v) : v.log = p.log := by
  cases h with
  | down h => exact h.log
  | up h hoptions hepoch => exact h.log

/-- No append was reported as failed that did reach the file. -/
def Process.Unsevered (p : Process) : Prop := ∀ x ∈ p.log, x.whole = true → x.acknowledged = true

/-- The appends of a step. -/
def Process.appends (p : Process) (a : Step) : List Appending := (p.step a).2.log.drop p.log.length

/-- No append of the step was reported as failed that did reach the file. -/
def Process.Told (p : Process) (a : Step) : Prop := ∀ x ∈ p.appends a, x.whole = true → x.acknowledged = true

theorem Kept.appends (h : Kept limits p v) {a : Step} (hw : Kept limits (p.step a).2 w) :
    p.appends a = w.log.drop v.log.length := by
  unfold Process.appends
  rw [h.log, hw.log]

theorem Kept.level (h : Kept limits p v) (hsound : v.Sound limits) (hp : p.Unsevered) : v.pending = none := by
  by_contra hne
  obtain ⟨x, hx, hwhole, hnot⟩ := hsound.marked hne
  rw [h.log] at hx
  simp [hp x hx hwhole] at hnot

theorem Kept.tablesOk (h : Kept limits p v) : TablesOk limits v.memory := by
  cases h with
  | down h =>
    cases h with
    | blank hblank hlog hlast =>
      rw [hlast]
      exact (tablesOk_initial limits FixedBytes.zero).tables
    | level h hnumbers htables hfit hmemory => exact htables.tables
    | ahead h hcovered hnumbers htables hfit hmemory hfits hdoc => exact htables.tables
    | lost hpresent hjournal hshort htables hfit => exact htables.tables
  | up h hoptions hepoch =>
    rw [h.memory]
    exact h.handle.tables.tables

/-- Every reachable process has a sound view. -/
theorem run_sound {allowed : Process → Step → Prop} (horderly : ∀ p a, allowed p a → p.Orderly a)
    (h : Run limits allowed p) : ∃ v, Kept limits p v ∧ v.Sound limits :=
  run_kept (J := fun _ v => v.Sound limits) (.of_none rfl) (fun _ hj _ hprogress _ => hprogress.sound hj) horderly h

/-- One step between processes that did not lose track of a record. -/
theorem Kept.step (h : Kept limits p v) (hsound : v.Sound limits) {a : Step} (ha : p.Orderly a)
    (hlimits : ∀ options opening id env, a = .boot options opening id env → options.limits = limits)
    (hp : (p.step a).2.Unsevered) : ∃ w, Kept limits (p.step a).2 w ∧ w.Sound limits ∧ v.pending = none ∧
      (w = v ∨ ∃ live cause, Caused p a v live cause ∧ Acts limits live cause v w) := by
  obtain ⟨w, hw, hprogress⟩ := step_progress h ha hlimits
  have hbefore : p.Unsevered := by
    intro x hx
    rw [← h.log] at hx
    have hmem := hprogress.log.subset hx
    rw [hw.log] at hmem
    exact hp x hmem
  have hnone := h.level hsound hbefore
  exact ⟨w, hw, hprogress.sound hsound, hnone, hprogress.level hnone⟩

end Process

end FabricReconciliation
