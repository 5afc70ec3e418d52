import FabricReconciliation.Store

/-!
# What the files of a store hold

`Contents` is an abstract view of a store directory: the journal entries, the torn tail, the
published state and how many of the journal's entries it already covers. `Holds` ties it to the
bytes. All of recovery is then a statement about `Contents`:

* **`open_ok`** — if `Open` succeeds, its state is the published one with the uncovered entries
  replayed, and the directory holds the same contents without the torn tail;
* **`open_succeeds`** — the exact conditions under which it succeeds.
-/

namespace FabricReconciliation

open Lib

/-! ## Replaying entries -/

/-- Applies journal entries one after the other, stopping at the first refused one. -/
def replayEntries (limits : RuntimeLimits) : List (RecordType × Bytes) → DurableState →
    Except Status DurableState
  | [], s => .ok s
  | entry :: rest, s => match applyPayload limits entry.1 entry.2 s with
    | .error status => .error status
    | .ok s' => replayEntries limits rest s'

theorem replayEntries_append (limits : RuntimeLimits) : ∀ (a b : List (RecordType × Bytes)) (s : DurableState),
    replayEntries limits (a ++ b) s = match replayEntries limits a s with
      | .error status => .error status
      | .ok s' => replayEntries limits b s'
  | [], b, s => rfl
  | entry :: a, b, s => by
    simp only [List.cons_append, replayEntries]
    cases applyPayload limits entry.1 entry.2 s with
    | error status => rfl
    | ok s' => exact replayEntries_append limits a b s'

theorem replay_eq (limits : RuntimeLimits) (watermark : RecordSequence) :
    ∀ (records : List JournalRecord) (s : DurableState), DurableStore.replay limits watermark records s =
      replayEntries limits ((records.filter fun r => !decide (r.sequence ≤ watermark)).map
        fun r => (r.type, r.payload)) s
  | [], s => rfl
  | record :: rest, s => by
    by_cases h : record.sequence ≤ watermark
    · simp only [DurableStore.replay, h, if_true, List.filter_cons, decide_true, Bool.not_true,
        Bool.false_eq_true, if_false]
      exact replay_eq limits watermark rest s
    · simp only [DurableStore.replay, h, if_false, List.filter_cons, decide_false, Bool.not_false,
        if_true, List.map_cons, replayEntries]
      cases applyPayload limits record.type record.payload s with
      | error status => rfl
      | ok s' => exact replay_eq limits watermark rest s'

/-- Changes the record number and the compaction counter, and no table. -/
def DurableState.relabel (f : RecordSequence → RecordSequence) (g : UInt64 → UInt64) (s : DurableState) :
    DurableState := { s with sequence := f s.sequence, compactions := g s.compactions }

/-- The durable tables alone. -/
def DurableState.core (s : DurableState) : DurableState := { s with sequence := 0, compactions := 0 }

@[simp] theorem core_sequence (s : DurableState) (q : RecordSequence) : { s with sequence := q }.core = s.core := rfl

/-- Replay neither reads nor writes the record number and the compaction counter. -/
theorem applyPayload_relabel (f : RecordSequence → RecordSequence) (g : UInt64 → UInt64)
    (limits : RuntimeLimits) (type : RecordType) (payload : Bytes) (s : DurableState) :
    applyPayload limits type payload (s.relabel f g) =
      (applyPayload limits type payload s).map (DurableState.relabel f g) := by
  have hdecoded : ∀ {α : Type} (decoded : Option α) (detail : String) (h : α → DurableState → DurableState),
      (∀ a, h a (s.relabel f g) = (h a s).relabel f g) →
      applyDecoded decoded detail (h · (s.relabel f g)) =
        (applyDecoded decoded detail (h · s)).map (DurableState.relabel f g) := by
    intro α decoded detail h hh
    cases decoded with
    | none => rfl
    | some a => simp [applyDecoded, Except.map, hh a]
  cases type with
  | invalid => rfl
  | storeHeader => rfl
  | lineageTrim => rfl
  | policyPut => exact hdecoded _ _ applyPolicy fun a => rfl
  | intentCommit => exact hdecoded _ _ (applyIntent limits) fun a => rfl
  | observationCommit => exact hdecoded _ _ (applyObservation limits) fun a => rfl
  | attemptIssued => exact hdecoded _ _ (applyAttempt limits) fun a => rfl
  | attemptTransition => exact hdecoded _ _ (applyAttempt limits) fun a => rfl
  | outcomeCommit => exact hdecoded _ _ (applyOutcome limits) fun a => rfl
  | fencePut => exact hdecoded _ _ applyFence fun a => rfl
  | fenceClear =>
    simp only [applyPayload]
    cases Read.bytes.exactly payload with
    | none => rfl
    | some idText => exact hdecoded _ _ applyFenceClear fun a => rfl
  | epochAdvance => exact hdecoded _ _ applyEpoch fun a => rfl

theorem applyPayload_core (limits : RuntimeLimits) (type : RecordType) (payload : Bytes) (s : DurableState) :
    applyPayload limits type payload s.core = (applyPayload limits type payload s).map DurableState.core :=
  applyPayload_relabel (fun _ => 0) (fun _ => 0) limits type payload s

theorem applyPayload_sequence (limits : RuntimeLimits) (type : RecordType) (payload : Bytes)
    (s : DurableState) (q : RecordSequence) :
    applyPayload limits type payload { s with sequence := q } =
      (applyPayload limits type payload s).map fun st => { st with sequence := q } :=
  applyPayload_relabel (fun _ => q) id limits type payload s

theorem replayEntries_relabel (f : RecordSequence → RecordSequence) (g : UInt64 → UInt64)
    (limits : RuntimeLimits) : ∀ (entries : List (RecordType × Bytes)) (s : DurableState),
    replayEntries limits entries (s.relabel f g) =
      (replayEntries limits entries s).map (DurableState.relabel f g)
  | [], s => rfl
  | entry :: rest, s => by
    simp only [replayEntries, applyPayload_relabel]
    cases applyPayload limits entry.1 entry.2 s with
    | error status => rfl
    | ok s' => exact replayEntries_relabel f g limits rest s'

theorem replayEntries_tablesOk {limits : RuntimeLimits} : ∀ {entries : List (RecordType × Bytes)}
    {s s' : DurableState}, TablesOk limits s → replayEntries limits entries s = .ok s' → TablesOk limits s'
  | [], s, s', h, hr => by
    simp only [replayEntries, Except.ok.injEq] at hr
    exact hr ▸ h
  | entry :: rest, s, s', h, hr => by
    simp only [replayEntries] at hr
    cases hap : applyPayload limits entry.1 entry.2 s with
    | error status => simp [hap] at hr
    | ok mid =>
      rw [hap] at hr
      exact replayEntries_tablesOk (applyPayload_tablesOk h hap) hr

/-! ## Contents -/

/-- What a store directory holds. -/
structure Contents where
  store : StoreId
  created : UnixMillis
  base : RecordSequence
  entries : List (RecordType × Bytes)
  tail : Bytes
  /-- the state of the snapshot and its creation time -/
  published : Option (DurableState × UnixMillis)
  /-- how many of the entries the snapshot covers -/
  covered : Nat

namespace Contents

variable (c : Contents)

def last : RecordSequence := c.base + UInt64.ofNat c.entries.length

def watermark : RecordSequence := c.base + UInt64.ofNat c.covered

def journalFile : Bytes := journalBytes c.store c.created c.base c.entries c.tail

/-- The published snapshot as `ReadSnapshot` returns it. -/
def parsed : Option (SnapshotHeader × Bytes) :=
  c.published.map fun p => (snapshotHeaderOf p.1 p.2 (encodeSnapshotPayload p.1), encodeSnapshotPayload p.1)

def snapshotFile : Option Bytes := c.parsed.map fun p => buildSnapshotImage p.1 p.2

/-- The state replay starts from. -/
def start : DurableState :=
  match c.published with
  | none => { store := c.store }
  | some p => { p.1 with sequence := 0 }

/-- The entries `Open` replays: those numbered above the watermark. -/
def replayed : List (RecordType × Bytes) :=
  ((framed c.base c.entries).filter fun r => !decide (r.sequence ≤ c.watermark)).map
    fun r => (r.type, r.payload)

/-- Without the torn tail. -/
def trimmed : Contents := { c with tail := [] }

end Contents

/-- The state behind a snapshot: well formed, encodable, and numbered inside the journal. -/
structure Published (limits : RuntimeLimits) (c : Contents) (s : DurableState) : Prop where
  tables : TablesOk limits s
  fits : EntriesFit s
  encodable : encodeSnapshotPayload s ≠ []
  store : s.store = c.store
  sequence : s.sequence = c.watermark

/-- The directory holds these contents. -/
structure Holds (limits : RuntimeLimits) (c : Contents) (dir : Directory) : Prop where
  present : dir.present = true
  journal : dir.journal = some c.journalFile
  snapshot : dir.snapshot = c.snapshotFile
  fits : ∀ e ∈ c.entries, RecordFits limits e
  word : ∀ e ∈ c.entries, e.2.length < 2 ^ 32
  torn : TornTail limits (c.last + 1) c.tail
  covered : c.covered ≤ c.entries.length
  fresh : c.published = none → c.base = 0 ∧ c.covered = 0
  published : ∀ p, c.published = some p → Published limits c p.1

theorem Holds.trimmed {limits : RuntimeLimits} {c : Contents} {dir : Directory} (h : Holds limits c dir)
    (staging : Option Bytes) :
    Holds limits c.trimmed { dir with staging := staging, journal := some c.trimmed.journalFile } :=
  { present := h.present, journal := rfl, snapshot := h.snapshot, fits := h.fits, word := h.word
    torn := tornTail_nil _ _, covered := h.covered, fresh := h.fresh
    published := fun p hp => ⟨(h.published p hp).tables, (h.published p hp).fits, (h.published p hp).encodable,
      (h.published p hp).store, (h.published p hp).sequence⟩ }

theorem Holds.start_tablesOk {limits : RuntimeLimits} {c : Contents} {dir : Directory} (h : Holds limits c dir) :
    TablesOk limits c.start := by
  unfold Contents.start
  cases hp : c.published with
  | none => exact tablesOk_initial limits c.store
  | some p => exact { (h.published p hp).tables with }

/-! ## Numbers and the watermark -/

theorem toNat_add_ofNat {a : UInt64} {n : Nat} (h : a.toNat + n < 2 ^ 64) :
    (a + UInt64.ofNat n).toNat = a.toNat + n := by
  rw [UInt64.toNat_add, UInt64.toNat_ofNat_of_lt' (by unfold UInt64.size; omega)]
  exact Nat.mod_eq_of_lt h

/-- Record numbers of a journal that does not wrap lie strictly above its base. -/
theorem framed_bounds {base : RecordSequence} {entries : List (RecordType × Bytes)}
    (h : base.toNat + entries.length < 2 ^ 64) {r : JournalRecord} (hr : r ∈ framed base entries) :
    base.toNat < r.sequence.toNat ∧ r.sequence.toNat ≤ base.toNat + entries.length := by
  have hmem : r.sequence.toNat ∈ (framed base entries).map fun r => r.sequence.toNat :=
    List.mem_map_of_mem hr
  rw [framed_sequences entries base h, List.mem_range'_1] at hmem
  omega

/-- If the journal does not end below the watermark, exactly the uncovered entries are replayed,
except that covered ones come back once the watermark itself has wrapped around. -/
theorem replayed_eq {c : Contents} (hcovered : c.covered ≤ c.entries.length)
    (hlast : c.watermark ≤ c.last) (hcount : c.entries.length < 2 ^ 63) :
    ∃ again, c.replayed = again ++ c.entries.drop c.covered ∧
      (∀ e ∈ again, e ∈ c.entries.take c.covered) ∧
      (c.base.toNat + c.covered < 2 ^ 64 → again = []) := by
  have hsplit : framed c.base c.entries = framed c.base (c.entries.take c.covered) ++
      framed c.watermark (c.entries.drop c.covered) := by
    have h := framed_append (c.entries.take c.covered) (c.entries.drop c.covered) c.base
    rw [List.take_append_drop, List.length_take, Nat.min_eq_left hcovered] at h
    exact h
  have hend : c.last = c.watermark + UInt64.ofNat (c.entries.drop c.covered).length := by
    unfold Contents.last Contents.watermark
    rw [UInt64.add_assoc, ← UInt64.ofNat_add, List.length_drop]
    congr 2
    omega
  -- the uncovered part cannot wrap: its last number is not below the watermark
  have hnowrap : c.watermark.toNat + (c.entries.drop c.covered).length < 2 ^ 64 := by
    by_contra hwrap
    have hlen : (c.entries.drop c.covered).length < 2 ^ 63 := by rw [List.length_drop]; omega
    have hle : c.watermark.toNat ≤ c.last.toNat := hlast
    rw [hend, UInt64.toNat_add, UInt64.toNat_ofNat_of_lt' (by unfold UInt64.size; omega)] at hle
    have := c.watermark.toNat_lt
    omega
  have habove : (framed c.watermark (c.entries.drop c.covered)).filter
      (fun r => !decide (r.sequence ≤ c.watermark)) = framed c.watermark (c.entries.drop c.covered) := by
    rw [List.filter_eq_self]
    intro r hr
    have := (framed_bounds hnowrap hr).1
    simp only [Bool.not_eq_true', decide_eq_false_iff_not]
    intro hle
    have : r.sequence.toNat ≤ c.watermark.toNat := hle
    omega
  refine ⟨((framed c.base (c.entries.take c.covered)).filter
    fun r => !decide (r.sequence ≤ c.watermark)).map fun r => (r.type, r.payload), ?_, ?_, ?_⟩
  · unfold Contents.replayed
    rw [hsplit, List.filter_append, habove, List.map_append, framed_entries]
  · intro e he
    obtain ⟨r, hr, rfl⟩ := List.mem_map.mp he
    have hmem : (r.type, r.payload) ∈ (framed c.base (c.entries.take c.covered)).map
        fun r => (r.type, r.payload) := List.mem_map_of_mem (List.mem_filter.mp hr).1
    rwa [framed_entries] at hmem
  · intro hsmall
    rw [List.map_eq_nil_iff, List.filter_eq_nil_iff]
    intro r hr
    have hlen : (c.entries.take c.covered).length = c.covered := by
      rw [List.length_take, Nat.min_eq_left hcovered]
    have hub := (framed_bounds (by rw [hlen]; exact hsmall) hr).2
    rw [hlen, ← toNat_add_ofNat hsmall] at hub
    have hle : r.sequence ≤ c.watermark := hub
    simp [hle]

/-! ## Opening -/

/-- When `Open` accepts the contents, and the state it replays. -/
structure Openable (limits : RuntimeLimits) (readOnly : Bool) (c : Contents) (state : DurableState) : Prop where
  size : c.journalFile.length ≤ limits.maxJournalBytes.toNat
  scannable : ∀ e ∈ c.entries, e.2.length ≤ scanPayloadLimit limits
  tail : readOnly = true → c.tail = []
  snapshotSize : ∀ p, c.published = some p →
    112 + (encodeSnapshotPayload p.1).length ≤ maxSnapshotBytes limits
  bounds : ∀ p, c.published = some p → SnapshotBounds limits p.1
  watermark : c.watermark ≤ c.last
  replays : replayEntries limits c.replayed c.start = .ok state

/-- The directory `Open` leaves behind when it succeeds. -/
def openedDirectory (readOnly : Bool) (c : Contents) (dir : Directory) : Directory :=
  { dir with staging := if readOnly then dir.staging else none, journal := some c.trimmed.journalFile }

/-- The store `Open` returns. -/
def openedStore (limits : RuntimeLimits) (createIfMissing readOnly : Bool) (c : Contents) (dir : Directory)
    (state : DurableState) : DurableStore where
  limits := limits
  state := { state with sequence := c.last }
  journal := (openedOf ⟨limits, createIfMissing && !readOnly, readOnly⟩ c.store c.created c.base c.entries
    c.tail).journal
  readOnly := readOnly
  directory := openedDirectory readOnly c dir

section Opening

variable {limits : RuntimeLimits} {createIfMissing readOnly : Bool} {env : DurableStore.OpenEnv}
  {c : Contents} {dir : Directory} {state : DurableState}

theorem length_payload_lt (s : DurableState) : (encodeSnapshotPayload s).length < 2 ^ 64 := by
  have := length_encoded_le (snapshotScript s)
  unfold encodeSnapshotPayload
  simp only [kMaxCanonicalBytes] at this
  omega

/-- Reading the snapshot file of the contents. -/
theorem readSnapshot_holds (h : Holds limits c dir) : readSnapshot limits dir.snapshot =
    match c.published with
    | none => .error ⟨.notFound, .none, "snapshot does not exist"⟩
    | some p =>
      if maxSnapshotBytes limits < 112 + (encodeSnapshotPayload p.1).length then
        .error ⟨.limitExceeded, .snapshotDigestMismatch, "snapshot exceeds the configured maximum size"⟩
      else .ok (snapshotHeaderOf p.1 p.2 (encodeSnapshotPayload p.1), encodeSnapshotPayload p.1) := by
  rw [h.snapshot, Contents.snapshotFile, Contents.parsed]
  cases c.published with
  | none => rfl
  | some p => exact readSnapshot_image p.1 p.2 (length_payload_lt p.1)

/-- Rebuilding the state, once the snapshot is within bounds and not ahead of the journal. -/
theorem recoverState_holds (h : Holds limits c dir) (opened : JournalOpened)
    (hrecords : opened.records = framed c.base c.entries) (hlast : opened.report.lastSequence = c.last)
    (hstore : opened.report.header.store = c.store)
    (hbounds : ∀ p, c.published = some p → SnapshotBounds limits p.1) (hwatermark : c.watermark ≤ c.last) :
    DurableStore.recoverState limits c.parsed opened =
      (replayEntries limits c.replayed c.start).map fun s => { s with sequence := c.last } := by
  have hreplay : ∀ w s, w = c.watermark → DurableStore.replay limits w opened.records s =
      replayEntries limits c.replayed s := by
    rintro w s rfl
    rw [replay_eq, hrecords]
    rfl
  unfold DurableStore.recoverState Contents.parsed Contents.start
  cases hp : c.published with
  | none =>
    obtain ⟨hbase, hcov⟩ := h.fresh hp
    have hw : (0 : RecordSequence) = c.watermark := by simp [Contents.watermark, hbase, hcov]
    simp only [Option.map_none, hreplay 0 _ hw, hstore, hlast]
    cases replayEntries limits c.replayed { store := c.store } <;> rfl
  | some p =>
    have hpub := h.published p hp
    have happly := applySnapshotPayload_encoded hpub.tables hpub.fits hpub.encodable (hbounds p hp)
      { store := p.1.store, lastEpoch := p.1.lastEpoch }
    simp only [Option.map_some, snapshotHeaderOf, hpub.store, hstore, ne_eq, not_true_eq_false, if_false,
      hlast, hpub.sequence, not_lt.mpr hwatermark]
    rw [hpub.store] at happly
    simp only [happly, hreplay _ _ rfl]
    have hsame : ({ p.1 with store := c.store, sequence := 0 } : DurableState) = { p.1 with sequence := 0 } := by
      rw [← hpub.store]
    rw [hsame]
    cases replayEntries limits c.replayed { p.1 with sequence := 0 } <;> rfl

/-- **`open_succeeds`**: contents that meet the conditions are opened. -/
theorem open_succeeds (h : Holds limits c dir) (ho : Openable limits readOnly c state)
    (createIfMissing : Bool) (env : DurableStore.OpenEnv) :
    ∃ report, DurableStore.open limits createIfMissing readOnly env dir =
      (openedDirectory readOnly c dir, .ok (openedStore limits createIfMissing readOnly c dir state, report)) := by
  have hjournal : Journal.open ⟨limits, createIfMissing && !readOnly, readOnly⟩ env.fresh env.now env.io
      (some c.journalFile) = (some c.trimmed.journalFile, .ok (openedOf
        ⟨limits, createIfMissing && !readOnly, readOnly⟩ c.store c.created c.base c.entries c.tail)) := by
    have hopen := @openExisting_journalBytes ⟨limits, createIfMissing && !readOnly, readOnly⟩ c.store c.created
      c.base _ _ _ h.fits ho.scannable h.torn ho.size
    rw [if_neg (fun hn => hn.1 (ho.tail hn.2))] at hopen
    unfold Journal.open Contents.journalFile
    simp only [hopen]
    rfl
  have hrecover := recoverState_holds h (openedOf ⟨limits, createIfMissing && !readOnly, readOnly⟩
    c.store c.created c.base c.entries c.tail) rfl rfl rfl ho.bounds ho.watermark
  rw [ho.replays] at hrecover
  have hread : readSnapshot limits dir.snapshot =
      c.parsed.elim (.error ⟨.notFound, .none, "snapshot does not exist"⟩) .ok := by
    rw [readSnapshot_holds h, Contents.parsed]
    cases hp : c.published with
    | none => rfl
    | some p =>
      simp only [Option.map_some, Option.elim_some]
      rw [if_neg (not_lt.mpr (ho.snapshotSize p hp))]
  have hfiles : ∃ report, DurableStore.openFiles limits createIfMissing readOnly false env dir =
      (openedDirectory readOnly c dir, .ok (openedStore limits createIfMissing readOnly c dir state, report)) := by
    have hclean : (if readOnly = true then dir else { dir with staging := none }).snapshot = dir.snapshot ∧
        (if readOnly = true then dir else { dir with staging := none }).journal = some c.journalFile ∧
        ({ (if readOnly = true then dir else { dir with staging := none }) with
          journal := some c.trimmed.journalFile } : Directory) = openedDirectory readOnly c dir := by
      cases readOnly with
      | false => exact ⟨rfl, h.journal, rfl⟩
      | true => exact ⟨rfl, h.journal, rfl⟩
    obtain ⟨hsnap, hjour, hdir⟩ := hclean
    have hfinish : DurableStore.openFiles.finish limits createIfMissing readOnly false env
        (if readOnly = true then dir else { dir with staging := none }) c.parsed =
        (openedDirectory readOnly c dir, .ok (openedStore limits createIfMissing readOnly c dir state,
          DurableStore.openReport false c.parsed (openedOf ⟨limits, createIfMissing && !readOnly, readOnly⟩
            c.store c.created c.base c.entries c.tail) { state with sequence := c.last })) := by
      unfold DurableStore.openFiles.finish
      simp only [hjour, hjournal, hrecover, Except.map, hdir]
      rfl
    refine ⟨DurableStore.openReport false c.parsed (openedOf ⟨limits, createIfMissing && !readOnly, readOnly⟩
      c.store c.created c.base c.entries c.tail) { state with sequence := c.last }, ?_⟩
    unfold DurableStore.openFiles
    simp only [hsnap, hread]
    revert hfinish
    generalize c.parsed = parsed
    intro hfinish
    cases parsed with
    | none =>
      simp only [Option.elim_none, hfinish]
      rw [if_neg (by simp)]
    | some parsed => simp only [Option.elim_some, hfinish]
  obtain ⟨report, hreport⟩ := hfiles
  refine ⟨report, ?_⟩
  unfold DurableStore.open
  rw [if_neg (by simp [h.present]), hreport]

/-- A rebuilt state means a snapshot within bounds that is not ahead of the journal. -/
theorem recoverState_ok (h : Holds limits c dir) {opened : JournalOpened} {s : DurableState}
    (hlast : opened.report.lastSequence = c.last) (hstore : opened.report.header.store = c.store)
    (hok : DurableStore.recoverState limits c.parsed opened = .ok s) :
    (∀ p, c.published = some p → SnapshotBounds limits p.1) ∧ c.watermark ≤ c.last := by
  unfold DurableStore.recoverState Contents.parsed at hok
  cases hp : c.published with
  | none =>
    obtain ⟨hbase, hcov⟩ := h.fresh hp
    refine ⟨by simp, ?_⟩
    rw [show c.watermark = 0 by simp [Contents.watermark, hbase, hcov]]
    exact UInt64.zero_le
  | some p =>
    have hpub := h.published p hp
    have hahead : ¬ c.last < c.watermark := by
      intro hlt
      simp [hp, snapshotHeaderOf, hpub.store, hstore, hlast, hpub.sequence, hlt] at hok
    have hbounds : SnapshotBounds limits p.1 := by
      by_contra hno
      obtain ⟨status, hstatus⟩ := applySnapshotPayload_refused hpub.tables hpub.fits hpub.encodable hno
        { store := c.store, lastEpoch := p.1.lastEpoch }
      simp [hp, snapshotHeaderOf, hpub.store, hstore, hlast, hpub.sequence, hahead, hstatus] at hok
    refine ⟨fun q hq => ?_, not_lt.mp hahead⟩
    rw [Option.some.inj hq] at hbounds
    exact hbounds

/-- **`open_ok`**: whenever `Open` succeeds, the conditions held. -/
theorem open_ok (h : Holds limits c dir) {s : DurableStore} {report : DurableStore.StoreOpenReport}
    (hok : (DurableStore.open limits createIfMissing readOnly env dir).2 = .ok (s, report)) :
    ∃ state, Openable limits readOnly c state := by
  unfold DurableStore.open at hok
  rw [if_neg (by simp [h.present])] at hok
  have hclean : (if readOnly = true then dir else { dir with staging := none }).snapshot = dir.snapshot ∧
      (if readOnly = true then dir else { dir with staging := none }).journal = some c.journalFile := by
    cases readOnly <;> exact ⟨rfl, h.journal⟩
  have hread := readSnapshot_holds h
  rw [← hclean.1] at hread
  -- the snapshot is missing or within its size limit
  have hfinish : (∀ p, c.published = some p →
        112 + (encodeSnapshotPayload p.1).length ≤ maxSnapshotBytes limits) ∧
      (DurableStore.openFiles.finish limits createIfMissing readOnly false env
        (if readOnly = true then dir else { dir with staging := none }) c.parsed).2 = .ok (s, report) := by
    unfold DurableStore.openFiles at hok
    simp only [hread] at hok
    unfold Contents.parsed
    cases hp : c.published with
    | none =>
      simp only [hp] at hok
      rw [if_neg (by simp)] at hok
      exact ⟨by simp, hok⟩
    | some p =>
      simp only [hp] at hok
      by_cases hsize : maxSnapshotBytes limits < 112 + (encodeSnapshotPayload p.1).length
      · simp [hsize] at hok
      · simp only [if_neg hsize] at hok
        refine ⟨fun q hq => ?_, hok⟩
        rw [← Option.some.inj hq]
        exact not_lt.mp hsize
  obtain ⟨hsnapshot, hfinish⟩ := hfinish
  unfold DurableStore.openFiles.finish at hfinish
  simp only [hclean.2, Journal.open] at hfinish
  cases hexisting : (Journal.openExisting ⟨limits, createIfMissing && !readOnly, readOnly⟩ c.journalFile).2 with
  | error status => simp [hexisting] at hfinish
  | ok opened =>
    obtain ⟨hsize, hscan, htail, -, rfl⟩ := @openExisting_ok
      ⟨limits, createIfMissing && !readOnly, readOnly⟩ _ _ _ _ _ _ _ _ h.fits h.word h.torn
      (Prod.ext rfl hexisting)
    simp only [hexisting] at hfinish
    cases hrec : DurableStore.recoverState limits c.parsed
        (openedOf ⟨limits, createIfMissing && !readOnly, readOnly⟩ c.store c.created c.base c.entries c.tail) with
    | error status => simp [hrec] at hfinish
    | ok recovered =>
      obtain ⟨hbounds, hwatermark⟩ := recoverState_ok h rfl rfl hrec
      rw [recoverState_holds h _ rfl rfl rfl hbounds hwatermark] at hrec
      cases hreplay : replayEntries limits c.replayed c.start with
      | error status => simp [hreplay, Except.map] at hrec
      | ok state =>
        exact ⟨state, hsize, hscan, htail, hsnapshot, hbounds, hwatermark, hreplay⟩

end Opening

end FabricReconciliation
