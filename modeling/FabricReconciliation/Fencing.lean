import FabricReconciliation.Epochs
import FabricReconciliation.Histories
import FabricReconciliation.Recorded

/-!
# Fences (`engine.cpp:217-232`, `engine.cpp:1123-1203`)

Fences sit in a map under identities the callers choose, while what they cover is a union.

* **`fences_revoke`** — a step that is no `ClearFence` keeps every covered triple covered, unless it is a
  `PutFence` that replaces a fence covering more.
-/

namespace FabricReconciliation

open Lib

/-- What one fence covers. -/
def FenceEntry.covers (f : FenceEntry) (scope : ScopeId) (subject : SubjectId) (epoch : CoordinatorEpoch) : Bool :=
  f.scope = scope && (f.subject.empty || f.subject = subject) && decide (epoch < f.fencedBelow)

/-- Whatever is stored under the identity of `f` covers nothing that `f` and the other fences do not cover. -/
def Subsumed (s : DurableState) (f : FenceEntry) : Prop :=
  ∀ old, s.fences.find? f.id = some old → ∀ scope subject epoch, old.covers scope subject epoch = true →
    f.covers scope subject epoch = true ∨
      ∃ id other, id ≠ f.id ∧ s.fences.find? id = some other ∧ other.covers scope subject epoch = true

section Coverage

variable {limits : RuntimeLimits} {s t : DurableState} {scope : ScopeId} {subject : SubjectId} {epoch : CoordinatorEpoch}

theorem fenceHoldsFor_iff : fenceHoldsFor s scope subject epoch = true ↔
    ∃ id f, s.fences.find? id = some f ∧ f.covers scope subject epoch = true := by
  unfold fenceHoldsFor
  rw [List.any_eq_true]
  constructor
  · rintro ⟨f, hf, hcovers⟩
    obtain ⟨id, hid⟩ := OrdMap.mem_values_iff.mp hf
    exact ⟨id, f, hid, hcovers⟩
  · rintro ⟨id, f, hid, hcovers⟩
    exact ⟨f, OrdMap.mem_values_iff.mpr ⟨id, hid⟩, hcovers⟩

theorem fenceHoldsFor_congr (h : s.fences = t.fences) :
    fenceHoldsFor s scope subject epoch = fenceHoldsFor t scope subject epoch := by
  unfold fenceHoldsFor
  rw [h]

/-- A fence that takes the place of a smaller one. -/
theorem fenceHoldsFor_put {f : FenceEntry} (hsub : Subsumed s f) (now : UnixMillis)
    (h : fenceHoldsFor s scope subject epoch = true) :
    fenceHoldsFor (applyFence { f with createdUnixMs := now } s) scope subject epoch = true := by
  have hother : ∀ {id other}, id ≠ f.id → s.fences.find? id = some other → other.covers scope subject epoch = true →
      fenceHoldsFor (applyFence { f with createdUnixMs := now } s) scope subject epoch = true := by
    intro id other hne hfind hcovers
    refine fenceHoldsFor_iff.mpr ⟨id, other, ?_, hcovers⟩
    show (s.fences.insert f.id _).find? id = _
    rw [OrdMap.find?_insert_ne _ _ hne]
    exact hfind
  obtain ⟨id, old, hfind, hcovers⟩ := fenceHoldsFor_iff.mp h
  by_cases hid : id = f.id
  · subst hid
    rcases hsub old hfind scope subject epoch hcovers with hnew | ⟨id, other, hne, hfind', hcovers'⟩
    · exact fenceHoldsFor_iff.mpr ⟨f.id, _, OrdMap.find?_insert_self _ _ _, hnew⟩
    · exact hother hne hfind' hcovers'
  · exact hother hid hfind hcovers

/-- After a fence has been put, only it is new. -/
theorem fenceHoldsFor_of_put {f : FenceEntry} (h : fenceHoldsFor (applyFence f s) scope subject epoch = true) :
    f.covers scope subject epoch = true ∨ fenceHoldsFor s scope subject epoch = true := by
  obtain ⟨id, other, hfind, hcovers⟩ := fenceHoldsFor_iff.mp h
  have hfind : (s.fences.insert f.id f).find? id = some other := hfind
  rw [OrdMap.find?_insert] at hfind
  by_cases hid : id = f.id
  · rw [if_pos hid, Option.some.injEq] at hfind
    rw [hfind]
    exact .inl hcovers
  · rw [if_neg hid] at hfind
    exact .inr (fenceHoldsFor_iff.mpr ⟨id, other, hfind, hcovers⟩)

theorem fenceHoldsFor_of_clear {id : FenceId}
    (h : fenceHoldsFor (applyFenceClear id s) scope subject epoch = true) :
    fenceHoldsFor s scope subject epoch = true := by
  obtain ⟨k, f, hfind, hcovers⟩ := fenceHoldsFor_iff.mp h
  have hfind : (s.fences.erase id).find? k = some f := hfind
  rw [OrdMap.find?_erase] at hfind
  split at hfind
  · simp at hfind
  · exact fenceHoldsFor_iff.mpr ⟨k, f, hfind, hcovers⟩

end Coverage

/-! ## Fences revoke -/

section Revoke

variable {limits : RuntimeLimits} {live : Incarnation} {cause : Option Operation} {v w : View}

/-- The fences that a cause other than `PutFence` and `ClearFence` leaves. -/
theorem Acts.fences (h : Acts limits live cause v w) (hput : ∀ f, cause ≠ some (.putFence f))
    (hclear : ∀ id, cause ≠ some (.clearFence id)) : w.memory.fences = v.memory.fences := by
  refine h.memory (P := fun st => st.fences = v.memory.fences) rfl ?_
  intro st e hst he _ _
  cases he with
  | fencePut f now hid hscope hcause => exact absurd hcause (hput f)
  | fenceClear id hid hcause => exact absurd hcause (hclear id)
  | _ => exact hst

/-- `ClearFence` leaves all other fences. -/
theorem Acts.cleared {id : FenceId} (h : Acts limits live (some (.clearFence id)) v w) :
    ∀ k f, k ≠ id → v.memory.fences.find? k = some f → w.memory.fences.find? k = some f := by
  refine h.memory (P := fun st => ∀ k f, k ≠ id → v.memory.fences.find? k = some f → st.fences.find? k = some f)
    (fun _ _ _ hf => hf) ?_
  intro st e hst he _ _ k f hk hf
  cases he with
  | fencePut f now hid hscope hcause => simp at hcause
  | fenceClear id' hid hcause =>
    simp only [Option.some.injEq, Operation.clearFence.injEq] at hcause
    subst hcause
    show (st.fences.erase id).find? k = some f
    rw [OrdMap.find?_erase, if_neg hk]
    exact hst k f hk hf
  | _ => exact hst k f hk hf

/-- After `PutFence` the stored fence is its own. -/
theorem Subsumed.write {st : DurableState} {f : FenceEntry} (h : Subsumed st f) {e : Event}
    (he : Write limits live (some (.putFence f)) st e) : Subsumed (applyEvent limits st e) f := by
  cases he with
  | fencePut f' now hid hscope hcause =>
    simp only [Option.some.injEq, Operation.putFence.injEq] at hcause
    subst hcause
    intro old hold scope subject epoch hcovers
    have hold : (st.fences.insert f.id { f with createdUnixMs := now }).find? f.id = some old := hold
    rw [OrdMap.find?_insert_self, Option.some.injEq] at hold
    rw [← hold] at hcovers
    exact .inl hcovers
  | fenceClear id hid hcause => simp at hcause
  | _ => exact h

/-- `PutFence` takes the place of a smaller fence. -/
theorem Acts.put {f : FenceEntry} (h : Acts limits live (some (.putFence f)) v w) (hsub : Subsumed v.memory f)
    {scope : ScopeId} {subject : SubjectId} {epoch : CoordinatorEpoch}
    (hholds : fenceHoldsFor v.memory scope subject epoch = true) :
    fenceHoldsFor w.memory scope subject epoch = true := by
  refine (h.memory (P := fun st => fenceHoldsFor st scope subject epoch = true ∧ Subsumed st f)
    ⟨hholds, hsub⟩ ?_).1
  rintro st e ⟨hst, hsub⟩ he - -
  refine ⟨?_, hsub.write he⟩
  cases he with
  | fencePut f' now hid hscope hcause =>
    simp only [Option.some.injEq, Operation.putFence.injEq] at hcause
    subst hcause
    exact fenceHoldsFor_put hsub now hst
  | fenceClear id hid hcause => simp at hcause
  | _ => exact hst

/-- The record beyond memory clears no fence and replaces none that covers more. -/
def View.Fenced (v : View) : Prop :=
  ∀ e, v.pending = some e → (∀ id, e ≠ .fenceClear id) ∧ ∀ f, e = .fencePut f → Subsumed v.memory f

theorem View.Fenced.of_none (h : v.pending = none) : v.Fenced := by
  intro e he
  simp [h] at he

/-- One append of a call that is no `ClearFence`. -/
theorem View.Fenced.append {u x : View} {e : Event} {ok : Bool} (h : u.Fenced)
    (he : Write limits live cause u.memory e) (hclear : ∀ id, cause ≠ some (.clearFence id))
    (hput : ∀ f, cause = some (.putFence f) → Subsumed u.memory f) (ha : Append limits u e ok x) : x.Fenced := by
  rcases ha.pending with ⟨hsame, hmem⟩ | hnone | ⟨hnew, hmem, -⟩
  · intro e' he'
    rw [hmem]
    exact h e' (hsame ▸ he')
  · exact .of_none hnone
  · intro e' he'
    rw [hnew, Option.some.injEq] at he'
    subst he'
    rw [hmem]
    refine ⟨?_, ?_⟩
    · rintro id rfl
      cases he with
      | fenceClear id hid hcause => exact hclear id hcause
    · rintro f rfl
      cases he with
      | fencePut f now hid hscope hcause => exact hput f hcause

/-- What one step must satisfy: a `PutFence` replaces no fence that covers more, and a `ClearFence` that
reports a failed append has not reached the file. -/
structure Revoking (p : Process) (a : Step) : Prop where
  orderly : p.Orderly a
  put : ∀ f env, a = .call (.putFence f) env → Subsumed p.state f
  clear : ∀ id env, a = .call (.clearFence id) env → p.Told a

theorem subsumed_congr {s t : DurableState} (h : s.fences = t.fences) {f : FenceEntry} :
    Subsumed s f ↔ Subsumed t f := by
  unfold Subsumed
  rw [h]

theorem View.Fenced.acts (h : v.Fenced) (hclear : ∀ id, cause ≠ some (.clearFence id))
    (hput : ∀ f, cause = some (.putFence f) → Subsumed v.memory f) (hacts : Acts limits live cause v w) :
    w.Fenced := by
  refine (hacts.each (J := fun u => u.Fenced ∧ ∀ f, cause = some (.putFence f) → Subsumed u.memory f)
    ⟨h, hput⟩ ?_ ?_).1
  · rintro u x e ok ⟨hu, hsub⟩ he happend
    refine ⟨hu.append he hclear hsub happend, ?_⟩
    rcases happend.memory with ⟨-, -, -, hmem⟩ | ⟨-, hmem⟩
    · rintro f rfl
      rw [hmem]
      exact (hsub f rfl).write he
    · rw [hmem]
      exact hsub
  · rintro u ⟨-, hsub⟩
    exact ⟨.of_none rfl, hsub⟩

/-- Reading the files again uncovers nothing. -/
theorem Reopened.fenceHoldsFor (h : Reopened limits v w) (hsound : v.Sound limits) (hfenced : v.Fenced)
    {scope : ScopeId} {subject : SubjectId} {epoch : CoordinatorEpoch}
    (hholds : fenceHoldsFor v.memory scope subject epoch = true) :
    FabricReconciliation.fenceHoldsFor w.memory scope subject epoch = true := by
  cases h with
  | same hnone => exact hholds
  | caughtUp e hsome hfits hok =>
    obtain ⟨hclear, hput⟩ := hfenced e hsome
    obtain ⟨live, cause, he⟩ := hsound.writable e hsome
    cases he with
    | fencePut f now hid hscope hcause =>
      exact fenceHoldsFor_put (f := { f with createdUnixMs := now }) (hput _ rfl) now hholds
    | fenceClear id hid hcause => exact absurd rfl (hclear id)
    | _ => exact hholds

/-- In every run of such steps the files are no more permissive than memory. -/
theorem run_fenced {p : Process} (hp : Run limits Revoking p) :
    ∃ v, Kept limits p v ∧ v.Sound limits ∧ v.Fenced := by
  refine run_kept (J := fun _ v => v.Sound limits ∧ v.Fenced) ⟨.of_none rfl, .of_none rfl⟩ ?_
    (fun _ _ ha => ha.orderly) hp
  rintro p a v w hv ⟨hsound, hfenced⟩ ha hprogress hw
  refine ⟨hprogress.sound hsound, ?_⟩
  cases hprogress with
  | idle => exact hfenced
  | readOnly dir last opening id env hmode h => exact .of_none h.pending
  | boot dir last opening id env hmode h hacts =>
    exact (View.Fenced.of_none h.pending).acts (by simp) (by simp) hacts
  | call e operation env hacts =>
    by_cases hcleared : ∃ id, operation = .clearFence id
    · obtain ⟨id, rfl⟩ := hcleared
      have htold := ha.clear id env rfl
      unfold Process.Told at htold
      rw [hv.appends hw] at htold
      rcases hacts.told htold with ⟨hsame, hmem⟩ | hnone
      · intro e' he'
        rw [hmem]
        exact hfenced e' (hsame ▸ he')
      · exact .of_none hnone
    · refine hfenced.acts ?_ ?_ hacts
      · exact fun id hid => hcleared ⟨id, Option.some.inj hid⟩
      · intro f hf
        refine (subsumed_congr ?_).mpr (ha.put f env (by rw [Option.some.inj hf]))
        rw [hv.tables]
        rfl

/-- **`fences_revoke`**. -/
theorem fences_revoke {p : Process} (hp : Run limits Revoking p) {a : Step} (ha : Revoking p a)
    (hlimits : ∀ options opening id env, a = .boot options opening id env → options.limits = limits) :
    ((∀ id env, a ≠ .call (.clearFence id) env) → ∀ scope subject epoch,
      fenceHoldsFor p.state scope subject epoch = true → fenceHoldsFor (p.step a).2.state scope subject epoch = true) ∧
    ∀ id env, a = .call (.clearFence id) env → ∀ scope subject epoch,
      fenceHoldsFor (p.step a).2.state scope subject epoch = false →
      ∀ k f, p.state.fences.find? k = some f → f.covers scope subject epoch = true → k = id := by
  obtain ⟨v, hv, hsound, hfenced⟩ := run_fenced hp
  obtain ⟨w, hw, hprogress⟩ := step_progress hv ha.orderly hlimits
  have hbefore : v.memory.fences = p.state.fences := by rw [hv.tables]; rfl
  have hafter : w.memory.fences = (p.step a).2.state.fences := by rw [hw.tables]; rfl
  refine ⟨?_, ?_⟩
  · intro hnot scope subject epoch hholds
    rw [← fenceHoldsFor_congr hafter]
    rw [← fenceHoldsFor_congr hbefore] at hholds
    cases hprogress with
    | idle => exact hholds
    | readOnly dir last opening id env hmode h => exact h.fenceHoldsFor hsound hfenced hholds
    | boot dir last opening id env hmode h hacts =>
      exact (fenceHoldsFor_congr (hacts.fences (by simp) (by simp))).trans (h.fenceHoldsFor hsound hfenced hholds)
    | call e operation env hacts =>
      by_cases hputs : ∃ f, operation = .putFence f
      · obtain ⟨f, rfl⟩ := hputs
        exact hacts.put ((subsumed_congr hbefore).mpr (ha.put f env rfl)) hholds
      · refine (fenceHoldsFor_congr (hacts.fences ?_ ?_)).trans hholds
        · rintro f hf
          exact hputs ⟨f, Option.some.inj hf⟩
        · rintro id hid
          rw [Option.some.inj hid] at hnot
          exact hnot id env rfl
  · rintro id env rfl scope subject epoch hfree k f hfind hcovers
    by_contra hk
    have hkept : w.memory.fences.find? k = some f := by
      rw [← hbefore] at hfind
      cases hprogress with
      | idle => exact hfind
      | call e operation env hacts => exact hacts.cleared k f hk hfind
    have hstill : fenceHoldsFor w.memory scope subject epoch = true := fenceHoldsFor_iff.mpr ⟨k, f, hkept, hcovers⟩
    rw [fenceHoldsFor_congr hafter, hfree] at hstill
    simp at hstill

/-- A fence of scope `s` under the identity `f`. -/
def sampleFence (subject : SubjectId) (below : CoordinatorEpoch) : FenceEntry :=
  ⟨⟨[0x66], .inr rfl⟩, ⟨[0x73], valid_s⟩, subject, below, .none, [], 1⟩

/-- What the store takes of a first boot and the fences put up after it. -/
def fenceEvents (fences : List FenceEntry) : List Event :=
  [.policyPut defaultPolicy, .epochAdvance 1] ++ fences.map .fencePut

/-- The engine that was booted on a new directory and has put up the fences. -/
def fenceEngine (fences : List FenceEntry) : Engine :=
  Engine.on {} {} ⟨1, FixedBytes.zero⟩ 2 (told (fenceEvents fences)) (fenceEvents fences)

theorem fenceEngine_boots : Process.step (.down {} {}) (.boot {} {} FixedBytes.zero {}) =
    (Status.ok, .up (fenceEngine [])) := boot_default

/-- A fence is put up where no attempt is open. -/
theorem fenceEngine_puts {fences : List FenceEntry} {fence : FenceEntry} (hok : FenceOk fence)
    (hbelow : fence.fencedBelow ≠ 0) (hstamp : fence.createdUnixMs ≠ 0)
    (hvictims : Engine.fenceVictims (fenceEngine (fences ++ [fence])).store.state fence = [])
    (hroom : UInt64.ofNat (fenceEvents (fences ++ [fence])).length - 2 < 8192) :
    (Process.up (fenceEngine fences)).step (.call (.putFence fence) {}) =
      (Status.ok, .up (fenceEngine (fences ++ [fence]))) := by
  have hevents : fenceEvents (fences ++ [fence]) = fenceEvents fences ++ [.fencePut fence] := by simp [fenceEvents]
  have hdetail := hok.detail
  simp only [kMaxIdentityLength] at hdetail
  have hput := @putFence_recorded {} (told (fenceEvents fences)) (fenceEvents fences) {} ⟨1, FixedBytes.zero⟩ 2 {}
    fence rfl hok.id hok.scope hbelow hstamp hok ((brief_fence (by omega)).fits ⟨rfl, rfl⟩) []
    (by rw [fenceEngine, hevents, told_append] at hvictims; exact hvictims) (by simp) [] rfl
    (by rw [hevents] at hroom; exact .inr (by simpa using hroom))
  rw [fenceEngine, fenceEngine, hevents, told_append]
  simpa [told] using hput

/-- A fence for one subject, replaced by a fence for its whole scope. -/
theorem fences_revoke_widened :
    let p := (Process.step (.down {} {}) (.boot {} {} FixedBytes.zero {})).2
    let q := (p.step (.call (.putFence (sampleFence ⟨[0x61], .inr rfl⟩ 5)) {})).2
    let r := (q.step (.call (.putFence (sampleFence ⟨[], .inl rfl⟩ 7)) {})).2
    fenceHoldsFor q.state ⟨[0x73], .inr rfl⟩ ⟨[0x61], .inr rfl⟩ 4 = true ∧
      fenceHoldsFor r.state ⟨[0x73], .inr rfl⟩ ⟨[0x61], .inr rfl⟩ 4 = true := by
  intro p q r
  have hboot : Revoking (.down {} {}) (.boot {} {} FixedBytes.zero {}) := ⟨trivial, by simp, by simp⟩
  have hfacts : p.state.fences.find? (sampleFence ⟨[0x61], .inr rfl⟩ 5).id = none ∧
      q.state.fences.find? (sampleFence ⟨[], .inl rfl⟩ 7).id = some (sampleFence ⟨[0x61], .inr rfl⟩ 5) ∧
      fenceHoldsFor q.state ⟨[0x73], .inr rfl⟩ ⟨[0x61], .inr rfl⟩ 4 = true := by
    have hp : p = .up (fenceEngine []) := congrArg Prod.snd fenceEngine_boots
    have hq : q = .up (fenceEngine [sampleFence ⟨[0x61], .inr rfl⟩ 5]) := by
      show (p.step _).2 = _
      rw [hp]
      exact congrArg Prod.snd (fenceEngine_puts (by decide) (by decide) (by decide) rfl (by decide))
    rw [hp, hq]
    exact ⟨rfl, rfl, rfl⟩
  obtain ⟨hnone, hstored, hholds⟩ := hfacts
  have hfirst : Revoking p (.call (.putFence (sampleFence ⟨[0x61], .inr rfl⟩ 5)) {}) := by
    refine ⟨.inl rfl, ?_, by simp⟩
    rintro f env heq
    injection heq with hop
    injection hop with hf
    subst hf
    intro old hold
    rw [hnone] at hold
    simp at hold
  have hsecond : Revoking q (.call (.putFence (sampleFence ⟨[], .inl rfl⟩ 7)) {}) := by
    refine ⟨.inl rfl, ?_, by simp⟩
    rintro f env heq
    injection heq with hop
    injection hop with hf
    subst hf
    intro old hold scope subject epoch hcovers
    rw [hstored, Option.some.injEq] at hold
    subst hold
    left
    simp only [FenceEntry.covers, sampleFence, Bool.and_eq_true] at hcovers ⊢
    have hbelow : epoch < 5 := of_decide_eq_true hcovers.2
    exact ⟨⟨hcovers.1.1, rfl⟩, decide_eq_true (lt_trans hbelow (by decide))⟩
  have hp : Run {} Revoking p := Run.boot .start {} {} FixedBytes.zero {} rfl hboot
  have hq : Run {} Revoking q := hp.call _ {} hfirst
  exact ⟨hholds, (fences_revoke hq hsecond (by simp)).1 (by simp) _ _ _ hholds⟩

/-- The same identity, used again for another scope, takes the first fence away. -/
theorem fence_replaced :
    let p := (Process.step (.down {} {}) (.boot {} {} FixedBytes.zero {})).2
    let q := (p.step (.call (.putFence (sampleFence ⟨[], .inl rfl⟩ 5)) {})).2
    let other := { sampleFence ⟨[], .inl rfl⟩ 5 with scope := ⟨[0x74], .inr rfl⟩ }
    Run {} Process.Orderly q ∧ fenceHoldsFor q.state ⟨[0x73], .inr rfl⟩ ⟨[0x61], .inr rfl⟩ 4 = true ∧
      (q.step (.call (.putFence other) {})).1 = Status.ok ∧
      fenceHoldsFor (q.step (.call (.putFence other) {})).2.state ⟨[0x73], .inr rfl⟩
        ⟨[0x61], .inr rfl⟩ 4 = false := by
  intro p q other
  have hrun : Run {} Process.Orderly p := Run.boot .start {} {} FixedBytes.zero {} rfl trivial
  have hp : p = .up (fenceEngine []) := congrArg Prod.snd fenceEngine_boots
  have hq : q = .up (fenceEngine [sampleFence ⟨[], .inl rfl⟩ 5]) := by
    show (p.step _).2 = _
    rw [hp]
    exact congrArg Prod.snd (fenceEngine_puts (by decide) (by decide) (by decide) rfl (by decide))
  have hreplaced : q.step (.call (.putFence other) {}) =
      (Status.ok, .up (fenceEngine [sampleFence ⟨[], .inl rfl⟩ 5, other])) := by
    rw [hq]
    exact fenceEngine_puts (by decide) (by decide) (by decide) rfl (by decide)
  refine ⟨hrun.call _ {} (.inl rfl), ?_⟩
  rw [hreplaced, hq]
  exact ⟨rfl, rfl, rfl⟩

end Revoke

end FabricReconciliation
