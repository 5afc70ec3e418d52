import FabricReconciliation.Evidence

/-!
# The order of the candidates (`drift.hpp:164-188`, `drift.cpp:283-343`)

Both selections are a first-wins maximum and a second scan against the winner. Neither the winner's place nor
its twins matter: what is answered is a function of the candidates as a set.

* **`selectCurrent_settles`** — what a selection answers, said without the order of its candidates;
* **`Settlement.concur`** — two answers to candidates of one set concur;
* **`selection_order_free`** — both selections, over every permutation of their candidates.
-/

namespace FabricReconciliation

open Lib

section Order

variable {α : Type} {generation : α → UInt64} {digest : α → Digest} {noneReason : ReasonCode}
  {candidates : List (Option α)} {s t : Selection α} {x y : α}

/-- A candidate of the last generation. -/
structure Foremost (generation : α → UInt64) (candidates : List (Option α)) (x : α) : Prop where
  candidate : some x ∈ candidates
  top : ∀ y, some y ∈ candidates → generation y ≤ generation x

/-- There is a candidate, and those of the last generation have one digest. -/
structure Unanimous (generation : α → UInt64) (digest : α → Digest) (candidates : List (Option α)) : Prop where
  candidate : ∃ x, some x ∈ candidates
  agree : ∀ x y, Foremost generation candidates x → Foremost generation candidates y → digest x = digest y

/-- An answer that fits the candidates. -/
structure Settlement (generation : α → UInt64) (digest : α → Digest) (noneReason : ReasonCode)
    (candidates : List (Option α)) (s : Selection α) : Prop where
  latest : ∀ d, s.selected = some d → Foremost generation candidates d
  selected : s.selected.isSome = true ↔ Unanimous generation digest candidates
  conflicted : s.conflicted = true ↔ Contested generation digest candidates
  reason : s.reason =
    if s.conflicted then .conflictingRepublishers else if s.selected.isSome then .none else noneReason

/-- Two answers with the same flag, the same reason and the same document by generation and digest. -/
structure Concur (generation : α → UInt64) (digest : α → Digest) (s t : Selection α) : Prop where
  conflicted : s.conflicted = t.conflicted
  reason : s.reason = t.reason
  document : s.selected.map (fun d => (generation d, digest d)) = t.selected.map fun d => (generation d, digest d)

theorem Foremost.generation_eq (hx : Foremost generation candidates x) (hy : Foremost generation candidates y) :
    generation x = generation y :=
  le_antisymm (hy.top x hx.candidate) (hx.top y hy.candidate)

/-- **`selectCurrent_settles`**. -/
theorem selectCurrent_settles {less : α → α → Bool} (hless : ∀ a b, less a b = true → generation a ≤ generation b)
    (hnot : ∀ a b, less a b = false → generation b ≤ generation a) :
    Settlement generation digest noneReason candidates (selectCurrent less generation digest noneReason candidates) := by
  have hconflicted := @selectCurrent_conflicted α less generation digest noneReason candidates hless hnot
  rcases selectCurrent_cases digest noneReason candidates hless hnot with
    ⟨hnone, hselect⟩ | ⟨current, hin, htop, ⟨⟨x, hx, hgeneration, hdigest⟩, hselect⟩ | ⟨hagree, hselect⟩⟩
  · rw [hselect] at hconflicted ⊢
    refine ⟨by simp, ⟨by simp, fun h => ?_⟩, hconflicted, rfl⟩
    obtain ⟨x, hx⟩ := h.candidate
    exact absurd hx (hnone x)
  · rw [hselect] at hconflicted ⊢
    refine ⟨by simp, ⟨by simp, fun h => ?_⟩, hconflicted, rfl⟩
    have hforemost : Foremost generation candidates x := ⟨hx, fun y hy => hgeneration ▸ htop y hy⟩
    exact absurd (h.agree x current hforemost ⟨hin, htop⟩) hdigest
  · rw [hselect] at hconflicted ⊢
    have hcurrent : Foremost generation candidates current := ⟨hin, htop⟩
    refine ⟨?_, ⟨fun _ => ⟨⟨current, hin⟩, ?_⟩, fun _ => rfl⟩, hconflicted, rfl⟩
    · intro d hd
      rw [← Option.some.inj hd]
      exact hcurrent
    · intro x y hx hy
      rw [hagree x hx.candidate (hx.generation_eq hcurrent), hagree y hy.candidate (hy.generation_eq hcurrent)]

/-- The same candidates in another order settle the same way. -/
theorem Settlement.of_perm {candidates' : List (Option α)} (hperm : candidates.Perm candidates')
    (h : Settlement generation digest noneReason candidates s) :
    Settlement generation digest noneReason candidates' s := by
  have hforemost : ∀ x, Foremost generation candidates x ↔ Foremost generation candidates' x := fun x =>
    ⟨fun hx => ⟨hperm.mem_iff.mp hx.candidate, fun y hy => hx.top y (hperm.mem_iff.mpr hy)⟩,
      fun hx => ⟨hperm.mem_iff.mpr hx.candidate, fun y hy => hx.top y (hperm.mem_iff.mp hy)⟩⟩
  refine ⟨fun d hd => (hforemost d).mp (h.latest d hd), h.selected.trans ⟨fun hu => ?_, fun hu => ?_⟩, ?_, h.reason⟩
  · obtain ⟨x, hx⟩ := hu.candidate
    exact ⟨⟨x, hperm.mem_iff.mp hx⟩, fun y z hy hz => hu.agree y z ((hforemost y).mpr hy) ((hforemost z).mpr hz)⟩
  · obtain ⟨x, hx⟩ := hu.candidate
    exact ⟨⟨x, hperm.mem_iff.mpr hx⟩, fun y z hy hz => hu.agree y z ((hforemost y).mp hy) ((hforemost z).mp hz)⟩
  · rw [h.conflicted]
    unfold Contested
    simp only [hperm.mem_iff]

/-- **`Settlement.concur`**. -/
theorem Settlement.concur (hs : Settlement generation digest noneReason candidates s)
    (ht : Settlement generation digest noneReason candidates t) : Concur generation digest s t := by
  have hconflicted : s.conflicted = t.conflicted := Bool.eq_iff_iff.mpr (hs.conflicted.trans ht.conflicted.symm)
  have hsome : s.selected.isSome = t.selected.isSome := Bool.eq_iff_iff.mpr (hs.selected.trans ht.selected.symm)
  refine ⟨hconflicted, by rw [hs.reason, ht.reason, hconflicted, hsome], ?_⟩
  cases hselected : s.selected with
  | none =>
    rw [hselected] at hsome
    have hnone : t.selected = none := by simpa using hsome.symm
    rw [hnone]
  | some x =>
    rw [hselected] at hsome
    obtain ⟨y, hy⟩ := Option.isSome_iff_exists.mp hsome.symm
    have hx := hs.latest x hselected
    have hforemost := ht.latest y hy
    have hunanimous := hs.selected.mp (by rw [hselected]; rfl)
    rw [hy, Option.map_some, Option.map_some, hx.generation_eq hforemost, hunanimous.agree x y hx hforemost]

end Order

theorem selectCurrentIntent_settles (candidates : List (Option IntentDocument)) :
    Settlement IntentDocument.generation IntentDocument.digest .noIntentForScope candidates
      (selectCurrentIntent candidates) :=
  selectCurrent_settles (fun _ _ h => le_of_lt (of_decide_eq_true h)) (fun _ _ h => not_lt.mp (of_decide_eq_false h))

theorem selectCurrentObservation_settles (candidates : List (Option ObservationDocument)) :
    Settlement ObservationDocument.generation ObservationDocument.digest .noObservationForScope candidates
      (selectCurrentObservation candidates) :=
  selectCurrent_settles (fun x y => (observationKeyLess_generation x y).1)
    (fun x y => (observationKeyLess_generation x y).2)

theorem selectCurrentObservation_last {xs : List (Option ObservationDocument)} {d : ObservationDocument}
    (h : (selectCurrentObservation xs).selected = some d) : ∀ x, some x ∈ xs → x.key ≤ d.key := by
  apply selectCurrent_last (fun a b hless => le_of_lt (observationKeyLess_iff.mp hless)) (fun a b hnot => ?_) h
  by_contra hlt
  rw [observationKeyLess_iff.mpr (not_le.mp hlt)] at hnot
  simp at hnot

/-- **`selection_order_free`**: permuted candidates get answers that concur; what is selected is of the last generation,
and something is exactly when the candidates of that generation agree; an observation is also the last by key. -/
theorem selection_order_free :
    (∀ xs ys : List (Option IntentDocument), xs.Perm ys →
      Concur IntentDocument.generation IntentDocument.digest (selectCurrentIntent xs) (selectCurrentIntent ys)) ∧
    (∀ xs ys : List (Option ObservationDocument), xs.Perm ys →
      Concur ObservationDocument.generation ObservationDocument.digest (selectCurrentObservation xs)
        (selectCurrentObservation ys)) ∧
    (∀ xs, ((selectCurrentIntent xs).selected.isSome = true ↔
        Unanimous IntentDocument.generation IntentDocument.digest xs) ∧
      ∀ d, (selectCurrentIntent xs).selected = some d → Foremost IntentDocument.generation xs d) ∧
    (∀ xs, ((selectCurrentObservation xs).selected.isSome = true ↔
        Unanimous ObservationDocument.generation ObservationDocument.digest xs) ∧
      ∀ d, (selectCurrentObservation xs).selected = some d →
        Foremost ObservationDocument.generation xs d ∧ ∀ x, some x ∈ xs → x.key ≤ d.key) := by
  refine ⟨fun xs ys hperm => ?_, fun xs ys hperm => ?_, fun xs => ?_, fun xs => ?_⟩
  · exact ((selectCurrentIntent_settles xs).of_perm hperm).concur (selectCurrentIntent_settles ys)
  · exact ((selectCurrentObservation_settles xs).of_perm hperm).concur (selectCurrentObservation_settles ys)
  · exact ⟨(selectCurrentIntent_settles xs).selected, (selectCurrentIntent_settles xs).latest⟩
  · refine ⟨(selectCurrentObservation_settles xs).selected, fun d hd => ?_⟩
    exact ⟨(selectCurrentObservation_settles xs).latest d hd, selectCurrentObservation_last hd⟩

/-- Two reports and an empty entry, from either end. -/
theorem selection_order_free_reversed :
    Concur ObservationDocument.generation ObservationDocument.digest
      (selectCurrentObservation [some ((sampleReport 1).document 1 1), none, some ((sampleReport 2).document 1 1)])
      (selectCurrentObservation [some ((sampleReport 2).document 1 1), none, some ((sampleReport 1).document 1 1)]) := by
  apply selection_order_free.2.1
  exact (List.reverse_perm _).symm

end FabricReconciliation
