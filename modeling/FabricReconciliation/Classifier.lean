import FabricReconciliation.Lib.Merge
import FabricReconciliation.Drift

/-!
# The classifier against its specification (`drift.cpp:52-146`, `drift.cpp:355-616`)

`ClassifyScope` is two nested merge loops, subjects outside and attributes inside. Its specification is
set based: one drift class per subject, read off the two documents by looking keys up.

* **`classifyScope_specified`** — for every canonical policy and candidates of the scope, the records ascend
  strictly by subject and give each subject the specified class;
* **`mem_walkSubject_deltas`** — the attribute walk reports exactly the deltas the lookups give;
* **`phantom_free_iff`** — differences are real exactly when no attribute is `Absent` on one side and left
  out of the other: the one-sided branches of the walk do not read the two absences alike.
-/

namespace FabricReconciliation

open Lib

/-! ## Policy lists -/

/-- Where a lower bound lies: everything before it is smaller, nothing from it on is. -/
structure IsLowerBound (keys : List AttributeKey) (key : AttributeKey) (first last : Nat) : Prop where
  before : ∀ i x, keys[i]? = some x → i < first → x < key
  after : ∀ i x, keys[i]? = some x → last ≤ i → key ≤ x

/-- The loop narrows an interval that keeps the bound inside, until it is empty. -/
theorem lowerBound_spec {keys : List AttributeKey} {key : AttributeKey} (hsorted : keys.Pairwise (· < ·)) :
    ∀ {fuel first len : Nat}, len < fuel → first + len ≤ keys.length → IsLowerBound keys key first (first + len) →
      IsLowerBound keys key (lowerBound keys key fuel first len) (lowerBound keys key fuel first len) := by
  intro fuel
  induction fuel with
  | zero => intro first len hfuel; exact absurd hfuel (Nat.not_lt_zero _)
  | succ fuel ih =>
    intro first len hfuel hlen hbound
    by_cases hzero : len = 0
    · have hdone : lowerBound keys key (fuel + 1) first len = first := by simp [lowerBound, hzero]
      rw [hdone]
      simpa [hzero] using hbound
    · have hin : first + len / 2 < keys.length := by omega
      have hmiddle : keys[first + len / 2]? = some keys[first + len / 2] := List.getElem?_eq_getElem hin
      have hturn : lowerBound keys key (fuel + 1) first len =
          if keys[first + len / 2] < key then lowerBound keys key fuel (first + len / 2 + 1) (len - len / 2 - 1)
          else lowerBound keys key fuel first (len / 2) := by
        simp only [lowerBound, if_neg hzero, hmiddle]
      have hmonotone : ∀ {i j : Nat} {x y : AttributeKey}, keys[i]? = some x → keys[j]? = some y → i < j → x < y := by
        intro i j x y hx hy hij
        obtain ⟨hi, rfl⟩ := List.getElem?_eq_some_iff.mp hx
        obtain ⟨hj, rfl⟩ := List.getElem?_eq_some_iff.mp hy
        exact List.pairwise_iff_getElem.mp hsorted i j hi hj hij
      rw [hturn]
      split
      next hless =>
        refine ih (by omega) (by omega) ⟨?_, ?_⟩
        · intro i x hx hi
          by_cases hi' : i = first + len / 2
          · rw [hi', hmiddle, Option.some.injEq] at hx
            exact hx ▸ hless
          · exact lt_trans (hmonotone hx hmiddle (by omega)) hless
        · intro i x hx hi
          exact hbound.after i x hx (by omega)
      next hnot =>
        refine ih (by omega) (by omega) ⟨hbound.before, ?_⟩
        intro i x hx hi
        by_cases hi' : i = first + len / 2
        · rw [hi', hmiddle, Option.some.injEq] at hx
          exact hx ▸ not_lt.mp hnot
        · exact le_of_lt (lt_of_le_of_lt (not_lt.mp hnot) (hmonotone hmiddle hx (by omega)))

/-- `std::binary_search` over a sorted list decides membership. -/
theorem binarySearch_iff {keys : List AttributeKey} {key : AttributeKey} (hsorted : keys.Pairwise (· < ·)) :
    binarySearch keys key = true ↔ key ∈ keys := by
  have hbound : IsLowerBound keys key (lowerBound keys key (keys.length + 1) 0 keys.length)
      (lowerBound keys key (keys.length + 1) 0 keys.length) := by
    refine lowerBound_spec hsorted (Nat.lt_succ_self _) (by omega) ⟨fun i x _ hi => absurd hi (Nat.not_lt_zero _), ?_⟩
    intro i x hx hi
    obtain ⟨hlt, -⟩ := List.getElem?_eq_some_iff.mp hx
    omega
  unfold binarySearch
  obtain ⟨position, hposition⟩ : ∃ p, p = lowerBound keys key (keys.length + 1) 0 keys.length := ⟨_, rfl⟩
  rw [← hposition] at hbound ⊢
  constructor
  · intro h
    cases hfound : keys[position]? with
    | none => simp [hfound] at h
    | some found =>
      simp only [hfound, Bool.not_eq_true', decide_eq_false_iff_not, not_lt] at h
      have heq : found = key := le_antisymm h (hbound.after position found hfound (le_refl _))
      exact heq ▸ List.mem_of_getElem? hfound
  · intro h
    obtain ⟨i, hi⟩ := List.mem_iff_getElem?.mp h
    have hle : position ≤ i := by
      by_contra hlt
      exact lt_irrefl _ (hbound.before i key hi (by omega))
    obtain ⟨hlen, hget⟩ := List.getElem?_eq_some_iff.mp hi
    have hin : position < keys.length := by omega
    rw [List.getElem?_eq_getElem hin]
    have hge : keys[position] ≤ key := by
      rcases Nat.lt_or_eq_of_le hle with hlt | heq
      · exact hget ▸ le_of_lt (List.pairwise_iff_getElem.mp hsorted position i hin hlen hlt)
      · subst heq
        exact le_of_eq hget
    simpa using hge

/-- Under a canonical policy the lookups are membership. -/
theorem PolicyOk.unmanaged_iff {limits : RuntimeLimits} {policy : ReconciliationPolicy} (h : PolicyOk limits policy)
    {key : AttributeKey} : isAttributeUnmanaged policy key = true ↔ key ∈ policy.unmanagedAttributes :=
  binarySearch_iff h.unmanagedSorted

theorem PolicyOk.observeOnly_iff {limits : RuntimeLimits} {policy : ReconciliationPolicy} (h : PolicyOk limits policy)
    {key : AttributeKey} : isAttributeObserveOnly policy key = true ↔ key ∈ policy.observeOnlyAttributes :=
  binarySearch_iff h.observeOnlySorted

/-! ## The attribute walk -/

/-- A valid value can be compared with itself. -/
theorem AttributeValue.comparableWith_self {v : AttributeValue} (h : v.isValid = true) :
    v.comparableWith v = true := by
  cases v <;> simp_all [comparableWith, kind, isValid]

/-- What one position of the walk adds. -/
def walkPart (intentComplete observationComplete : Bool) (policy : ReconciliationPolicy)
    (position : Join AttributeKey AttributeValue AttributeValue) : AttributeWalk :=
  walkStep intentComplete observationComplete policy ⟨[], false, false⟩ position

/-- A position adds the same to every walk. -/
theorem walkStep_adds (intentComplete observationComplete : Bool) (policy : ReconciliationPolicy)
    (walk : AttributeWalk) (position : Join AttributeKey AttributeValue AttributeValue) :
    walkStep intentComplete observationComplete policy walk position =
      ⟨walk.deltas ++ (walkPart intentComplete observationComplete policy position).deltas,
        walk.coverageGap || (walkPart intentComplete observationComplete policy position).coverageGap,
        walk.unsupported || (walkPart intentComplete observationComplete policy position).unsupported⟩ := by
  unfold walkPart
  cases position with
  | left key intended =>
    simp only [walkStep]
    split
    · simp
    · split <;> simp
  | right key observed =>
    simp only [walkStep]
    split
    · simp
    · split <;> simp
  | both key intended observed =>
    simp only [walkStep]
    split
    · simp
    split
    · simp
    split
    · simp
    split <;> simp

/-- A walk gathers what its positions add. -/
theorem walk_gathers (intentComplete observationComplete : Bool) (policy : ReconciliationPolicy)
    (positions : List (Join AttributeKey AttributeValue AttributeValue)) (walk : AttributeWalk) :
    positions.foldl (walkStep intentComplete observationComplete policy) walk =
      ⟨walk.deltas ++ positions.flatMap fun p => (walkPart intentComplete observationComplete policy p).deltas,
        walk.coverageGap || positions.any fun p => (walkPart intentComplete observationComplete policy p).coverageGap,
        walk.unsupported || positions.any fun p =>
          (walkPart intentComplete observationComplete policy p).unsupported⟩ := by
  induction positions generalizing walk with
  | nil => simp
  | cons position rest ih =>
    rw [List.foldl_cons, ih, walkStep_adds]
    simp [Bool.or_assoc]

/-- The attributes the policy does not exclude, as `IsAttributeUnmanaged` decides them. -/
abbrev Managed (policy : ReconciliationPolicy) (key : AttributeKey) : Prop :=
  isAttributeUnmanaged policy key = false

theorem PolicyOk.managed {limits : RuntimeLimits} {policy : ReconciliationPolicy} (h : PolicyOk limits policy) :
    Managed policy = fun key => key ∉ policy.unmanagedAttributes := by
  funext key
  rw [eq_iff_iff, Managed, ← h.unmanaged_iff, Bool.not_eq_true]

/-- The walk of one subject that both documents name. -/
def walkSubject (policy : ReconciliationPolicy) (declared seen : SubjectEntry) : AttributeWalk :=
  walkAttributes declared.desired seen.observed declared.completeAttributes seen.completeAttributes policy

/-- The deltas of a subject that both documents name, without the walk. -/
inductive Reported (policy : ReconciliationPolicy) (declared seen : SubjectEntry) : AttributeDelta → Prop
  /-- A key policy excludes is reported whatever the two sides say. -/
  | unmanaged {key : AttributeKey} {position : Join AttributeKey AttributeValue AttributeValue}
      {intended observed : AttributeValue} : isAttributeUnmanaged policy key = true →
      Join.at? key (declared.desired.find? key) (seen.observed.find? key) = some position →
      intended = (declared.desired.find? key).getD .absent → observed = (seen.observed.find? key).getD .absent →
      Reported policy declared seen ⟨key, .unmanaged, intended, observed⟩
  | onlyInIntent {key : AttributeKey} {intended : AttributeValue} : Managed policy key →
      declared.desired.find? key = some intended → seen.observed.find? key = none →
      seen.completeAttributes = true → Reported policy declared seen ⟨key, .onlyInIntent, intended, .absent⟩
  | onlyInObservation {key : AttributeKey} {observed : AttributeValue} : Managed policy key →
      declared.desired.find? key = none → seen.observed.find? key = some observed →
      declared.completeAttributes = true → Reported policy declared seen ⟨key, .onlyInObservation, .absent, observed⟩
  | notComparable {key : AttributeKey} {intended observed : AttributeValue} :
      Managed policy key → declared.desired.find? key = some intended →
      seen.observed.find? key = some observed → intended.isValid = true → observed.isValid = true →
      intended.comparableWith observed = false →
      Reported policy declared seen ⟨key, .notComparable, intended, observed⟩
  | observeOnly {key : AttributeKey} {intended observed : AttributeValue} :
      Managed policy key → declared.desired.find? key = some intended →
      seen.observed.find? key = some observed → intended.isValid = true → observed.isValid = true →
      intended.comparableWith observed = true → intended ≠ observed → isAttributeObserveOnly policy key = true →
      Reported policy declared seen ⟨key, .observeOnly, intended, observed⟩
  | valueMismatch {key : AttributeKey} {intended observed : AttributeValue} :
      Managed policy key → declared.desired.find? key = some intended →
      seen.observed.find? key = some observed → intended.isValid = true → observed.isValid = true →
      intended.comparableWith observed = true → intended ≠ observed → isAttributeObserveOnly policy key = false →
      Reported policy declared seen ⟨key, .valueMismatch, intended, observed⟩

/-- A managed key is on one side only, and the other side does not cover every attribute. -/
def Gap (managed : AttributeKey → Prop) (declared seen : SubjectEntry) : Prop :=
  ∃ key, managed key ∧
    ((∃ intended, declared.desired.find? key = some intended) ∧ seen.observed.find? key = none ∧
        seen.completeAttributes = false ∨
      declared.desired.find? key = none ∧ (∃ observed, seen.observed.find? key = some observed) ∧
        declared.completeAttributes = false)

/-- A managed key has an invalid value among its two. -/
def Malformed (managed : AttributeKey → Prop) (declared seen : SubjectEntry) : Prop :=
  ∃ key intended observed, managed key ∧
    declared.desired.find? key = some intended ∧ seen.observed.find? key = some observed ∧
    (intended.isValid = false ∨ observed.isValid = false)

/-- Some managed key reads differently on the two sides. -/
def Differs (managed : AttributeKey → Prop) (declared seen : SubjectEntry) : Prop :=
  ∃ key, managed key ∧ declared.desired.find? key ≠ seen.observed.find? key

section WalkSubject
variable {policy : ReconciliationPolicy} {declared seen : SubjectEntry}

/-- The positions of the walk of a subject. -/
theorem walkSubject_eq : walkSubject policy declared seen =
    ⟨(Join.walk declared.desired.entries seen.observed.entries).flatMap fun p =>
        (walkPart declared.completeAttributes seen.completeAttributes policy p).deltas,
      (Join.walk declared.desired.entries seen.observed.entries).any fun p =>
        (walkPart declared.completeAttributes seen.completeAttributes policy p).coverageGap,
      (Join.walk declared.desired.entries seen.observed.entries).any fun p =>
        (walkPart declared.completeAttributes seen.completeAttributes policy p).unsupported⟩ := by
  rw [walkSubject, walkAttributes, walk_gathers]
  simp

/-- The walk reports exactly these deltas. -/
theorem mem_walkSubject_deltas {delta : AttributeDelta} :
    delta ∈ (walkSubject policy declared seen).deltas ↔ Reported policy declared seen delta := by
  rw [walkSubject_eq, List.mem_flatMap]
  constructor
  · rintro ⟨position, hin, hdelta⟩
    rw [Join.mem_walk] at hin
    cases position with
    | left key intended =>
      obtain ⟨-, hleft, hright⟩ := Join.at?_left.mp hin
      simp only [Join.key] at hleft hright hin
      simp only [walkPart, walkStep] at hdelta
      split at hdelta
      next hunmanaged =>
        rw [List.nil_append, List.mem_singleton] at hdelta
        subst hdelta
        exact .unmanaged hunmanaged hin (by rw [hleft]; rfl) (by rw [hright]; rfl)
      next hmanaged =>
        rw [Bool.not_eq_true] at hmanaged
        split at hdelta
        next hcomplete =>
          rw [List.nil_append, List.mem_singleton] at hdelta
          subst hdelta
          exact .onlyInIntent hmanaged hleft hright hcomplete
        · simp at hdelta
    | right key observed =>
      obtain ⟨-, hleft, hright⟩ := Join.at?_right.mp hin
      simp only [Join.key] at hleft hright hin
      simp only [walkPart, walkStep] at hdelta
      split at hdelta
      next hunmanaged =>
        rw [List.nil_append, List.mem_singleton] at hdelta
        subst hdelta
        exact .unmanaged hunmanaged hin (by rw [hleft]; rfl) (by rw [hright]; rfl)
      next hmanaged =>
        rw [Bool.not_eq_true] at hmanaged
        split at hdelta
        next hcomplete =>
          rw [List.nil_append, List.mem_singleton] at hdelta
          subst hdelta
          exact .onlyInObservation hmanaged hleft hright hcomplete
        · simp at hdelta
    | both key intended observed =>
      obtain ⟨-, hleft, hright⟩ := Join.at?_both.mp hin
      simp only [Join.key] at hleft hright hin
      simp only [walkPart, walkStep] at hdelta
      split at hdelta
      next hunmanaged =>
        rw [List.nil_append, List.mem_singleton] at hdelta
        subst hdelta
        exact .unmanaged hunmanaged hin (by rw [hleft]; rfl) (by rw [hright]; rfl)
      next hmanaged =>
        rw [Bool.not_eq_true] at hmanaged
        split at hdelta
        · simp at hdelta
        next hvalid =>
          simp only [Bool.or_eq_true, Bool.not_eq_true', not_or, Bool.not_eq_false] at hvalid
          split at hdelta
          next hkinds =>
            rw [List.nil_append, List.mem_singleton] at hdelta
            subst hdelta
            exact .notComparable hmanaged hleft hright hvalid.1 hvalid.2 (by simpa using hkinds)
          next hkinds =>
            simp only [Bool.not_eq_true', Bool.not_eq_false] at hkinds
            split at hdelta
            next hdiffer =>
              rw [List.nil_append, List.mem_singleton] at hdelta
              cases hobserve : isAttributeObserveOnly policy key with
              | true =>
                rw [if_pos hobserve] at hdelta
                subst hdelta
                exact .observeOnly hmanaged hleft hright hvalid.1 hvalid.2 hkinds hdiffer hobserve
              | false =>
                rw [if_neg (by simp [hobserve])] at hdelta
                subst hdelta
                exact .valueMismatch hmanaged hleft hright hvalid.1 hvalid.2 hkinds hdiffer hobserve
            · simp at hdelta
  · intro h
    cases h with
    | @unmanaged key position intended observed hunmanaged hat hintended hobserved =>
      refine ⟨position, Join.mem_walk.mpr (by rw [Join.at?_key hat]; exact hat), ?_⟩
      cases position with
      | left key' a =>
        obtain ⟨rfl, hleft, hright⟩ := Join.at?_left.mp hat
        simp [walkPart, walkStep, hunmanaged, hintended, hobserved, hleft, hright]
      | right key' b =>
        obtain ⟨rfl, hleft, hright⟩ := Join.at?_right.mp hat
        simp [walkPart, walkStep, hunmanaged, hintended, hobserved, hleft, hright]
      | both key' a b =>
        obtain ⟨rfl, hleft, hright⟩ := Join.at?_both.mp hat
        simp [walkPart, walkStep, hunmanaged, hintended, hobserved, hleft, hright]
    | @onlyInIntent key intended hmanaged hleft hright hcomplete =>
      refine ⟨.left key intended, Join.mem_walk.mpr (Join.at?_left.mpr ⟨rfl, hleft, hright⟩), ?_⟩
      simp [walkPart, walkStep, hmanaged, hcomplete]
    | @onlyInObservation key observed hmanaged hleft hright hcomplete =>
      refine ⟨.right key observed, Join.mem_walk.mpr (Join.at?_right.mpr ⟨rfl, hleft, hright⟩), ?_⟩
      simp [walkPart, walkStep, hmanaged, hcomplete]
    | @notComparable key intended observed hmanaged hleft hright hvalid hvalid' hkinds =>
      refine ⟨.both key intended observed, Join.mem_walk.mpr (Join.at?_both.mpr ⟨rfl, hleft, hright⟩), ?_⟩
      simp [walkPart, walkStep, hmanaged, hvalid, hvalid', hkinds]
    | @observeOnly key intended observed hmanaged hleft hright hvalid hvalid' hkinds hdiffer hobserve =>
      refine ⟨.both key intended observed, Join.mem_walk.mpr (Join.at?_both.mpr ⟨rfl, hleft, hright⟩), ?_⟩
      simp [walkPart, walkStep, hmanaged, hvalid, hvalid', hkinds, hdiffer, hobserve]
    | @valueMismatch key intended observed hmanaged hleft hright hvalid hvalid' hkinds hdiffer hobserve =>
      refine ⟨.both key intended observed, Join.mem_walk.mpr (Join.at?_both.mpr ⟨rfl, hleft, hright⟩), ?_⟩
      simp [walkPart, walkStep, hmanaged, hvalid, hvalid', hkinds, hdiffer, hobserve]

/-- The walk flags a gap exactly where there is one. -/
theorem walkSubject_gap :
    (walkSubject policy declared seen).coverageGap = true ↔ Gap (Managed policy) declared seen := by
  rw [walkSubject_eq]
  simp only [List.any_eq_true]
  constructor
  · rintro ⟨position, hin, hgap⟩
    rw [Join.mem_walk] at hin
    cases position with
    | left key intended =>
      obtain ⟨-, hleft, hright⟩ := Join.at?_left.mp hin
      simp only [walkPart, walkStep] at hgap
      split at hgap
      · simp at hgap
      next hmanaged =>
        split at hgap
        · simp at hgap
        next hpartial =>
          exact ⟨key, by simpa using hmanaged, .inl ⟨⟨intended, hleft⟩, hright, by simpa using hpartial⟩⟩
    | right key observed =>
      obtain ⟨-, hleft, hright⟩ := Join.at?_right.mp hin
      simp only [walkPart, walkStep] at hgap
      split at hgap
      · simp at hgap
      next hmanaged =>
        split at hgap
        · simp at hgap
        next hpartial =>
          exact ⟨key, by simpa using hmanaged, .inr ⟨hleft, ⟨observed, hright⟩, by simpa using hpartial⟩⟩
    | both key intended observed =>
      -- a key on both sides is never a gap
      simp only [walkPart, walkStep] at hgap
      split at hgap
      · simp at hgap
      split at hgap
      · simp at hgap
      split at hgap
      · simp at hgap
      split at hgap <;> simp at hgap
  · rintro ⟨key, hmanaged, ⟨⟨intended, hleft⟩, hright, hpartial⟩ | ⟨hleft, ⟨observed, hright⟩, hpartial⟩⟩
    · refine ⟨.left key intended, Join.mem_walk.mpr (Join.at?_left.mpr ⟨rfl, hleft, hright⟩), ?_⟩
      simp [walkPart, walkStep, hmanaged, hpartial]
    · refine ⟨.right key observed, Join.mem_walk.mpr (Join.at?_right.mpr ⟨rfl, hleft, hright⟩), ?_⟩
      simp [walkPart, walkStep, hmanaged, hpartial]

/-- The walk is unsupported exactly when a managed key has an invalid value. -/
theorem walkSubject_unsupported :
    (walkSubject policy declared seen).unsupported = true ↔ Malformed (Managed policy) declared seen := by
  rw [walkSubject_eq]
  simp only [List.any_eq_true]
  constructor
  · rintro ⟨position, hin, hflag⟩
    rw [Join.mem_walk] at hin
    cases position with
    | left key intended =>
      simp only [walkPart, walkStep] at hflag
      split at hflag
      · simp at hflag
      split at hflag <;> simp at hflag
    | right key observed =>
      simp only [walkPart, walkStep] at hflag
      split at hflag
      · simp at hflag
      split at hflag <;> simp at hflag
    | both key intended observed =>
      obtain ⟨-, hleft, hright⟩ := Join.at?_both.mp hin
      simp only [walkPart, walkStep] at hflag
      split at hflag
      · simp at hflag
      next hmanaged =>
        split at hflag
        next hinvalid =>
          exact ⟨key, intended, observed, by simpa using hmanaged, hleft, hright, by simpa using hinvalid⟩
        · split at hflag
          · simp at hflag
          split at hflag <;> simp at hflag
  · rintro ⟨key, intended, observed, hmanaged, hleft, hright, hinvalid⟩
    refine ⟨.both key intended observed, Join.mem_walk.mpr (Join.at?_both.mpr ⟨rfl, hleft, hright⟩), ?_⟩
    have hflag : (!intended.isValid || !observed.isValid) = true := by simpa using hinvalid
    simp only [walkPart, walkStep, hmanaged, hflag]
    rfl

/-- Where nothing is malformed and nothing uncovered, a delta is reported exactly when the sides differ. -/
theorem walkSubject_differs (hformed : ¬ Malformed (Managed policy) declared seen)
    (hcovered : ¬ Gap (Managed policy) declared seen) :
    hasActionableDelta (walkSubject policy declared seen).deltas = true ↔ Differs (Managed policy) declared seen := by
  simp only [hasActionableDelta, List.any_eq_true, mem_walkSubject_deltas, bne_iff_ne, ne_eq]
  constructor
  · rintro ⟨delta, hreported, hkind⟩
    cases hreported with
    | unmanaged => exact absurd rfl hkind
    | @onlyInIntent key intended hmanaged hleft hright hcomplete => exact ⟨key, hmanaged, by simp [hleft, hright]⟩
    | @onlyInObservation key observed hmanaged hleft hright hcomplete =>
      exact ⟨key, hmanaged, by simp [hleft, hright]⟩
    | @notComparable key intended observed hmanaged hleft hright hvalid hvalid' hkinds =>
      refine ⟨key, hmanaged, ?_⟩
      rintro hsame
      rw [hleft, hright, Option.some.injEq] at hsame
      subst hsame
      simp [AttributeValue.comparableWith_self hvalid] at hkinds
    | @observeOnly key intended observed hmanaged hleft hright hvalid hvalid' hkinds hdiffer hobserve =>
      exact ⟨key, hmanaged, by simpa [hleft, hright] using hdiffer⟩
    | @valueMismatch key intended observed hmanaged hleft hright hvalid hvalid' hkinds hdiffer hobserve =>
      exact ⟨key, hmanaged, by simpa [hleft, hright] using hdiffer⟩
  · rintro ⟨key, hmanaged, hdiffer⟩
    cases hleft : declared.desired.find? key with
    | none =>
      cases hright : seen.observed.find? key with
      | none => exact absurd (hleft.trans hright.symm) hdiffer
      | some observed =>
        have hcomplete : declared.completeAttributes = true := by
          by_contra hpartial
          exact hcovered ⟨key, hmanaged, .inr ⟨hleft, ⟨observed, hright⟩, by simpa using hpartial⟩⟩
        exact ⟨_, .onlyInObservation hmanaged hleft hright hcomplete, by simp⟩
    | some intended =>
      cases hright : seen.observed.find? key with
      | none =>
        have hcomplete : seen.completeAttributes = true := by
          by_contra hpartial
          exact hcovered ⟨key, hmanaged, .inl ⟨⟨intended, hleft⟩, hright, by simpa using hpartial⟩⟩
        exact ⟨_, .onlyInIntent hmanaged hleft hright hcomplete, by simp⟩
      | some observed =>
        have hvalid : intended.isValid = true := by
          by_contra hinvalid
          exact hformed ⟨key, intended, observed, hmanaged, hleft, hright, .inl (by simpa using hinvalid)⟩
        have hvalid' : observed.isValid = true := by
          by_contra hinvalid
          exact hformed ⟨key, intended, observed, hmanaged, hleft, hright, .inr (by simpa using hinvalid)⟩
        have hvalues : intended ≠ observed := by
          rintro rfl
          exact hdiffer (hleft.trans hright.symm)
        cases hkinds : intended.comparableWith observed with
        | false => exact ⟨_, .notComparable hmanaged hleft hright hvalid hvalid' hkinds, by simp⟩
        | true =>
          cases hobserve : isAttributeObserveOnly policy key with
          | true => exact ⟨_, .observeOnly hmanaged hleft hright hvalid hvalid' hkinds hvalues hobserve, by simp⟩
          | false => exact ⟨_, .valueMismatch hmanaged hleft hright hvalid hvalid' hkinds hvalues hobserve, by simp⟩

end WalkSubject

/-! ## The specification of a scope -/

/-- Two candidates of the last generation carry different content. -/
def Contested {α : Type} (generation : α → UInt64) (digest : α → Digest) (candidates : List (Option α)) : Prop :=
  ∃ x y, some x ∈ candidates ∧ some y ∈ candidates ∧ (∀ z, some z ∈ candidates → generation z ≤ generation x) ∧
    generation y = generation x ∧ digest y ≠ digest x

/-- Some candidate names the subject. -/
def ClassificationInput.Names (input : ClassificationInput) (subject : SubjectId) : Prop :=
  (∃ d, some d ∈ input.intents ∧ (d.subjects.find? subject).isSome) ∨
    ∃ d, some d ∈ input.observations ∧ (d.subjects.find? subject).isSome

open Classical in
/-- The class of one subject under a selected intent and a Fresh selected observation. -/
noncomputable def subjectClass (managed : AttributeKey → Prop) (policy : ReconciliationPolicy)
    (intent : IntentDocument) (observation : ObservationDocument) (subject : SubjectId) : Option DriftClass :=
  match intent.subjects.find? subject, observation.subjects.find? subject with
  | none, none => none
  | some _, none =>
    some (if policy.freshness.requireCompleteCoverageForAbsence = false ∨
      observation.complete = true ∧ observation.authoritativeAbsence = true then .missing else .unknown)
  | none, some _ => some (if intent.complete = true then .unexpected else .unknown)
  | some declared, some seen =>
    some (if Malformed managed declared seen then .unsupported
      else if Gap managed declared seen then .unknown
      else if Differs managed declared seen then .mismatched
      else .alreadyConverged)

open Classical in
/-- The class the specification gives a subject, by precedence; `none` where it has no record. -/
noncomputable def specifiedClass (input : ClassificationInput) (policy : ReconciliationPolicy)
    (subject : SubjectId) : Option DriftClass :=
  if Contested IntentDocument.generation IntentDocument.digest input.intents ∨
      Contested ObservationDocument.generation ObservationDocument.digest input.observations then
    if input.Names subject then some .conflict else none
  else
    match (selectCurrentIntent input.intents).selected, (selectCurrentObservation input.observations).selected with
    | none, _ =>
      if input.Names subject then some (if input.hasCommittedIntent = true then .staleIntent else .unknown) else none
    | some intent, selected =>
      if input.hasCommittedIntent = true ∧ intent.generation < input.committedIntentGeneration then
        if input.Names subject then some .staleIntent else none
      else
        match selected with
        | none => if (intent.subjects.find? subject).isSome then some .unknown else none
        | some observation =>
          if evaluateFreshness observation policy.freshness input.liveEpoch input.nowUnixMs ≠ .fresh then
            if input.Names subject then some .staleObservation else none
          else subjectClass (fun key => key ∉ policy.unmanagedAttributes) policy intent observation subject

/-! ## The classifier meets its specification -/

/-- A selection is conflicted exactly when its candidates are contested. -/
theorem selectCurrent_conflicted {α : Type} {less : α → α → Bool} {generation : α → UInt64} {digest : α → Digest}
    {noneReason : ReasonCode} {candidates : List (Option α)}
    (hless : ∀ a b, less a b = true → generation a ≤ generation b)
    (hnot : ∀ a b, less a b = false → generation b ≤ generation a) :
    (selectCurrent less generation digest noneReason candidates).conflicted = true ↔
      Contested generation digest candidates := by
  rcases selectCurrent_cases digest noneReason candidates hless hnot with
    ⟨hnone, hselect⟩ | ⟨current, hin, htop, ⟨⟨x, hx, hgeneration, hdigest⟩, hselect⟩ | ⟨hagree, hselect⟩⟩
  · rw [hselect]
    exact ⟨fun h => absurd h (by simp), fun ⟨x, _, hx, _⟩ => absurd hx (hnone x)⟩
  · rw [hselect]
    exact ⟨fun _ => ⟨current, x, hin, hx, htop, hgeneration, hdigest⟩, fun _ => rfl⟩
  · rw [hselect]
    refine ⟨fun h => absurd h (by simp), ?_⟩
    rintro ⟨x, y, hx, hy, htop', hgeneration, hdigest⟩
    have hsame : generation x = generation current := le_antisymm (htop x hx) (htop' current hin)
    exact absurd ((hagree y hy (hgeneration.trans hsame)).trans (hagree x hx hsame).symm) hdigest

theorem intent_conflicted {candidates : List (Option IntentDocument)} :
    (selectCurrentIntent candidates).conflicted = true ↔
      Contested IntentDocument.generation IntentDocument.digest candidates :=
  selectCurrent_conflicted (fun _ _ h => le_of_lt (of_decide_eq_true h))
    (fun _ _ h => not_lt.mp (of_decide_eq_false h))

theorem observation_conflicted {candidates : List (Option ObservationDocument)} :
    (selectCurrentObservation candidates).conflicted = true ↔
      Contested ObservationDocument.generation ObservationDocument.digest candidates :=
  selectCurrent_conflicted (fun x y => (observationKeyLess_generation x y).1)
    (fun x y => (observationKeyLess_generation x y).2)

/-- The subjects collected from the candidates are those they name. -/
theorem mem_collectSubjects {input : ClassificationInput} {subject : SubjectId} :
    subject ∈ collectSubjects input.intents input.observations ↔ input.Names subject := by
  unfold collectSubjects ClassificationInput.Names
  rw [mem_sortUnique, List.mem_append, List.mem_flatMap, List.mem_flatMap]
  refine or_congr ?_ ?_
  · constructor
    · rintro ⟨candidate, hin, hsubject⟩
      cases candidate with
      | none => simp at hsubject
      | some d => exact ⟨d, hin, OrdMap.mem_keys_iff.mp hsubject⟩
    · rintro ⟨d, hin, hsubject⟩
      exact ⟨some d, hin, OrdMap.mem_keys_iff.mpr hsubject⟩
  · constructor
    · rintro ⟨candidate, hin, hsubject⟩
      cases candidate with
      | none => simp at hsubject
      | some d => exact ⟨d, hin, OrdMap.mem_keys_iff.mp hsubject⟩
    · rintro ⟨d, hin, hsubject⟩
      exact ⟨some d, hin, OrdMap.mem_keys_iff.mpr hsubject⟩

/-- Records that follow a specification: strictly ascending, one for each subject it gives a class. -/
structure Classified (records : List DriftRecord) (specified : SubjectId → Option DriftClass) : Prop where
  ascending : records.Pairwise fun x y => x.subject < y.subject
  classes : ∀ subject drift, (∃ record ∈ records, record.subject = subject ∧ record.drift = drift) ↔
    specified subject = some drift

/-- One record of a fixed class for each of some ascending subjects. -/
theorem classified_all {scope : ScopeId} {drift : DriftClass} {reason : ReasonCode} {evidence : EvidenceClass}
    {subjects : List SubjectId} {specified : SubjectId → Option DriftClass} (hsorted : subjects.Pairwise (· < ·))
    (hin : ∀ subject ∈ subjects, specified subject = some drift)
    (hout : ∀ subject, subject ∉ subjects → specified subject = none) :
    Classified (subjects.map fun subject => makeRecord scope subject drift reason evidence) specified where
  ascending := List.pairwise_map.mpr hsorted
  classes subject drift' := by
    constructor
    · rintro ⟨record, hrecord, rfl, rfl⟩
      obtain ⟨subject, hsubject, rfl⟩ := List.mem_map.mp hrecord
      exact hin subject hsubject
    · intro h
      by_cases hsubject : subject ∈ subjects
      · rw [hin subject hsubject, Option.some.injEq] at h
        exact ⟨_, List.mem_map_of_mem hsubject, rfl, h⟩
      · rw [hout subject hsubject] at h
        simp at h

section Merge
variable {policy : ReconciliationPolicy} {scope : ScopeId} {evidence : EvidenceClass}
  {intent : IntentDocument} {observation : ObservationDocument}

@[simp] theorem makeRecord_subject {subject : SubjectId} {drift : DriftClass} {reason : ReasonCode} :
    (makeRecord scope subject drift reason evidence).subject = subject := rfl

@[simp] theorem makeRecord_drift {subject : SubjectId} {drift : DriftClass} {reason : ReasonCode} :
    (makeRecord scope subject drift reason evidence).drift = drift := rfl

/-- A position's record is about the subject at the position. -/
theorem classifySubject_subject (position : Join SubjectId SubjectEntry SubjectEntry) :
    (classifySubject scope policy evidence intent observation position).subject = position.key := by
  cases position with
  | left subject declared =>
    simp only [classifySubject]
    split <;> rfl
  | right subject seen =>
    simp only [classifySubject]
    split <;> rfl
  | both subject declared seen =>
    simp only [classifySubject]
    split
    · rfl
    split
    · rfl
    split <;> rfl

theorem classifySubject_scope (position : Join SubjectId SubjectEntry SubjectEntry) :
    (classifySubject scope policy evidence intent observation position).scope = scope := by
  cases position with
  | left subject declared =>
    simp only [classifySubject]
    split <;> rfl
  | right subject seen =>
    simp only [classifySubject]
    split <;> rfl
  | both subject declared seen =>
    simp only [classifySubject]
    split
    · rfl
    split
    · rfl
    split <;> rfl

/-- The class of a subject that both documents name, by the walk's flags. -/
theorem classifySubject_both (subject : SubjectId) (declared seen : SubjectEntry) :
    (classifySubject scope policy evidence intent observation (.both subject declared seen)).drift =
      if (walkSubject policy declared seen).unsupported = true then .unsupported
      else if (walkSubject policy declared seen).coverageGap = true then .unknown
      else if hasActionableDelta (walkSubject policy declared seen).deltas = true then .mismatched
      else .alreadyConverged := by
  have hwalk : walkAttributes declared.desired seen.observed declared.completeAttributes seen.completeAttributes
      policy = walkSubject policy declared seen := rfl
  simp only [classifySubject, hwalk]
  cases hunsupported : (walkSubject policy declared seen).unsupported with
  | true => simp
  | false =>
    cases hgap : (walkSubject policy declared seen).coverageGap with
    | true => simp
    | false => cases hactionable : hasActionableDelta (walkSubject policy declared seen).deltas <;> simp

/-- A position's record has the class its subject is specified to have. -/
theorem classifySubject_class {position : Join SubjectId SubjectEntry SubjectEntry}
    (h : Join.at? position.key (intent.subjects.find? position.key) (observation.subjects.find? position.key) =
      some position) :
    subjectClass (Managed policy) policy intent observation position.key =
      some (classifySubject scope policy evidence intent observation position).drift := by
  cases position with
  | left subject declared =>
    obtain ⟨-, hleft, hright⟩ := Join.at?_left.mp h
    simp only [Join.key] at hleft hright ⊢
    simp only [subjectClass, hleft, hright, classifySubject, Bool.or_eq_true, Bool.not_eq_true', Bool.and_eq_true]
    split <;> rfl
  | right subject seen =>
    obtain ⟨-, hleft, hright⟩ := Join.at?_right.mp h
    simp only [Join.key] at hleft hright ⊢
    simp only [subjectClass, hleft, hright, classifySubject]
    split <;> rfl
  | both subject declared seen =>
    obtain ⟨-, hleft, hright⟩ := Join.at?_both.mp h
    simp only [Join.key] at hleft hright ⊢
    rw [classifySubject_both]
    simp only [subjectClass, hleft, hright, Option.some.injEq]
    by_cases hmalformed : Malformed (Managed policy) declared seen
    · rw [if_pos hmalformed, if_pos (walkSubject_unsupported.mpr hmalformed)]
    rw [if_neg hmalformed, if_neg fun h => hmalformed (walkSubject_unsupported.mp h)]
    by_cases hgap : Gap (Managed policy) declared seen
    · rw [if_pos hgap, if_pos (walkSubject_gap.mpr hgap)]
    rw [if_neg hgap, if_neg fun h => hgap (walkSubject_gap.mp h)]
    by_cases hdiffers : Differs (Managed policy) declared seen
    · rw [if_pos hdiffers, if_pos ((walkSubject_differs hmalformed hgap).mpr hdiffers)]
    · rw [if_neg hdiffers, if_neg fun h => hdiffers ((walkSubject_differs hmalformed hgap).mp h)]

/-- The merge loop follows the specification of the subjects. -/
theorem classified_merge :
    Classified ((Join.walk intent.subjects.entries observation.subjects.entries).map
      (classifySubject scope policy evidence intent observation))
      (subjectClass (Managed policy) policy intent observation) where
  ascending := by
    refine List.pairwise_map.mpr ((Join.walk_sorted intent.subjects.sorted observation.subjects.sorted).imp ?_)
    intro x y hlt
    rw [classifySubject_subject, classifySubject_subject]
    exact hlt
  classes subject drift := by
    constructor
    · rintro ⟨record, hrecord, rfl, rfl⟩
      obtain ⟨position, hposition, rfl⟩ := List.mem_map.mp hrecord
      rw [classifySubject_subject]
      exact classifySubject_class (Join.mem_walk.mp hposition)
    · intro h
      cases hat : Join.at? subject (intent.subjects.find? subject) (observation.subjects.find? subject) with
      | none =>
        exfalso
        unfold subjectClass at h
        cases hleft : intent.subjects.find? subject <;> cases hright : observation.subjects.find? subject <;>
          simp [hleft, hright, Join.at?] at hat h
      | some position =>
        have hkey := Join.at?_key hat
        subst hkey
        rw [@classifySubject_class policy scope evidence intent observation position hat, Option.some.injEq] at h
        exact ⟨_, List.mem_map_of_mem (Join.mem_walk.mpr hat), classifySubject_subject position, h⟩

end Merge

section Scope
variable {limits : RuntimeLimits} {input : ClassificationInput} {policy : ReconciliationPolicy}
  {intents : Selection IntentDocument} {observations : Selection ObservationDocument}

/-- One record of one class for every subject the candidates name. -/
def ClassificationInput.all (input : ClassificationInput) (drift : DriftClass) (reason : ReasonCode)
    (evidence : EvidenceClass) : List DriftRecord :=
  (collectSubjects input.intents input.observations).map fun subject =>
    makeRecord input.scope subject drift reason evidence

open Classical in
theorem classified_named {drift : DriftClass} {reason : ReasonCode} {evidence : EvidenceClass}
    {specified : SubjectId → Option DriftClass}
    (h : ∀ subject, specified subject = if input.Names subject then some drift else none) :
    Classified (input.all drift reason evidence) specified := by
  refine classified_all (sortUnique_sorted _) ?_ ?_
  · intro subject hsubject
    rw [h, if_pos (mem_collectSubjects.mp hsubject)]
  · intro subject hsubject
    rw [h, if_neg fun hnames => hsubject (mem_collectSubjects.mpr hnames)]

/-- The evidence of a scope in the terms the classifier asks for. -/
@[simp] theorem evidenceOf_hasIntent (intent : Option IntentDocument) (observation : Option ObservationDocument)
    (epoch : CoordinatorEpoch) (now : UnixMillis) :
    (evidenceOf intent observation policy epoch now).hasIntent = intent.isSome := by
  cases intent <;> cases observation <;> rfl

@[simp] theorem evidenceOf_hasObservation (intent : Option IntentDocument) (observation : Option ObservationDocument)
    (epoch : CoordinatorEpoch) (now : UnixMillis) :
    (evidenceOf intent observation policy epoch now).hasObservation = observation.isSome := by
  cases intent <;> cases observation <;> rfl

@[simp] theorem evidenceOf_freshness (intent : Option IntentDocument) (observation : ObservationDocument)
    (epoch : CoordinatorEpoch) (now : UnixMillis) :
    (evidenceOf intent (some observation) policy epoch now).freshness =
      evaluateFreshness observation policy.freshness epoch now := by
  cases intent <;> rfl

/-! ### The ladder of `ClassifyScope`, one rung each -/

theorem classifyRecords_conflicted {evidence : ScopeEvidenceRef}
    (h : (intents.conflicted || observations.conflicted) = true) :
    ∃ reason, classifyRecords input policy intents observations evidence =
      .ok (input.all .conflict reason evidence.evidence) :=
  ⟨_, if_pos h⟩

theorem classifyRecords_noIntent {evidence : ScopeEvidenceRef}
    (hclear : (intents.conflicted || observations.conflicted) = false) (hnone : intents.selected = none)
    (hhas : evidence.hasIntent = false) :
    ∃ reason, classifyRecords input policy intents observations evidence =
      .ok (input.all (if input.hasCommittedIntent = true then .staleIntent else .unknown) reason
        evidence.evidence) := by
  unfold classifyRecords
  cases hcommitted : input.hasCommittedIntent with
  | true => exact ⟨.noIntentForScope, by simp [hclear, hnone, hhas, ClassificationInput.all]⟩
  | false => exact ⟨.noIntentForScope, by simp [hclear, hhas, ClassificationInput.all]⟩

theorem classifyRecords_regressed {evidence : ScopeEvidenceRef} {intent : IntentDocument}
    (hclear : (intents.conflicted || observations.conflicted) = false) (hintent : intents.selected = some intent)
    (hregressed : input.hasCommittedIntent = true ∧ intent.generation < input.committedIntentGeneration) :
    ∃ reason, classifyRecords input policy intents observations evidence =
      .ok (input.all .staleIntent reason evidence.evidence) := by
  unfold classifyRecords
  exact ⟨.intentGenerationRegressed,
    by simp [hclear, hintent, hregressed.1, hregressed.2, ClassificationInput.all]⟩

section Current
variable {evidence : ScopeEvidenceRef} {intent : IntentDocument}
  (hclear : (intents.conflicted || observations.conflicted) = false) (hintent : intents.selected = some intent)
  (hcurrent : ¬ (input.hasCommittedIntent = true ∧ intent.generation < input.committedIntentGeneration))
  (hhas : evidence.hasIntent = true)
include hclear hintent hcurrent hhas

/-- Past the intent gates the classifier looks at the observation. -/
theorem classifyRecords_gated :
    classifyRecords input policy intents observations evidence =
      if !evidence.hasObservation then
        .ok (intent.subjects.entries.map fun e =>
          makeRecord input.scope e.1 .unknown .noObservationForScope evidence.evidence)
      else if evidence.freshness ≠ .fresh then
        .ok (input.all .staleObservation evidence.freshness.reasonOf evidence.evidence)
      else
        match observations.selected with
        | none =>
          .error ⟨.internalError, .driftIsIndeterminate,
            "observation selection is empty after the freshness gate"⟩
        | some observation =>
          .ok ((Join.walk intent.subjects.entries observation.subjects.entries).map
            (classifySubject input.scope policy evidence.evidence intent observation)) := by
  unfold classifyRecords
  have hregressed :
      (input.hasCommittedIntent && decide (intent.generation < input.committedIntentGeneration)) = false := by
    simpa using hcurrent
  simp only [hclear, hintent, hhas, hregressed]
  rfl

end Current

/-- What the classifier answers when both documents are selected, current and Fresh. -/
theorem classifyRecords_merge {evidence : ScopeEvidenceRef} {intent : IntentDocument}
    {observation : ObservationDocument}
    (hclear : (intents.conflicted || observations.conflicted) = false) (hintent : intents.selected = some intent)
    (hcurrent : ¬ (input.hasCommittedIntent = true ∧ intent.generation < input.committedIntentGeneration))
    (hhas : evidence.hasIntent = true) (hsome : evidence.hasObservation = true)
    (hfresh : evidence.freshness = .fresh) (hobservation : observations.selected = some observation) :
    classifyRecords input policy intents observations evidence =
      .ok ((Join.walk intent.subjects.entries observation.subjects.entries).map
        (classifySubject input.scope policy evidence.evidence intent observation)) := by
  rw [classifyRecords_gated hclear hintent hcurrent hhas]
  simp [hsome, hfresh, hobservation]

/-- The records of a scope follow its specification. -/
theorem classifyRecords_specified (hcanonical : PolicyOk limits policy) :
    ∃ records, classifyRecords input policy (selectCurrentIntent input.intents)
        (selectCurrentObservation input.observations)
        (evidenceOf (selectCurrentIntent input.intents).selected
          (selectCurrentObservation input.observations).selected policy
          input.liveEpoch input.nowUnixMs) = .ok records ∧
      Classified records (specifiedClass input policy) := by
  by_cases hcontested : Contested IntentDocument.generation IntentDocument.digest input.intents ∨
      Contested ObservationDocument.generation ObservationDocument.digest input.observations
  · -- a conflict comes before everything else
    have hflags : ((selectCurrentIntent input.intents).conflicted ||
        (selectCurrentObservation input.observations).conflicted) = true := by
      rw [Bool.or_eq_true]
      exact hcontested.imp intent_conflicted.mpr observation_conflicted.mpr
    obtain ⟨reason, hrecords⟩ := classifyRecords_conflicted hflags
    refine ⟨_, hrecords, classified_named fun subject => ?_⟩
    rw [specifiedClass, if_pos hcontested]
  have hclear : ((selectCurrentIntent input.intents).conflicted ||
      (selectCurrentObservation input.observations).conflicted) = false := by
    rw [← Bool.not_eq_true, Bool.or_eq_true]
    exact fun h => hcontested (h.imp intent_conflicted.mp observation_conflicted.mp)
  cases hintent : (selectCurrentIntent input.intents).selected with
  | none =>
    obtain ⟨reason, hrecords⟩ := classifyRecords_noIntent hclear hintent (evidenceOf_hasIntent none
      (selectCurrentObservation input.observations).selected input.liveEpoch input.nowUnixMs)
    refine ⟨_, hrecords, classified_named fun subject => ?_⟩
    rw [specifiedClass, if_neg hcontested, hintent]
  | some intent =>
    by_cases hregressed : input.hasCommittedIntent = true ∧ intent.generation < input.committedIntentGeneration
    · obtain ⟨reason, hrecords⟩ := classifyRecords_regressed hclear hintent hregressed
      refine ⟨_, hrecords, classified_named fun subject => ?_⟩
      rw [specifiedClass, if_neg hcontested, hintent]
      simp only [if_pos hregressed]
    rw [classifyRecords_gated hclear hintent hregressed (evidenceOf_hasIntent _ _ _ _)]
    cases hobservation : (selectCurrentObservation input.observations).selected with
    | none =>
      rw [if_pos (by simp)]
      refine ⟨_, rfl, ?_⟩
      have hspecified : ∀ subject, specifiedClass input policy subject =
          if (intent.subjects.find? subject).isSome = true then some .unknown else none := by
        intro subject
        rw [specifiedClass, if_neg hcontested, hintent, hobservation]
        simp only [if_neg hregressed]
      rw [← Function.comp_def (fun subject => makeRecord input.scope subject _ _ _) Prod.fst, ← List.map_map]
      refine classified_all (List.pairwise_map.mpr intent.subjects.sorted) ?_ ?_
      · intro subject hsubject
        rw [hspecified, if_pos (OrdMap.mem_keys_iff.mp hsubject)]
      · intro subject hsubject
        rw [hspecified, if_neg fun hfound => hsubject (OrdMap.mem_keys_iff.mpr hfound)]
    | some observation =>
      rw [if_neg (by simp), evidenceOf_freshness]
      by_cases hfresh : evaluateFreshness observation policy.freshness input.liveEpoch input.nowUnixMs ≠ .fresh
      · rw [if_pos hfresh]
        refine ⟨_, rfl, classified_named fun subject => ?_⟩
        rw [specifiedClass, if_neg hcontested, hintent, hobservation]
        simp only [if_neg hregressed, if_pos hfresh]
      · rw [if_neg hfresh]
        have hspecified : specifiedClass input policy = subjectClass (Managed policy) policy intent observation := by
          funext subject
          rw [specifiedClass, if_neg hcontested, hintent, hobservation, hcanonical.managed]
          simp only [if_neg hregressed, if_neg hfresh]
        rw [hspecified]
        exact ⟨_, rfl, classified_merge⟩

/-- **`classifyScope_specified`**: the report follows the specification, subject by subject. Without a scope
there is nothing to report on. -/
theorem classifyScope_specified (hpolicy : input.policy = some policy) (hcanonical : PolicyOk limits policy)
    (hintents : ∀ d, some d ∈ input.intents → d.scope = input.scope)
    (hobservations : ∀ d, some d ∈ input.observations → d.scope = input.scope) :
    (input.scope.empty = true → ∃ status, classifyScope input = .error status ∧ status.code = .rejected) ∧
      (input.scope.empty = false →
        ∃ report, classifyScope input = .ok report ∧ Classified report.records (specifiedClass input policy)) := by
  unfold classifyScope
  rw [hpolicy]
  constructor
  · intro hempty
    exact ⟨_, if_pos hempty, rfl⟩
  · intro hscope
    obtain ⟨records, hrecords, hclassified⟩ := @classifyRecords_specified limits input policy hcanonical
    simp only [hscope, hrecords]
    -- no candidate is of another scope
    rw [if_neg (by simp), if_neg, if_neg]
    · exact ⟨_, rfl, hclassified⟩
    · rw [List.any_eq_true]
      rintro ⟨candidate, hin, hforeign⟩
      cases candidate with
      | none => simp at hforeign
      | some d => simp [hobservations d hin] at hforeign
    · rw [List.any_eq_true]
      rintro ⟨candidate, hin, hforeign⟩
      cases candidate with
      | none => simp at hforeign
      | some d => simp [hintents d hin] at hforeign

end Scope

/-- One subject `a` of the scope `s`. -/
def exampleSubjects (state : SubjectState) : Subjects :=
  OrdMap.empty.insert ⟨[0x61], .inr rfl⟩ ⟨⟨[0x61], .inr rfl⟩, true, state⟩

/-- The attribute `k` explicitly absent. -/
def exampleAbsent : SubjectState := OrdMap.empty.insert ⟨[0x6b], .inr rfl⟩ .absent

/-- A complete intent and a complete observation of one subject, both current. -/
def exampleInput (desired observed : SubjectState) : ClassificationInput where
  scope := ⟨[0x73], .inr rfl⟩
  intents := [some ⟨⟨[0x69], .inr rfl⟩, ⟨[0x73], .inr rfl⟩, ⟨[0x64], .inr rfl⟩, 1, 1, .real,
    true, exampleSubjects desired, FixedBytes.zero⟩]
  observations := [some ⟨⟨[0x6f], .inr rfl⟩, ⟨[0x73], .inr rfl⟩, ⟨[0x72], .inr rfl⟩, 1, .real,
    true, true, 1, 1, exampleSubjects observed, FixedBytes.zero⟩]
  committedIntentGeneration := 1
  hasCommittedIntent := true
  policy := some defaultPolicy
  liveEpoch := 1
  nowUnixMs := 1

theorem defaultPolicy_ok : PolicyOk {} defaultPolicy := by
  constructor <;> simp [defaultPolicy]
  decide

theorem classifyScope_specified_example :
    ∃ report, classifyScope (exampleInput exampleAbsent OrdMap.empty) = .ok report ∧
      Classified report.records (specifiedClass (exampleInput exampleAbsent OrdMap.empty) defaultPolicy) :=
  (@classifyScope_specified {} (exampleInput exampleAbsent OrdMap.empty) defaultPolicy rfl defaultPolicy_ok
    (by simp [exampleInput]) (by simp [exampleInput])).2 (by decide)

/-! ## Phantom differences -/

/-- The classifier reaches its merge loop, with these two documents. -/
structure Merges (input : ClassificationInput) (policy : ReconciliationPolicy) (intent : IntentDocument)
    (observation : ObservationDocument) : Prop where
  settled : ¬ (Contested IntentDocument.generation IntentDocument.digest input.intents ∨
    Contested ObservationDocument.generation ObservationDocument.digest input.observations)
  intended : (selectCurrentIntent input.intents).selected = some intent
  current : ¬ (input.hasCommittedIntent = true ∧ intent.generation < input.committedIntentGeneration)
  observed : (selectCurrentObservation input.observations).selected = some observation
  fresh : evaluateFreshness observation policy.freshness input.liveEpoch input.nowUnixMs = .fresh

/-- An attribute is absent on both sides, explicitly on one and by being left out of the other. -/
def Phantom (policy : ReconciliationPolicy) (intent : IntentDocument) (observation : ObservationDocument)
    (subject : SubjectId) (key : AttributeKey) : Prop :=
  key ∉ policy.unmanagedAttributes ∧
    ((∃ declared, intent.subjects.find? subject = some declared ∧ observation.subjects.find? subject = none ∧
        declared.desired.find? key = some .absent ∧
        (policy.freshness.requireCompleteCoverageForAbsence = false ∨
          observation.complete = true ∧ observation.authoritativeAbsence = true)) ∨
      (∃ seen, intent.subjects.find? subject = none ∧ observation.subjects.find? subject = some seen ∧
        seen.observed.find? key = some .absent ∧ intent.complete = true) ∨
      ∃ declared seen, intent.subjects.find? subject = some declared ∧
        observation.subjects.find? subject = some seen ∧
        (declared.desired.find? key = some .absent ∧ seen.observed.find? key = none ∧
            seen.completeAttributes = true ∨
          declared.desired.find? key = none ∧ seen.observed.find? key = some .absent ∧
            declared.completeAttributes = true))

section Phantoms
variable {limits : RuntimeLimits} {input : ClassificationInput} {policy : ReconciliationPolicy} {scope : ScopeId}
  {evidence : EvidenceClass} {intent : IntentDocument} {observation : ObservationDocument}

/-- The deltas of a subject that both documents name are those of its walk, whatever its class. -/
theorem classifySubject_deltas (subject : SubjectId) (declared seen : SubjectEntry) :
    (classifySubject scope policy evidence intent observation (.both subject declared seen)).deltas =
      (walkSubject policy declared seen).deltas := by
  have hwalk : walkAttributes declared.desired seen.observed declared.completeAttributes seen.completeAttributes
      policy = walkSubject policy declared seen := rfl
  simp only [classifySubject, hwalk]
  split
  · rfl
  split
  · rfl
  split <;> rfl

/-- A managed delta reports two different values, unless the values are both absent. -/
theorem Reported.differs {declared seen : SubjectEntry} {delta : AttributeDelta}
    (h : Reported policy declared seen delta) (hkind : delta.kind ≠ .unmanaged) :
    delta.intended ≠ delta.observed ∨
      Managed policy delta.key ∧
        (declared.desired.find? delta.key = some .absent ∧ seen.observed.find? delta.key = none ∧
            seen.completeAttributes = true ∨
          declared.desired.find? delta.key = none ∧ seen.observed.find? delta.key = some .absent ∧
            declared.completeAttributes = true) := by
  cases h with
  | unmanaged => exact absurd rfl hkind
  | @onlyInIntent key intended hmanaged hleft hright hcomplete =>
    by_cases habsent : intended = .absent
    · exact .inr ⟨hmanaged, .inl ⟨habsent ▸ hleft, hright, hcomplete⟩⟩
    · exact .inl habsent
  | @onlyInObservation key observed hmanaged hleft hright hcomplete =>
    by_cases habsent : observed = .absent
    · exact .inr ⟨hmanaged, .inr ⟨hleft, habsent ▸ hright, hcomplete⟩⟩
    · exact .inl (Ne.symm habsent)
  | @notComparable key intended observed hmanaged hleft hright hvalid hvalid' hkinds =>
    left
    rintro (rfl : intended = observed)
    simp [AttributeValue.comparableWith_self hvalid] at hkinds
  | observeOnly hmanaged hleft hright hvalid hvalid' hkinds hdiffer hobserve => exact .inl hdiffer
  | valueMismatch hmanaged hleft hright hvalid hvalid' hkinds hdiffer hobserve => exact .inl hdiffer

/-- One position's record shows two equal values as a difference exactly where a phantom is. -/
theorem classifySubject_phantom (hcanonical : PolicyOk limits policy)
    {position : Join SubjectId SubjectEntry SubjectEntry}
    (h : Join.at? position.key (intent.subjects.find? position.key) (observation.subjects.find? position.key) =
      some position) :
    (∃ delta ∈ (classifySubject scope policy evidence intent observation position).deltas,
      delta.kind ≠ .unmanaged ∧ delta.intended = delta.observed) ↔
        ∃ key, Phantom policy intent observation position.key key := by
  have hmanaged : ∀ key, Managed policy key ↔ key ∉ policy.unmanagedAttributes := fun key => by
    rw [hcanonical.managed]
  cases position with
  | left subject declared =>
    obtain ⟨-, hleft, hright⟩ := Join.at?_left.mp h
    simp only [Join.key] at hleft hright ⊢
    simp only [classifySubject]
    constructor
    · rintro ⟨delta, hin, -, hsame⟩
      split at hin
      next hallowed =>
        obtain ⟨a, ha, rfl⟩ := List.mem_map.mp hin
        obtain ⟨hentry, hkept⟩ := List.mem_filter.mp ha
        refine ⟨a.1, (hmanaged _).mp (by simpa using hkept),
          .inl ⟨declared, hleft, hright, ?_, by simpa using hallowed⟩⟩
        have habsent : a.2 = .absent := hsame
        rw [OrdMap.find?_eq_some_iff, ← habsent]
        exact hentry
      · simp [makeRecord] at hin
    · rintro ⟨key, hkey, ⟨d, hd, -, habsent, hallowed⟩ | ⟨seen, hnone, -⟩ | ⟨d, seen, -, hsome, -⟩⟩
      · have hsame : declared = d := Option.some.inj (hleft.symm.trans hd)
        subst hsame
        rw [if_pos (by simpa using hallowed)]
        refine ⟨_, List.mem_map_of_mem (List.mem_filter.mpr ⟨OrdMap.find?_eq_some_iff.mp habsent, ?_⟩), by simp, rfl⟩
        simpa using (hmanaged key).mpr hkey
      · simp [hleft] at hnone
      · simp [hright] at hsome
  | right subject seen =>
    obtain ⟨-, hleft, hright⟩ := Join.at?_right.mp h
    simp only [Join.key] at hleft hright ⊢
    simp only [classifySubject]
    constructor
    · rintro ⟨delta, hin, -, hsame⟩
      split at hin
      next hallowed =>
        obtain ⟨a, ha, rfl⟩ := List.mem_map.mp hin
        obtain ⟨hentry, hkept⟩ := List.mem_filter.mp ha
        refine ⟨a.1, (hmanaged _).mp (by simpa using hkept), .inr (.inl ⟨seen, hleft, hright, ?_, hallowed⟩)⟩
        have habsent : a.2 = .absent := hsame.symm
        rw [OrdMap.find?_eq_some_iff, ← habsent]
        exact hentry
      · simp [makeRecord] at hin
    · rintro ⟨key, hkey, ⟨d, hd, -⟩ | ⟨d, -, hd, habsent, hallowed⟩ | ⟨d, seen', hd, -⟩⟩
      · simp [hleft] at hd
      · have hsame : seen = d := Option.some.inj (hright.symm.trans hd)
        subst hsame
        rw [if_pos hallowed]
        refine ⟨_, List.mem_map_of_mem (List.mem_filter.mpr ⟨OrdMap.find?_eq_some_iff.mp habsent, ?_⟩), by simp, rfl⟩
        simpa using (hmanaged key).mpr hkey
      · simp [hleft] at hd
  | both subject declared seen =>
    obtain ⟨-, hleft, hright⟩ := Join.at?_both.mp h
    simp only [Join.key] at hleft hright ⊢
    simp only [classifySubject_deltas, mem_walkSubject_deltas]
    constructor
    · rintro ⟨delta, hreported, hkind, hsame⟩
      obtain ⟨hkept, hcase⟩ := (hreported.differs hkind).resolve_left fun hne => hne hsame
      exact ⟨delta.key, (hmanaged _).mp hkept, .inr (.inr ⟨declared, seen, hleft, hright, hcase⟩)⟩
    · rintro ⟨key, hkey, ⟨d, -, hnone, -⟩ | ⟨d, hnone, -⟩ | ⟨d, o, hd, ho, hcase⟩⟩
      · simp [hright] at hnone
      · simp [hleft] at hnone
      · have hdeclared : declared = d := Option.some.inj (hleft.symm.trans hd)
        have hseen : seen = o := Option.some.inj (hright.symm.trans ho)
        subst hdeclared hseen
        rcases hcase with ⟨habsent, hmissing, hcomplete⟩ | ⟨hmissing, habsent, hcomplete⟩
        · exact ⟨_, .onlyInIntent ((hmanaged key).mpr hkey) habsent hmissing hcomplete, by simp, rfl⟩
        · exact ⟨_, .onlyInObservation ((hmanaged key).mpr hkey) hmissing habsent hcomplete, by simp, rfl⟩

/-- The classes given without comparing the two documents. -/
def DriftClass.unsettled : DriftClass → Bool
  | conflict | staleIntent | unknown | staleObservation => true
  | _ => false

/-- What a report lists: the merged subjects, or bare records of one class where the merge is not reached. -/
theorem classifyScope_records {report : ClassificationReport} (hpolicy : input.policy = some policy)
    (h : classifyScope input = .ok report) :
    (∃ intent observation, Merges input policy intent observation ∧
      report.records = (Join.walk intent.subjects.entries observation.subjects.entries).map
        (classifySubject input.scope policy report.evidence.evidence intent observation)) ∨
    (∀ intent observation, ¬ Merges input policy intent observation) ∧
      ∃ (subjects : List SubjectId) (drift : DriftClass) (reason : ReasonCode), subjects.Pairwise (· < ·) ∧
        drift.unsettled = true ∧
        report.records = subjects.map fun subject =>
          makeRecord input.scope subject drift reason report.evidence.evidence := by
  obtain ⟨policy', hpolicy', hevidence, hrecords⟩ := classifyScope_ok h
  have hsame : policy' = policy := Option.some.inj (hpolicy'.symm.trans hpolicy)
  subst hsame
  by_cases hmerges : ∃ intent observation, Merges input policy' intent observation
  · left
    obtain ⟨intent, observation, hmerge⟩ := hmerges
    refine ⟨intent, observation, hmerge, ?_⟩
    have hclear : ((selectCurrentIntent input.intents).conflicted ||
        (selectCurrentObservation input.observations).conflicted) = false := by
      rw [← Bool.not_eq_true, Bool.or_eq_true]
      exact fun hc => hmerge.settled (hc.imp intent_conflicted.mp observation_conflicted.mp)
    rw [classifyRecords_merge hclear hmerge.intended hmerge.current (by simp [hevidence, hmerge.intended])
      (by simp [hevidence, hmerge.observed]) (by rw [hevidence, hmerge.observed]; simpa using hmerge.fresh)
      hmerge.observed, Except.ok.injEq] at hrecords
    exact hrecords.symm
  · right
    refine ⟨fun intent observation hmerge => hmerges ⟨intent, observation, hmerge⟩, ?_⟩
    cases hflags : ((selectCurrentIntent input.intents).conflicted ||
        (selectCurrentObservation input.observations).conflicted) with
    | true =>
      obtain ⟨reason, hall⟩ := classifyRecords_conflicted hflags
      rw [hall, Except.ok.injEq] at hrecords
      exact ⟨_, _, _, sortUnique_sorted _, rfl, hrecords.symm⟩
    | false =>
      cases hintent : (selectCurrentIntent input.intents).selected with
      | none =>
        have hhas : report.evidence.hasIntent = false := by simp [hevidence, hintent]
        obtain ⟨reason, hall⟩ := classifyRecords_noIntent hflags hintent hhas
        rw [hall, Except.ok.injEq] at hrecords
        exact ⟨_, _, _, sortUnique_sorted _, by split <;> rfl, hrecords.symm⟩
      | some intent =>
        by_cases hregressed : input.hasCommittedIntent = true ∧ intent.generation < input.committedIntentGeneration
        · obtain ⟨reason, hall⟩ := classifyRecords_regressed hflags hintent hregressed
          rw [hall, Except.ok.injEq] at hrecords
          exact ⟨_, _, _, sortUnique_sorted _, rfl, hrecords.symm⟩
        have hhas : report.evidence.hasIntent = true := by simp [hevidence, hintent]
        rw [classifyRecords_gated hflags hintent hregressed hhas] at hrecords
        split at hrecords
        · rw [Except.ok.injEq, ← Function.comp_def (fun subject => makeRecord input.scope subject _ _ _) Prod.fst,
            ← List.map_map] at hrecords
          exact ⟨_, _, _, List.pairwise_map.mpr intent.subjects.sorted, rfl, hrecords.symm⟩
        split at hrecords
        · rw [Except.ok.injEq] at hrecords
          exact ⟨_, _, _, sortUnique_sorted _, rfl, hrecords.symm⟩
        next hfresh =>
          split at hrecords
          · simp at hrecords
          next observation hobservation =>
            -- the last rung is the merge itself
            refine absurd ⟨intent, observation, ?_, hintent, hregressed, hobservation, ?_⟩ hmerges
            · rw [← Bool.not_eq_true, Bool.or_eq_true] at hflags
              exact fun hc => hflags (hc.imp intent_conflicted.mpr observation_conflicted.mpr)
            · rw [hevidence, hobservation, evidenceOf_freshness] at hfresh
              simpa using hfresh

/-- No reported difference is between two equal values, and subjects that read alike are not mismatched. -/
structure PhantomFree (input : ClassificationInput) (policy : ReconciliationPolicy) (records : List DriftRecord) :
    Prop where
  deltas : ∀ record ∈ records, ∀ delta ∈ record.deltas, delta.kind ≠ .unmanaged → delta.intended ≠ delta.observed
  /-- A key that is left out of a complete side reads as `Absent`. -/
  alike : ∀ intent observation subject declared seen, Merges input policy intent observation →
    intent.subjects.find? subject = some declared → observation.subjects.find? subject = some seen →
    declared.completeAttributes = true → seen.completeAttributes = true →
    ¬ Malformed (fun key => key ∉ policy.unmanagedAttributes) declared seen →
    (∀ key, key ∉ policy.unmanagedAttributes →
      (declared.desired.find? key).getD .absent = (seen.observed.find? key).getD .absent) →
    ∃ record ∈ records, record.subject = subject ∧ record.drift = .alreadyConverged

/-- Two documents merge in one way. -/
theorem Merges.unique {intent' : IntentDocument} {observation' : ObservationDocument}
    (h : Merges input policy intent observation) (h' : Merges input policy intent' observation') :
    intent' = intent ∧ observation' = observation :=
  ⟨Option.some.inj (h'.intended.symm.trans h.intended), Option.some.inj (h'.observed.symm.trans h.observed)⟩

/-- Sides that read alike but differ are a phantom: one says `Absent` where the other says nothing. -/
theorem phantom_of_alike {subject : SubjectId} {declared seen : SubjectEntry}
    (hdeclared : intent.subjects.find? subject = some declared)
    (hseen : observation.subjects.find? subject = some seen) (hcomplete : declared.completeAttributes = true)
    (hcomplete' : seen.completeAttributes = true)
    (halike : ∀ key, key ∉ policy.unmanagedAttributes →
      (declared.desired.find? key).getD .absent = (seen.observed.find? key).getD .absent)
    (hdiffers : Differs (fun key => key ∉ policy.unmanagedAttributes) declared seen) :
    ∃ key, Phantom policy intent observation subject key := by
  obtain ⟨key, hkey, hdiffer⟩ := hdiffers
  have hread := halike key hkey
  refine ⟨key, hkey, .inr (.inr ⟨declared, seen, hdeclared, hseen, ?_⟩)⟩
  cases hleft : declared.desired.find? key with
  | none =>
    cases hright : seen.observed.find? key with
    | none => exact absurd (hleft.trans hright.symm) hdiffer
    | some observed =>
      simp only [hleft, hright, Option.getD_none, Option.getD_some] at hread
      exact .inr ⟨rfl, by rw [← hread], hcomplete⟩
  | some intended =>
    cases hright : seen.observed.find? key with
    | none =>
      simp only [hleft, hright, Option.getD_none, Option.getD_some] at hread
      exact .inl ⟨by rw [hread], rfl, hcomplete'⟩
    | some observed =>
      simp only [hleft, hright, Option.getD_some] at hread
      rw [hleft, hright, hread] at hdiffer
      exact absurd rfl hdiffer

/-- **`phantom_free_iff`**: differences are real exactly when no merged attribute is `Absent` on one side and
left out of the other. -/
theorem phantom_free_iff {report : ClassificationReport} (hpolicy : input.policy = some policy)
    (hcanonical : PolicyOk limits policy) (h : classifyScope input = .ok report) :
    PhantomFree input policy report.records ↔ ¬ ∃ intent observation subject key,
      Merges input policy intent observation ∧ Phantom policy intent observation subject key := by
  rcases classifyScope_records hpolicy h with ⟨intent, observation, hmerge, hrecords⟩ | ⟨hnone, subjects, drift, reason, -, -, hrecords⟩
  · constructor
    · rintro hfree ⟨intent', observation', subject, key, hmerge', hphantom⟩
      obtain ⟨rfl, rfl⟩ := hmerge.unique hmerge'
      obtain ⟨position, hat⟩ : ∃ position, Join.at? subject (intent'.subjects.find? subject)
          (observation'.subjects.find? subject) = some position := by
        rcases hphantom.2 with ⟨d, hd, hnone, -⟩ | ⟨o, hnone, ho, -⟩ | ⟨d, o, hd, ho, -⟩
        · exact ⟨_, by rw [hd, hnone]; rfl⟩
        · exact ⟨_, by rw [ho, hnone]; rfl⟩
        · exact ⟨_, by rw [hd, ho]; rfl⟩
      have hkey := Join.at?_key hat
      subst hkey
      obtain ⟨delta, hdelta, hkind, hsame⟩ :=
        (@classifySubject_phantom limits policy input.scope report.evidence.evidence intent' observation' hcanonical
          position hat).mpr ⟨key, hphantom⟩
      refine hfree.deltas _ ?_ delta hdelta hkind hsame
      rw [hrecords]
      exact List.mem_map_of_mem (Join.mem_walk.mpr hat)
    · intro hnot
      refine ⟨?_, ?_⟩
      · intro record hrecord delta hdelta hkind hsame
        rw [hrecords] at hrecord
        obtain ⟨position, hposition, rfl⟩ := List.mem_map.mp hrecord
        obtain ⟨key, hphantom⟩ :=
          (classifySubject_phantom hcanonical (Join.mem_walk.mp hposition)).mp ⟨delta, hdelta, hkind, hsame⟩
        exact hnot ⟨intent, observation, position.key, key, hmerge, hphantom⟩
      · intro intent' observation' subject declared seen hmerge' hdeclared hseen hcomplete hcomplete' hformed halike
        obtain ⟨rfl, rfl⟩ := hmerge.unique hmerge'
        have hclasses := (@classified_merge policy input.scope report.evidence.evidence intent'
          observation').classes subject .alreadyConverged
        rw [← hrecords, hcanonical.managed] at hclasses
        refine hclasses.mpr ?_
        have hcovered : ¬ Gap (fun key => key ∉ policy.unmanagedAttributes) declared seen := by
          rintro ⟨key, -, ⟨-, -, hpartial⟩ | ⟨-, -, hpartial⟩⟩
          · simp [hcomplete'] at hpartial
          · simp [hcomplete] at hpartial
        have hequal : ¬ Differs (fun key => key ∉ policy.unmanagedAttributes) declared seen := by
          intro hdiffers
          obtain ⟨key, hphantom⟩ := phantom_of_alike hdeclared hseen hcomplete hcomplete' halike hdiffers
          exact hnot ⟨intent', observation', subject, key, hmerge', hphantom⟩
        simp only [subjectClass, hdeclared, hseen]
        rw [if_neg hformed, if_neg hcovered, if_neg hequal]
  · constructor
    · rintro - ⟨intent, observation, subject, key, hmerge, -⟩
      exact hnone intent observation hmerge
    · intro _
      refine ⟨?_, ?_⟩
      · intro record hrecord delta hdelta
        rw [hrecords] at hrecord
        obtain ⟨subject, -, rfl⟩ := List.mem_map.mp hrecord
        simp [makeRecord] at hdelta
      · intro intent observation _ _ _ hmerge
        exact absurd hmerge (hnone intent observation)

end Phantoms

/-- What the classifier says of the example when the observation leaves the absent attribute out. -/
def exampleRecords : List DriftRecord :=
  [⟨⟨[0x73], .inr rfl⟩, ⟨[0x61], .inr rfl⟩, .mismatched, .classifiedAttributeMissing,
    [⟨⟨[0x6b], .inr rfl⟩, .onlyInIntent, .absent, .absent⟩], .real⟩]

theorem phantom_free_iff_example : ∃ report, classifyScope (exampleInput exampleAbsent exampleAbsent) = .ok report ∧
    (PhantomFree (exampleInput exampleAbsent exampleAbsent) defaultPolicy report.records ↔
      ¬ ∃ intent observation subject key,
        Merges (exampleInput exampleAbsent exampleAbsent) defaultPolicy intent observation ∧
          Phantom defaultPolicy intent observation subject key) :=
  ⟨_, rfl, phantom_free_iff rfl defaultPolicy_ok rfl⟩

/-- An attribute that is desired absent and left out of a complete observation is shown as a difference. -/
theorem absent_shown_as_difference :
    ∃ report, classifyScope (exampleInput exampleAbsent OrdMap.empty) = .ok report ∧
      report.records = exampleRecords ∧
      ∃ record ∈ report.records, record.drift = .mismatched ∧
        ∃ delta ∈ record.deltas, delta.kind ≠ .unmanaged ∧ delta.intended = delta.observed :=
  ⟨_, rfl, by decide, by decide⟩

end FabricReconciliation
