import FabricReconciliation.Lib.OrdMap

/-!
# The two-pointer walk over two ordered maps

`Join.walk` visits the entries of two sorted lists in one pass. What it visits is said here without the
walk: a position is there exactly when the two lookups at its key say so.

* **`Join.mem_walk`** — the positions of a walk are those the two lookups give;
* **`Join.walk_sorted`** — they are visited in strictly ascending order of their keys.
-/

namespace Lib

namespace Join

section Positions
variable {κ α β : Type}

/-- The key a position is at. -/
def key : Join κ α β → κ
  | left k _ | right k _ | both k _ _ => k

/-- The position the two lookups at one key give. -/
def at? (k : κ) : Option α → Option β → Option (Join κ α β)
  | none, none => none
  | some a, none => some (.left k a)
  | none, some b => some (.right k b)
  | some a, some b => some (.both k a b)

@[simp] theorem at?_none (k : κ) : at? k (none : Option α) (none : Option β) = none := rfl

theorem at?_key {k : κ} {a : Option α} {b : Option β} {j : Join κ α β} (h : at? k a b = some j) : j.key = k := by
  cases a with
  | none =>
    cases b with
    | none => simp at h
    | some b => cases h; rfl
  | some a =>
    cases b with
    | none => cases h; rfl
    | some b => cases h; rfl

/-- Which lookups a position stands for. -/
theorem at?_left {k k' : κ} {a : Option α} {b : Option β} {x : α} :
    at? k a b = some (.left k' x) ↔ k = k' ∧ a = some x ∧ b = none := by
  cases a <;> cases b <;> simp [at?]

theorem at?_right {k k' : κ} {a : Option α} {b : Option β} {y : β} :
    at? k a b = some (.right k' y) ↔ k = k' ∧ a = none ∧ b = some y := by
  cases a <;> cases b <;> simp [at?]

theorem at?_both {k k' : κ} {a : Option α} {b : Option β} {x : α} {y : β} :
    at? k a b = some (.both k' x y) ↔ k = k' ∧ a = some x ∧ b = some y := by
  cases a <;> cases b <;> simp [at?]

/-- The induction of the walk: the side with the smaller key advances, or both do. -/
theorem walk_induction {P : List (κ × α) → List (κ × β) → Prop}
    (hright : ∀ rs, P [] rs) (hleft : ∀ k a ls, P ls [] → P ((k, a) :: ls) [])
    (hcons : ∀ k a ls k' b rs, P ls ((k', b) :: rs) → P ((k, a) :: ls) rs → P ls rs →
      P ((k, a) :: ls) ((k', b) :: rs)) :
    ∀ ls rs, P ls rs := by
  intro ls
  induction ls with
  | nil => exact hright
  | cons e ls ih =>
    intro rs
    induction rs with
    | nil => exact hleft e.1 e.2 ls (ih [])
    | cons e' rs ih' => exact hcons e.1 e.2 ls e'.1 e'.2 rs (ih (e' :: rs)) ih' (ih rs)

end Positions

variable {κ α β : Type} [LinearOrder κ]

/-! ## One turn of the walk -/

@[simp] theorem walk_nil (rs : List (κ × β)) :
    walk ([] : List (κ × α)) rs = rs.map fun e => .right e.1 e.2 := rfl

@[simp] theorem walk_cons_nil (k : κ) (a : α) (ls : List (κ × α)) :
    walk ((k, a) :: ls) ([] : List (κ × β)) = .left k a :: walk ls [] := rfl

theorem walk_cons_cons (k k' : κ) (a : α) (b : β) (ls : List (κ × α)) (rs : List (κ × β)) :
    walk ((k, a) :: ls) ((k', b) :: rs) =
      if k < k' then .left k a :: walk ls ((k', b) :: rs)
      else if k' < k then .right k' b :: walk ((k, a) :: ls) rs
      else .both k a b :: walk ls rs := rfl

/-! ## What the walk visits -/

/-- Every key of the walk is a key of one of the lists. -/
theorem key_mem_walk {j : Join κ α β} : ∀ {ls : List (κ × α)} {rs : List (κ × β)}, j ∈ walk ls rs →
    (∃ e ∈ ls, e.1 = j.key) ∨ ∃ e ∈ rs, e.1 = j.key := by
  intro ls rs
  induction ls, rs using walk_induction with
  | hright rs =>
    intro h
    simp only [walk_nil, List.mem_map] at h
    obtain ⟨e, he, rfl⟩ := h
    exact .inr ⟨e, he, rfl⟩
  | hleft k a ls ih =>
    intro h
    rw [walk_cons_nil, List.mem_cons] at h
    rcases h with rfl | h
    · exact .inl ⟨(k, a), by simp, rfl⟩
    · exact (ih h).imp (fun ⟨e, he, hk⟩ => ⟨e, List.mem_cons_of_mem _ he, hk⟩) id
  | hcons k a ls k' b rs ihl ihr ihb =>
    intro h
    rw [walk_cons_cons] at h
    have hl : ∀ {P : Prop}, (∃ e ∈ ls, e.1 = j.key) ∨ P → (∃ e ∈ (k, a) :: ls, e.1 = j.key) ∨ P :=
      fun h => h.imp_left fun ⟨e, he, hk⟩ => ⟨e, List.mem_cons_of_mem _ he, hk⟩
    have hr : ∀ {P : Prop}, P ∨ (∃ e ∈ rs, e.1 = j.key) → P ∨ ∃ e ∈ (k', b) :: rs, e.1 = j.key :=
      fun h => h.imp_right fun ⟨e, he, hk⟩ => ⟨e, List.mem_cons_of_mem _ he, hk⟩
    split at h
    · rcases List.mem_cons.mp h with rfl | h
      · exact .inl ⟨(k, a), by simp, rfl⟩
      · exact hl (ihl h)
    · split at h
      · rcases List.mem_cons.mp h with rfl | h
        · exact .inr ⟨(k', b), by simp, rfl⟩
        · exact hr (ihr h)
      · rcases List.mem_cons.mp h with rfl | h
        · exact .inl ⟨(k, a), by simp, rfl⟩
        · exact hl (hr (ihb h))

/-- Strictly ascending keys. -/
abbrev Ascending {γ : Type} (l : List (κ × γ)) : Prop := l.Pairwise fun x y => x.1 < y.1

/-- **`walk_sorted`**: the walk visits its keys in strictly ascending order. -/
theorem walk_sorted {ls : List (κ × α)} {rs : List (κ × β)} (hl : Ascending ls) (hr : Ascending rs) :
    (walk ls rs).Pairwise fun x y => x.key < y.key := by
  induction ls, rs using walk_induction with
  | hright rs => exact List.pairwise_map.mpr hr
  | hleft k a ls ih =>
    have hls := List.pairwise_cons.mp hl
    refine List.pairwise_cons.mpr ⟨?_, ih hls.2 hr⟩
    intro j hj
    rcases key_mem_walk hj with ⟨e, he, hk⟩ | ⟨e, he, -⟩
    · exact hk ▸ hls.1 e he
    · simp at he
  | hcons k a ls k' b rs ihl ihr ihb =>
    have hls := List.pairwise_cons.mp hl
    have hrs := List.pairwise_cons.mp hr
    rw [walk_cons_cons]
    split
    next hlt =>
      refine List.pairwise_cons.mpr ⟨?_, ihl hls.2 hr⟩
      intro j hj
      rcases key_mem_walk hj with ⟨e, he, hk⟩ | ⟨e, he, hk⟩
      · exact hk ▸ hls.1 e he
      · rcases List.mem_cons.mp he with rfl | he
        · exact hk ▸ hlt
        · exact hk ▸ lt_trans hlt (hrs.1 e he)
    next hnlt =>
      split
      next hgt =>
        refine List.pairwise_cons.mpr ⟨?_, ihr hl hrs.2⟩
        intro j hj
        rcases key_mem_walk hj with ⟨e, he, hk⟩ | ⟨e, he, hk⟩
        · rcases List.mem_cons.mp he with rfl | he
          · exact hk ▸ hgt
          · exact hk ▸ lt_trans hgt (hls.1 e he)
        · exact hk ▸ hrs.1 e he
      next hngt =>
        have heq : k = k' := le_antisymm (not_lt.mp hngt) (not_lt.mp hnlt)
        refine List.pairwise_cons.mpr ⟨?_, ihb hls.2 hrs.2⟩
        intro j hj
        rcases key_mem_walk hj with ⟨e, he, hk⟩ | ⟨e, he, hk⟩
        · exact hk ▸ hls.1 e he
        · exact hk ▸ heq ▸ hrs.1 e he

theorem lookup_cons_self {γ : Type} {k : κ} {a : γ} {l : List (κ × γ)} :
    OrdMap.lookup k ((k, a) :: l) = some a := by simp [OrdMap.lookup]

theorem lookup_cons_ne {γ : Type} {j k : κ} {a : γ} {l : List (κ × γ)} (h : j ≠ k) :
    OrdMap.lookup j ((k, a) :: l) = OrdMap.lookup j l := by simp [OrdMap.lookup, h]

/-- Below the least key nothing is found. -/
theorem lookup_below {γ : Type} {k : κ} {l : List (κ × γ)} (h : ∀ e ∈ l, k < e.1) : OrdMap.lookup k l = none :=
  OrdMap.lookup_eq_none_iff.mpr fun e he => ne_of_gt (h e he)

/-- The position the two lists give at a key. -/
def found (ls : List (κ × α)) (rs : List (κ × β)) (k : κ) : Option (Join κ α β) :=
  at? k (OrdMap.lookup k ls) (OrdMap.lookup k rs)

/-- One more visited position, when it is found at its key and the others are found in the rest. -/
theorem mem_cons_visited {head j : Join κ α β} {rest : List (Join κ α β)} {ls ls' : List (κ × α)}
    {rs rs' : List (κ × β)} (hsorted : (head :: rest).Pairwise fun x y => x.key < y.key)
    (hhead : found ls rs head.key = some head) (hother : ∀ k, k ≠ head.key → found ls rs k = found ls' rs' k)
    (hrest : j ∈ rest ↔ found ls' rs' j.key = some j) : j ∈ head :: rest ↔ found ls rs j.key = some j := by
  by_cases hk : j.key = head.key
  · have hnot : j ∉ rest := fun hin => ne_of_gt ((List.pairwise_cons.mp hsorted).1 j hin) hk
    rw [hk, hhead, List.mem_cons, Option.some.injEq]
    exact ⟨fun h => (h.resolve_right hnot).symm, fun h => .inl h.symm⟩
  · have hne : j ≠ head := fun h => hk (h ▸ rfl)
    rw [hother _ hk, ← hrest, List.mem_cons]
    exact ⟨fun h => h.resolve_left hne, .inr⟩

/-- The walk visits a position exactly when the two lookups at its key give it. -/
theorem mem_walk_lookup {ls : List (κ × α)} {rs : List (κ × β)} (hl : Ascending ls) (hr : Ascending rs)
    (j : Join κ α β) :
    j ∈ walk ls rs ↔ found ls rs j.key = some j := by
  have hsorted := walk_sorted hl hr
  induction ls, rs using walk_induction with
  | hright rs =>
    rw [walk_nil, List.mem_map]
    constructor
    · rintro ⟨e, he, rfl⟩
      exact at?_right.mpr ⟨rfl, rfl, OrdMap.lookup_of_mem hr he⟩
    · intro h
      cases hfound : OrdMap.lookup j.key rs with
      | none => simp [found, OrdMap.lookup, hfound] at h
      | some b =>
        simp only [found, OrdMap.lookup, hfound, at?, Option.some.injEq] at h
        exact ⟨(j.key, b), OrdMap.mem_of_lookup hfound, h⟩
  | hleft k a ls ih =>
    have hls := List.pairwise_cons.mp hl
    rw [walk_cons_nil] at hsorted ⊢
    refine mem_cons_visited hsorted (at?_left.mpr ⟨rfl, lookup_cons_self, rfl⟩) (fun q (hq : q ≠ k) => ?_)
      (ih hls.2 hr (List.pairwise_cons.mp hsorted).2)
    rw [found, lookup_cons_ne hq, found]
  | hcons k a ls k' b rs ihl ihr ihb =>
    have hls := List.pairwise_cons.mp hl
    have hrs := List.pairwise_cons.mp hr
    rw [walk_cons_cons] at hsorted ⊢
    split at hsorted
    next hlt =>
      rw [if_pos hlt]
      have hnone : OrdMap.lookup k ((k', b) :: rs) = none := by
        refine lookup_below ?_
        intro e he
        rcases List.mem_cons.mp he with rfl | he
        · exact hlt
        · exact lt_trans hlt (hrs.1 e he)
      refine mem_cons_visited hsorted (at?_left.mpr ⟨rfl, lookup_cons_self, hnone⟩) (fun q (hq : q ≠ k) => ?_)
        (ihl hls.2 hr (List.pairwise_cons.mp hsorted).2)
      rw [found, lookup_cons_ne hq, found]
    next hnlt =>
      rw [if_neg hnlt]
      split at hsorted
      next hgt =>
        rw [if_pos hgt]
        have hnone : OrdMap.lookup k' ((k, a) :: ls) = none := by
          refine lookup_below ?_
          intro e he
          rcases List.mem_cons.mp he with rfl | he
          · exact hgt
          · exact lt_trans hgt (hls.1 e he)
        refine mem_cons_visited hsorted (at?_right.mpr ⟨rfl, hnone, lookup_cons_self⟩) (fun q (hq : q ≠ k') => ?_)
          (ihr hl hrs.2 (List.pairwise_cons.mp hsorted).2)
        rw [found, lookup_cons_ne (l := rs) hq, found]
      next hngt =>
        rw [if_neg hngt]
        have heq : k = k' := le_antisymm (not_lt.mp hngt) (not_lt.mp hnlt)
        subst heq
        refine mem_cons_visited hsorted (at?_both.mpr ⟨rfl, lookup_cons_self, lookup_cons_self⟩)
          (fun q (hq : q ≠ k) => ?_)
          (ihb hls.2 hrs.2 (List.pairwise_cons.mp hsorted).2)
        rw [found, lookup_cons_ne hq, lookup_cons_ne hq, found]

/-- **`mem_walk`**: the walk over two maps visits the positions the two lookups give. -/
theorem mem_walk {l : OrdMap κ α} {r : OrdMap κ β} {j : Join κ α β} :
    j ∈ walk l.entries r.entries ↔ at? j.key (l.find? j.key) (r.find? j.key) = some j :=
  mem_walk_lookup l.sorted r.sorted j

end Join

end Lib
