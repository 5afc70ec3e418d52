import Mathlib.Algebra.Order.Ring.Nat
import Mathlib.Data.List.Basic
import Mathlib.Data.List.Lex
import Mathlib.Order.Lattice

/-!
# Ordered maps as strictly sorted association lists

`OrdMap κ α` is a finite map whose entries are kept in strictly ascending key
order, the order in which an ordered-map iterator visits them. Order and absence of
duplicate keys are a field of the structure, so two maps with the same entries are
equal and a traversal is a plain list traversal.

* **`find?_insert`, `find?_erase`** — the lookup equations;
* **`ext_find?`** — a map is determined by its lookups;
* **`find?_values_eq_some_iff`** — the first match of a traversal;
* **`foldl_insert_entries`** — re-inserting the entries rebuilds the map.
-/

namespace Lib

/-! ## Machine words as keys -/

instance uint8LinearOrder : LinearOrder UInt8 where
  le_refl := UInt8.le_refl
  le_trans _ _ _ := UInt8.le_trans
  le_antisymm _ _ := UInt8.le_antisymm
  le_total := UInt8.le_total
  lt_iff_le_not_ge a b := by
    rw [UInt8.lt_iff_toNat_lt, UInt8.le_iff_toNat_le, UInt8.le_iff_toNat_le]
    omega
  toDecidableLE := inferInstance
  toDecidableEq := inferInstance
  toDecidableLT := inferInstance

instance uint64LinearOrder : LinearOrder UInt64 where
  le_refl := UInt64.le_refl
  le_trans _ _ _ := UInt64.le_trans
  le_antisymm _ _ := UInt64.le_antisymm
  le_total := UInt64.le_total
  lt_iff_le_not_ge a b := by
    rw [UInt64.lt_iff_toNat_lt, UInt64.le_iff_toNat_le, UInt64.le_iff_toNat_le]
    omega
  toDecidableLE := inferInstance
  toDecidableEq := inferInstance
  toDecidableLT := inferInstance

/-! ## The map -/

/-- A finite map with its entries in strictly ascending key order. -/
structure OrdMap (κ : Type) (α : Type) [LinearOrder κ] where
  entries : List (κ × α)
  sorted : entries.Pairwise (fun a b => a.1 < b.1)

namespace OrdMap

variable {κ α β : Type} [LinearOrder κ]

@[ext] theorem ext {m n : OrdMap κ α} (h : m.entries = n.entries) : m = n := by
  cases m; cases n; simp_all

instance [DecidableEq α] : DecidableEq (OrdMap κ α) := fun m n =>
  if h : m.entries = n.entries then isTrue (ext h)
  else isFalse (fun he => h (he ▸ rfl))

def empty : OrdMap κ α := ⟨[], List.Pairwise.nil⟩

instance : Inhabited (OrdMap κ α) := ⟨empty⟩

def size (m : OrdMap κ α) : Nat := m.entries.length

def values (m : OrdMap κ α) : List α := m.entries.map Prod.snd

/-! ## Lookup -/

def lookup (k : κ) : List (κ × α) → Option α
  | [] => none
  | (k', a) :: rest => if k = k' then some a else lookup k rest

def find? (m : OrdMap κ α) (k : κ) : Option α := lookup k m.entries

@[simp] theorem find?_empty (k : κ) : (empty : OrdMap κ α).find? k = none := rfl

theorem mem_of_lookup {k : κ} {a : α} : ∀ {l : List (κ × α)}, lookup k l = some a → (k, a) ∈ l
  | [], h => by simp [lookup] at h
  | (k', a') :: rest, h => by
    unfold lookup at h
    split at h
    · rename_i hk
      simp only [Option.some.injEq] at h
      simp [hk, h]
    · exact List.mem_cons_of_mem _ (mem_of_lookup h)

theorem lookup_of_mem {k : κ} {a : α} : ∀ {l : List (κ × α)},
    l.Pairwise (fun x y => x.1 < y.1) → (k, a) ∈ l → lookup k l = some a
  | [], _, h => by simp at h
  | (k', a') :: rest, hs, h => by
    rw [List.pairwise_cons] at hs
    unfold lookup
    rcases List.mem_cons.mp h with h | h
    · simp only [Prod.mk.injEq] at h
      simp [h]
    · have hlt : k' < k := hs.1 _ h
      rw [if_neg (ne_of_gt hlt)]
      exact lookup_of_mem hs.2 h

theorem find?_eq_some_iff {m : OrdMap κ α} {k : κ} {a : α} :
    m.find? k = some a ↔ (k, a) ∈ m.entries :=
  ⟨mem_of_lookup, lookup_of_mem m.sorted⟩

theorem lookup_eq_none_iff {k : κ} : ∀ {l : List (κ × α)},
    lookup k l = none ↔ ∀ e ∈ l, e.1 ≠ k
  | [] => by simp [lookup]
  | (k', a') :: rest => by
    unfold lookup
    by_cases hk : k = k'
    · simp [hk]
    · simp [hk, lookup_eq_none_iff, Ne.symm hk]

theorem find?_eq_none_iff {m : OrdMap κ α} {k : κ} :
    m.find? k = none ↔ ∀ e ∈ m.entries, e.1 ≠ k := lookup_eq_none_iff

theorem mem_values_iff {m : OrdMap κ α} {a : α} : a ∈ m.values ↔ ∃ k, m.find? k = some a := by
  simp only [values, List.mem_map, Prod.exists, exists_eq_right, find?_eq_some_iff]

theorem mem_keys_iff {m : OrdMap κ α} {k : κ} : k ∈ m.entries.map Prod.fst ↔ (m.find? k).isSome = true := by
  rw [Option.isSome_iff_exists, List.mem_map]
  constructor
  · rintro ⟨e, he, rfl⟩
    exact ⟨e.2, find?_eq_some_iff.mpr he⟩
  · rintro ⟨a, ha⟩
    exact ⟨(k, a), find?_eq_some_iff.mp ha, rfl⟩

theorem find?_map_snd {p : α → Bool} {a : α} : ∀ {l : List (κ × α)}, l.Pairwise (fun x y => x.1 < y.1) →
    ((l.map Prod.snd).find? p = some a ↔
      ∃ k, (k, a) ∈ l ∧ p a = true ∧ ∀ e ∈ l, p e.2 = true → k ≤ e.1)
  | [], _ => by simp
  | e :: rest, hs => by
    rw [List.pairwise_cons] at hs
    rw [List.map_cons, List.find?_cons]
    cases he : p e.2 with
    | true =>
      simp only [Option.some.injEq]
      constructor
      · rintro rfl
        refine ⟨e.1, List.mem_cons_self .., he, ?_⟩
        intro e' he' _
        rcases List.mem_cons.mp he' with rfl | hrest
        · exact le_refl _
        · exact le_of_lt (hs.1 e' hrest)
      · rintro ⟨k, hmem, -, hleast⟩
        rcases List.mem_cons.mp hmem with heq | hrest
        · exact (congrArg Prod.snd heq).symm
        · exact absurd (hs.1 _ hrest) (not_lt.mpr (hleast e (List.mem_cons_self ..) he))
    | false =>
      simp only
      rw [find?_map_snd hs.2]
      constructor
      · rintro ⟨k, hmem, hp, hleast⟩
        refine ⟨k, List.mem_cons_of_mem e hmem, hp, ?_⟩
        intro e' he' hp'
        rcases List.mem_cons.mp he' with rfl | hrest
        · rw [he] at hp'
          exact absurd hp' (by decide)
        · exact hleast e' hrest hp'
      · rintro ⟨k, hmem, hp, hleast⟩
        rcases List.mem_cons.mp hmem with rfl | hrest
        · rw [he] at hp
          exact absurd hp (by decide)
        · exact ⟨k, hrest, hp, fun e' he' => hleast e' (List.mem_cons_of_mem e he')⟩

/-- The first value in key order that passes a test has the least key of all that do. -/
theorem find?_values_eq_some_iff {m : OrdMap κ α} {p : α → Bool} {a : α} : m.values.find? p = some a ↔
    ∃ k, m.find? k = some a ∧ p a = true ∧ ∀ j b, m.find? j = some b → p b = true → k ≤ j := by
  simp only [values, find?_map_snd m.sorted, find?_eq_some_iff, Prod.forall]

/-- Two sorted entry lists with the same members are equal. -/
theorem sorted_ext : ∀ {l₁ l₂ : List (κ × α)}, l₁.Pairwise (fun x y => x.1 < y.1) →
    l₂.Pairwise (fun x y => x.1 < y.1) → (∀ k, lookup k l₁ = lookup k l₂) → l₁ = l₂
  | [], [], _, _, _ => rfl
  | [], (k, a) :: _, _, _, h => by have := h k; simp [lookup] at this
  | (k, a) :: _, [], _, _, h => by have := h k; simp [lookup] at this
  | (k₁, a₁) :: r₁, (k₂, a₂) :: r₂, h₁, h₂, h => by
    rw [List.pairwise_cons] at h₁ h₂
    -- the two least keys agree, otherwise the smaller one is found on one side only
    have hk : k₁ = k₂ := by
      rcases lt_trichotomy k₁ k₂ with hlt | heq | hgt
      · have hk₁ := h k₁
        have hno : lookup k₁ r₂ = none :=
          lookup_eq_none_iff.mpr fun e he => ne_of_gt (lt_trans hlt (h₂.1 e he))
        simp [lookup, ne_of_lt hlt, hno] at hk₁
      · exact heq
      · have hk₂ := h k₂
        have hno : lookup k₂ r₁ = none :=
          lookup_eq_none_iff.mpr fun e he => ne_of_gt (lt_trans hgt (h₁.1 e he))
        simp [lookup, ne_of_lt hgt, hno] at hk₂
    subst hk
    have ha : a₁ = a₂ := by simpa [lookup] using h k₁
    subst ha
    have hr : r₁ = r₂ := by
      refine sorted_ext h₁.2 h₂.2 fun k => ?_
      by_cases hk : k = k₁
      · subst hk
        rw [lookup_eq_none_iff.mpr fun e he => ne_of_gt (h₁.1 e he),
          lookup_eq_none_iff.mpr fun e he => ne_of_gt (h₂.1 e he)]
      · simpa [lookup, hk] using h k
    rw [hr]

theorem ext_find? {m n : OrdMap κ α} (h : ∀ k, m.find? k = n.find? k) : m = n :=
  ext (sorted_ext m.sorted n.sorted h)

/-! ## Insertion -/

def insertEntry (k : κ) (a : α) : List (κ × α) → List (κ × α)
  | [] => [(k, a)]
  | (k', a') :: rest =>
    if k < k' then (k, a) :: (k', a') :: rest
    else if k = k' then (k, a) :: rest
    else (k', a') :: insertEntry k a rest

theorem mem_insertEntry {k : κ} {a : α} {e : κ × α} : ∀ {l : List (κ × α)},
    e ∈ insertEntry k a l → e = (k, a) ∨ e ∈ l
  | [], h => by simpa [insertEntry] using h
  | (k', a') :: rest, h => by
    unfold insertEntry at h
    split at h
    · simpa using h
    · split at h
      · rcases List.mem_cons.mp h with h | h
        · exact .inl h
        · exact .inr (List.mem_cons_of_mem _ h)
      · rcases List.mem_cons.mp h with h | h
        · exact .inr (by simp [h])
        · exact (mem_insertEntry h).imp_right (List.mem_cons_of_mem _)

theorem insertEntry_sorted {k : κ} {a : α} : ∀ {l : List (κ × α)},
    l.Pairwise (fun x y => x.1 < y.1) → (insertEntry k a l).Pairwise (fun x y => x.1 < y.1)
  | [], _ => by simp [insertEntry]
  | (k', a') :: rest, hs => by
    have hs' := List.pairwise_cons.mp hs
    unfold insertEntry
    split
    · rename_i hlt
      refine List.pairwise_cons.mpr ⟨fun e he => ?_, hs⟩
      rcases List.mem_cons.mp he with he | he
      · simpa [he] using hlt
      · exact lt_trans hlt (hs'.1 e he)
    · split
      · rename_i heq
        exact List.pairwise_cons.mpr ⟨fun e he => heq ▸ hs'.1 e he, hs'.2⟩
      · rename_i hnlt hne
        refine List.pairwise_cons.mpr ⟨fun e he => ?_, insertEntry_sorted hs'.2⟩
        rcases mem_insertEntry he with he | he
        · rw [he]
          exact lt_of_le_of_ne (not_lt.mp hnlt) (Ne.symm hne)
        · exact hs'.1 e he

def insert (m : OrdMap κ α) (k : κ) (a : α) : OrdMap κ α :=
  ⟨insertEntry k a m.entries, insertEntry_sorted m.sorted⟩

theorem lookup_insertEntry (k j : κ) (a : α) : ∀ (l : List (κ × α)),
    lookup j (insertEntry k a l) = if j = k then some a else lookup j l
  | [] => by simp [insertEntry, lookup]
  | (k', a') :: rest => by
    unfold insertEntry
    by_cases hlt : k < k'
    · rw [if_pos hlt]
      rfl
    · rw [if_neg hlt]
      by_cases heq : k = k'
      · subst heq
        simp only [if_true, lookup]
        split <;> simp_all
      · rw [if_neg heq]
        simp only [lookup, lookup_insertEntry k j a rest]
        by_cases hj : j = k'
        · subst hj
          simp [Ne.symm heq]
        · simp [hj]

theorem find?_insert (m : OrdMap κ α) (k j : κ) (a : α) :
    (m.insert k a).find? j = if j = k then some a else m.find? j :=
  lookup_insertEntry k j a m.entries

@[simp] theorem find?_insert_self (m : OrdMap κ α) (k : κ) (a : α) :
    (m.insert k a).find? k = some a := by simp [find?_insert]

theorem find?_insert_ne (m : OrdMap κ α) {k j : κ} (a : α) (h : j ≠ k) :
    (m.insert k a).find? j = m.find? j := by simp [find?_insert, h]

theorem length_insertEntry (k : κ) (a : α) : ∀ (l : List (κ × α)),
    l.Pairwise (fun x y => x.1 < y.1) →
    (insertEntry k a l).length = if (lookup k l).isSome then l.length else l.length + 1
  | [], _ => by simp [insertEntry, lookup]
  | (k', a') :: rest, hs => by
    rw [List.pairwise_cons] at hs
    unfold insertEntry
    by_cases hlt : k < k'
    · have hno : lookup k rest = none :=
        lookup_eq_none_iff.mpr fun e he => ne_of_gt (lt_trans hlt (hs.1 e he))
      simp [hlt, lookup, ne_of_lt hlt, hno]
    · rw [if_neg hlt]
      by_cases heq : k = k'
      · simp [heq, lookup]
      · rw [if_neg heq]
        simp only [List.length_cons, length_insertEntry k a rest hs.2, lookup, heq, if_false]
        split <;> rfl

theorem size_insert (m : OrdMap κ α) (k : κ) (a : α) :
    (m.insert k a).size = if (m.find? k).isSome then m.size else m.size + 1 :=
  length_insertEntry k a m.entries m.sorted

theorem size_insert_le (m : OrdMap κ α) (k : κ) (a : α) : (m.insert k a).size ≤ m.size + 1 := by
  rw [size_insert]
  split <;> omega

theorem insertEntry_append {k : κ} {a : α} : ∀ {l : List (κ × α)},
    (∀ e ∈ l, e.1 < k) → insertEntry k a l = l ++ [(k, a)]
  | [], _ => rfl
  | (k', a') :: rest, h => by
    have hlt : k' < k := h (k', a') (by simp)
    have hrest := insertEntry_append (a := a) fun e he => h e (List.mem_cons_of_mem _ he)
    unfold insertEntry
    rw [if_neg (not_lt_of_gt hlt), if_neg (ne_of_gt hlt), hrest]
    rfl

/-- `emplace`: insertion that fails when the key is already present. -/
def emplace (m : OrdMap κ α) (k : κ) (a : α) : Option (OrdMap κ α) :=
  if (m.find? k).isSome then none else some (m.insert k a)

/-! ## Mapping -/

/-- Rewrites every value, keeping the keys. -/
def mapWithKey (f : κ → α → β) (m : OrdMap κ α) : OrdMap κ β :=
  ⟨m.entries.map (fun e => (e.1, f e.1 e.2)), List.pairwise_map.mpr m.sorted⟩

@[simp] theorem size_mapWithKey (f : κ → α → β) (m : OrdMap κ α) : (m.mapWithKey f).size = m.size := by
  simp [mapWithKey, size]

/-! ## Removal -/

def erase (m : OrdMap κ α) (k : κ) : OrdMap κ α :=
  ⟨m.entries.filter (fun e => decide (e.1 ≠ k)), m.sorted.filter _⟩

theorem find?_erase (m : OrdMap κ α) (k j : κ) :
    (m.erase k).find? j = if j = k then none else m.find? j := by
  by_cases hj : j = k
  · rw [if_pos hj, find?_eq_none_iff]
    intro e he
    have := (List.mem_filter.mp he).2
    simpa [hj] using this
  · rw [if_neg hj]
    cases h : m.find? j with
    | none =>
      rw [find?_eq_none_iff] at h ⊢
      exact fun e he => h e (List.mem_filter.mp he).1
    | some a =>
      rw [find?_eq_some_iff] at h ⊢
      exact List.mem_filter.mpr ⟨h, by simpa using hj⟩

theorem size_erase_le (m : OrdMap κ α) (k : κ) : (m.erase k).size ≤ m.size :=
  List.length_filter_le _ _

theorem size_erase_of_mem {m : OrdMap κ α} {k : κ} {a : α} (h : m.find? k = some a) :
    (m.erase k).size < m.size := by
  rw [find?_eq_some_iff] at h
  exact List.length_filter_lt_length_iff_exists.mpr ⟨(k, a), h, by simp⟩

/-! ## Counting -/

/-- How many values satisfy `p`. -/
def count (p : α → Bool) (m : OrdMap κ α) : Nat := m.entries.countP fun e => p e.2

theorem count_eq_size {p : α → Bool} {m : OrdMap κ α} (h : ∀ e ∈ m.entries, p e.2 = true) : m.count p = m.size :=
  List.countP_eq_length.mpr h

theorem countP_insertEntry (p : α → Bool) (k : κ) (a : α) : ∀ (l : List (κ × α)),
    l.Pairwise (fun x y => x.1 < y.1) →
    (insertEntry k a l).countP (fun e => p e.2) + (lookup k l).elim 0 (fun b => (p b).toNat) =
      l.countP (fun e => p e.2) + (p a).toNat
  | [], _ => by cases h : p a <;> simp [insertEntry, lookup, h]
  | (k', a') :: rest, hs => by
    rw [List.pairwise_cons] at hs
    unfold insertEntry
    by_cases hlt : k < k'
    · have hno : lookup k rest = none :=
        lookup_eq_none_iff.mpr fun e he => ne_of_gt (lt_trans hlt (hs.1 e he))
      cases h : p a <;> simp [hlt, lookup, ne_of_lt hlt, hno, List.countP_cons, h]
    · rw [if_neg hlt]
      by_cases heq : k = k'
      · cases h : p a <;> cases h' : p a' <;> simp [heq, lookup, h, h']
      · rw [if_neg heq]
        have ih := countP_insertEntry p k a rest hs.2
        simp only [lookup, heq, if_false, List.countP_cons]
        omega

/-- The new value counts, the one it replaces does not. -/
theorem count_insert (p : α → Bool) (m : OrdMap κ α) (k : κ) (a : α) :
    (m.insert k a).count p + (m.find? k).elim 0 (fun b => (p b).toNat) = m.count p + (p a).toNat :=
  countP_insertEntry p k a m.entries m.sorted

theorem count_erase {p : α → Bool} {m : OrdMap κ α} {k : κ} {b : α} (h : m.find? k = some b) (hb : p b = false) :
    (m.erase k).count p = m.count p := by
  unfold count erase
  rw [List.countP_filter]
  apply List.countP_congr
  intro e he
  simp only [Bool.and_eq_true, decide_eq_true_eq, and_iff_left_iff_imp]
  rintro hp rfl
  have hsame : m.find? e.1 = some e.2 := find?_eq_some_iff.mpr he
  rw [h, Option.some.injEq] at hsame
  simp [hsame, hp] at hb

/-! ## Rebuilding a map from its entries -/

/-- Inserts a list of entries one after the other, the later ones winning. -/
def insertAll (m : OrdMap κ α) (l : List (κ × α)) : OrdMap κ α :=
  l.foldl (fun acc e => acc.insert e.1 e.2) m

theorem insertAll_append_sorted : ∀ (l : List (κ × α)) (m : OrdMap κ α),
    (m.entries ++ l).Pairwise (fun x y => x.1 < y.1) → (m.insertAll l).entries = m.entries ++ l
  | [], m, _ => by simp [insertAll]
  | (k, a) :: rest, m, hs => by
    have hall : ∀ e ∈ m.entries, e.1 < k := fun e he =>
      (List.pairwise_append.mp hs).2.2 e he (k, a) (by simp)
    have hins : (m.insert k a).entries = m.entries ++ [(k, a)] := insertEntry_append hall
    have := insertAll_append_sorted rest (m.insert k a) (by rw [hins]; simpa using hs)
    rw [hins, List.append_assoc] at this
    exact this

theorem foldl_insert_entries (m : OrdMap κ α) : empty.insertAll m.entries = m :=
  ext (insertAll_append_sorted m.entries empty (by simpa [empty] using m.sorted))

theorem emplace_append {m : OrdMap κ α} {k : κ} {a : α} (h : ∀ e ∈ m.entries, e.1 < k) :
    m.emplace k a = some (m.insert k a) := by
  have hnone : m.find? k = none := find?_eq_none_iff.mpr fun e he => ne_of_lt (h e he)
  simp [emplace, hnone]

end OrdMap

/-! ## Sets as strictly ascending lists -/

section Unique
variable {κ : Type} [LinearOrder κ]

/-- Places a key in a strictly ascending list, unless it is already there. -/
def insertUnique (key : κ) : List κ → List κ
  | [] => [key]
  | k :: rest =>
    if key < k then key :: k :: rest
    else if key = k then k :: rest
    else k :: insertUnique key rest

theorem insertUnique_nil (key : κ) : insertUnique key [] = [key] := rfl

theorem insertUnique_step (key k : κ) (rest : List κ) : insertUnique key (k :: rest) =
    if key < k then key :: k :: rest else if key = k then k :: rest else k :: insertUnique key rest := rfl

/-- The distinct keys in ascending order. -/
def sortUnique (keys : List κ) : List κ := keys.foldr insertUnique []

theorem mem_insertUnique {key k : κ} : ∀ {l : List κ},
    k ∈ insertUnique key l → k = key ∨ k ∈ l
  | [], h => by simpa [insertUnique_nil] using h
  | j :: rest, h => by
    rw [insertUnique_step] at h
    split at h
    · simpa using h
    · split at h
      · exact .inr h
      · rcases List.mem_cons.mp h with h | h
        · exact .inr (by simp [h])
        · exact (mem_insertUnique h).imp_right (List.mem_cons_of_mem _)

theorem insertUnique_sorted {key : κ} : ∀ {l : List κ},
    l.Pairwise (· < ·) → (insertUnique key l).Pairwise (· < ·)
  | [], _ => by simp [insertUnique_nil]
  | k :: rest, hs => by
    have hs' := List.pairwise_cons.mp hs
    rw [insertUnique_step]
    split
    · rename_i hlt
      refine List.pairwise_cons.mpr ⟨fun x hx => ?_, hs⟩
      rcases List.mem_cons.mp hx with rfl | hx
      · exact hlt
      · exact lt_trans hlt (hs'.1 x hx)
    · split
      · exact hs
      · rename_i hnlt hne
        refine List.pairwise_cons.mpr ⟨fun x hx => ?_, insertUnique_sorted hs'.2⟩
        rcases mem_insertUnique hx with rfl | hx
        · exact lt_of_le_of_ne (not_lt.mp hnlt) (Ne.symm hne)
        · exact hs'.1 x hx

theorem length_insertUnique_le (key : κ) : ∀ (l : List κ),
    (insertUnique key l).length ≤ l.length + 1
  | [] => by simp [insertUnique_nil]
  | k :: rest => by
    have := length_insertUnique_le key rest
    rw [insertUnique_step]
    split
    · simp
    · split
      · simp
      · simp only [List.length_cons]
        omega

theorem sortUnique_sorted (keys : List κ) : (sortUnique keys).Pairwise (· < ·) := by
  induction keys with
  | nil => exact List.Pairwise.nil
  | cons k rest ih => exact insertUnique_sorted ih

theorem length_sortUnique_le (keys : List κ) : (sortUnique keys).length ≤ keys.length := by
  induction keys with
  | nil => simp [sortUnique]
  | cons k rest ih =>
    have := length_insertUnique_le k (sortUnique rest)
    simp only [sortUnique, List.foldr_cons, List.length_cons] at *
    omega

theorem mem_insertUnique_of {key k : κ} : ∀ {l : List κ}, k = key ∨ k ∈ l → k ∈ insertUnique key l
  | [], h => by simpa [insertUnique_nil] using h
  | j :: rest, h => by
    rw [insertUnique_step]
    split
    · simpa using h
    · split
      next heq =>
        rcases h with rfl | h
        · simp [heq]
        · exact h
      · rw [List.mem_cons] at h ⊢
        rcases h with hkey | hj | hrest
        · exact .inr (mem_insertUnique_of (.inl hkey))
        · exact .inl hj
        · exact .inr (mem_insertUnique_of (.inr hrest))

theorem mem_sortUnique {k : κ} {keys : List κ} : k ∈ sortUnique keys ↔ k ∈ keys := by
  induction keys with
  | nil => simp [sortUnique]
  | cons key rest ih =>
    rw [List.mem_cons, ← ih]
    exact ⟨mem_insertUnique, mem_insertUnique_of⟩

/-- The order and the repetitions of the keys do not matter. -/
theorem sortUnique_congr {keys keys' : List κ} (h : ∀ k, k ∈ keys ↔ k ∈ keys') :
    sortUnique keys = sortUnique keys' := by
  have hperm : (sortUnique keys).Perm (sortUnique keys') := by
    refine (List.perm_ext_iff_of_nodup ?_ ?_).mpr ?_
    · exact (sortUnique_sorted keys).imp ne_of_lt
    · exact (sortUnique_sorted keys').imp ne_of_lt
    · intro k
      rw [mem_sortUnique, mem_sortUnique]
      exact h k
  refine List.Perm.eq_of_pairwise ?_ (sortUnique_sorted keys) (sortUnique_sorted keys') hperm
  intro a b _ _ hab hba
  exact absurd hab (lt_asymm hba)

theorem insertUnique_cons {key : κ} : ∀ {l : List κ},
    (∀ k ∈ l, key < k) → insertUnique key l = key :: l
  | [], _ => rfl
  | k :: rest, h => by
    rw [insertUnique_step, if_pos (h k (by simp))]

theorem sortUnique_of_sorted {keys : List κ} (h : keys.Pairwise (· < ·)) :
    sortUnique keys = keys := by
  induction keys with
  | nil => rfl
  | cons k rest ih =>
    rw [List.pairwise_cons] at h
    have hr : sortUnique rest = rest := ih h.2
    simp only [sortUnique, List.foldr_cons] at *
    rw [hr]
    exact insertUnique_cons h.1

end Unique

/-! ## Merging two sorted entry lists -/

/-- One position of a two-pointer walk over two sorted entry lists. -/
inductive Join (κ α β : Type)
  | left (key : κ) (a : α)
  | right (key : κ) (b : β)
  | both (key : κ) (a : α) (b : β)

namespace Join
variable {κ α β : Type} [LinearOrder κ]

/-- One left entry against the right list; `next` continues with the remaining left entries. -/
def step (k : κ) (a : α) (next : List (κ × β) → List (Join κ α β)) : List (κ × β) → List (Join κ α β)
  | [] => .left k a :: next []
  | (k', b) :: rest =>
    if k < k' then .left k a :: next ((k', b) :: rest)
    else if k' < k then .right k' b :: step k a next rest
    else .both k a b :: next rest

/-- The walk that always advances the side with the smaller key, or both on equal keys. -/
def walk : List (κ × α) → List (κ × β) → List (Join κ α β)
  | [], rs => rs.map fun e => .right e.1 e.2
  | (k, a) :: ls, rs => step k a (walk ls) rs

end Join

end Lib
