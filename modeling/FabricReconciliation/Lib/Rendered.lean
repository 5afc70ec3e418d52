import FabricReconciliation.Lib.Json
import FabricReconciliation.Lib.OrdMap
import Mathlib.Data.List.Sort

/-!
# JSON values as a writer leaves them

Integers in decimal, blanks in front of what closes an array or an object, and members in the order of their
keys.

* **`natOf_decimal`** — decimal digits are the number;
* **`Reordered.sorted`** — values that differ in the order of members only are the same once sorted;
* **`reordered_sorted`** — and sorting is such a difference.
-/

namespace Lib.Json

/-! ## Decimal literals -/

/-- A number in decimal. -/
def decimal (n : Nat) : Bytes := (Nat.toDigits 10 n).map fun c => UInt8.ofNat c.toNat

theorem toNat_digit {c : Char} (h : c.isDigit = true) : (UInt8.ofNat c.toNat).toNat = c.toNat := by
  have hrange := Char.isDigit_iff_toNat.mp h
  have hnine : '9'.toNat = 57 := rfl
  rw [UInt8.toNat_ofNat', Nat.mod_eq_of_lt (by omega)]

theorem isDigit_of_mem_decimal {n : Nat} {b : UInt8} (h : b ∈ decimal n) : isDigit b = true := by
  obtain ⟨c, hc, rfl⟩ := List.mem_map.mp h
  have hdigit := Nat.isDigit_of_mem_toDigits (by decide) (by decide) hc
  have hrange := Char.isDigit_iff_toNat.mp hdigit
  have hsame := toNat_digit hdigit
  simp only [isDigit, Bool.and_eq_true, decide_eq_true_eq, UInt8.le_iff_toNat_le, hsame]
  exact hrange

theorem digits_decimal (n : Nat) : Digits (decimal n) := by
  refine ⟨?_, fun b hb => isDigit_of_mem_decimal hb⟩
  rw [decimal, ne_eq, List.map_eq_nil_iff]
  exact Nat.toDigits_ne_nil

theorem natOf_decimal (n : Nat) : natOf (decimal n) = n := by
  have hsame : ∀ (cs : List Char) (k : Nat), (∀ c ∈ cs, c.isDigit = true) →
      (cs.map fun c => UInt8.ofNat c.toNat).foldl (fun n d => 10 * n + (d.toNat - 0x30)) k =
        Nat.ofDigitChars 10 cs k := by
    intro cs
    induction cs with
    | nil => intro k _; rfl
    | cons c cs ih =>
      intro k h
      rw [List.map_cons, List.foldl_cons, toNat_digit (h c (List.mem_cons_self ..)), Nat.ofDigitChars_cons]
      exact ih _ fun d hd => h d (List.mem_cons_of_mem _ hd)
  rw [natOf, decimal, hsame _ _ fun c hc => Nat.isDigit_of_mem_toDigits (by decide) (by decide) hc]
  exact Nat.ofDigitChars_toDigits (by decide) (by decide)

/-- Only zero begins with a zero. -/
theorem decimal_head {n : Nat} (h : n ≠ 0) : (decimal n).head? ≠ some 0x30 := by
  induction n using Nat.strong_induction_on with
  | _ n ih =>
    by_cases hsmall : n < 10
    · rw [decimal, Nat.toDigits_of_lt_base hsmall]
      interval_cases n
      · exact absurd rfl h
      all_goals decide
    · have hrest : n / 10 ≠ 0 := by omega
      have hhead := ih (n / 10) (by omega) hrest
      obtain ⟨b, tail, hb⟩ := List.exists_cons_of_ne_nil (digits_decimal (n / 10)).1
      rw [decimal] at hb hhead ⊢
      rw [Nat.toDigits_of_base_le (by decide) (by omega), List.map_append, hb]
      rw [hb] at hhead
      exact hhead

/-- The literal of an integer. -/
def Numeral.ofInt (i : Int) : Numeral := { negative := decide (i < 0), whole := decimal i.natAbs }

theorem Numeral.valid_ofInt (i : Int) : (Numeral.ofInt i).Valid := by
  refine ⟨?_, .inl rfl, .inl rfl⟩
  by_cases hzero : i.natAbs = 0
  · have hdigit : decimal 0 = [0x30] := by decide
    rw [Numeral.ofInt, hzero]
    exact .inl hdigit
  · exact .inr ⟨digits_decimal _, decimal_head hzero⟩

@[simp] theorem Numeral.isInteger_ofInt (i : Int) : (Numeral.ofInt i).isInteger = true := rfl

@[simp] theorem Numeral.int_ofInt (i : Int) : (Numeral.ofInt i).int = i := by
  unfold Numeral.int Numeral.ofInt
  simp only [natOf_decimal]
  split_ifs with hnegative
  all_goals
    simp only [decide_eq_true_eq] at hnegative
    omega

namespace Node

variable {ν μ β : Type}

/-- Every number of a value has a property. -/
def Numbers (p : ν → Prop) : Node ν → Prop := fold {
  null := True, boolean := fun _ => True, number := p, text := fun _ => True
  array := fun all => ∀ q ∈ all, q
  object := fun all => ∀ q ∈ all, q.2 }

@[simp] theorem numbers_array {p : ν → Prop} {items : List (Node ν)} :
    (array items).Numbers p ↔ ∀ v ∈ items, v.Numbers p := by
  rw [Numbers, fold_array]
  simp only [List.forall_mem_map]

@[simp] theorem numbers_object {p : ν → Prop} {members : List (Bytes × Node ν)} :
    (object members).Numbers p ↔ ∀ m ∈ members, m.2.Numbers p := by
  rw [Numbers, fold_object]
  simp only [List.forall_mem_map]

theorem numbers_combine {p q r : ν → Prop} {v : Node ν} (hp : v.Numbers p) (hq : v.Numbers q)
    (h : ∀ x, p x → q x → r x) : v.Numbers r := by
  induction v using induct with
  | number x => exact h x hp hq
  | array items ih =>
    rw [numbers_array] at *
    exact fun v hv => ih v hv (hp v hv) (hq v hv)
  | object members ih =>
    rw [numbers_object] at *
    exact fun m hm => ih m hm (hp m hm) (hq m hm)
  | _ => trivial

/-- No string, array or object is over its bound. -/
def Sized (bounds : Bounds) : Node ν → Prop := fold {
  null := True, boolean := fun _ => True, number := fun _ => True, text := fun t => t.length ≤ bounds.string
  array := fun all => all.length ≤ bounds.array ∧ ∀ q ∈ all, q
  object := fun all => all.length ≤ bounds.object ∧ ∀ q ∈ all, q.1.length ≤ bounds.string ∧ q.2 }

/-- No object has a key twice. -/
def Distinct : Node ν → Prop := fold {
  null := True, boolean := fun _ => True, number := fun _ => True, text := fun _ => True
  array := fun all => ∀ q ∈ all, q
  object := fun all => (all.map Prod.fst).Nodup ∧ ∀ q ∈ all, q.2 }

@[simp] theorem sized_array {bounds : Bounds} {items : List (Node ν)} :
    (array items).Sized bounds ↔ items.length ≤ bounds.array ∧ ∀ v ∈ items, v.Sized bounds := by
  rw [Sized, fold_array]
  simp only [List.length_map, List.forall_mem_map]

@[simp] theorem sized_object {bounds : Bounds} {members : List (Bytes × Node ν)} : (object members).Sized bounds ↔
    members.length ≤ bounds.object ∧ ∀ m ∈ members, m.1.length ≤ bounds.string ∧ m.2.Sized bounds := by
  rw [Sized, fold_object]
  simp only [List.length_map, List.forall_mem_map]

/-- `Sized`, as a check. -/
def fitsBounds (bounds : Bounds) : Node ν → Bool := fold {
  null := true, boolean := fun _ => true, number := fun _ => true, text := fun t => t.length ≤ bounds.string
  array := fun all => decide (all.length ≤ bounds.array) && all.all id
  object := fun all => decide (all.length ≤ bounds.object) && all.all fun q => decide (q.1.length ≤ bounds.string) && q.2 }

theorem fitsBounds_iff {bounds : Bounds} {v : Node ν} : v.fitsBounds bounds = true ↔ v.Sized bounds := by
  induction v using induct with
  | array items ih =>
    rw [fitsBounds, fold_array, sized_array]
    simp only [List.length_map, Bool.and_eq_true, decide_eq_true_eq, List.all_eq_true, List.forall_mem_map, id_eq]
    exact and_congr_right fun _ => forall₂_congr ih
  | object members ih =>
    rw [fitsBounds, fold_object, sized_object]
    simp only [List.length_map, Bool.and_eq_true, decide_eq_true_eq, List.all_eq_true, List.forall_mem_map]
    exact and_congr_right fun _ => forall₂_congr fun m hm => and_congr_right fun _ => ih m hm
  | text t => exact decide_eq_true_iff
  | _ => exact ⟨fun _ => trivial, fun _ => rfl⟩

instance {bounds : Bounds} {v : Node ν} : Decidable (v.Sized bounds) := decidable_of_iff _ fitsBounds_iff

@[simp] theorem distinct_array {items : List (Node ν)} : (array items).Distinct ↔ ∀ v ∈ items, v.Distinct := by
  rw [Distinct, fold_array]
  simp only [List.forall_mem_map]

@[simp] theorem distinct_object {members : List (Bytes × Node ν)} :
    (object members).Distinct ↔ (members.map Prod.fst).Nodup ∧ ∀ m ∈ members, m.2.Distinct := by
  rw [Distinct, fold_object]
  simp only [List.forall_mem_map, List.map_map, Function.comp_def]

theorem within_of_sized {bounds : Bounds} {v : Node ν} (hsized : v.Sized bounds) (hdistinct : v.Distinct) :
    Within bounds v := by
  induction v using induct with
  | null => exact .null
  | boolean b => exact .boolean b
  | number x => exact .number x
  | text t => exact .text hsized
  | array items ih =>
    rw [sized_array] at hsized
    rw [distinct_array] at hdistinct
    exact .array hsized.1 fun v hv => ih v hv (hsized.2 v hv) (hdistinct v hv)
  | object members ih =>
    rw [sized_object] at hsized
    rw [distinct_object] at hdistinct
    exact .object hsized.1 hdistinct.1 (fun m hm => (hsized.2 m hm).1) fun m hm =>
      ih m hm (hsized.2 m hm).2 (hdistinct.2 m hm)

/-! ## Numbers replaced -/

variable {f : ν → μ}

theorem count_map (v : Node ν) : (v.map f).count = v.count := by
  induction v using induct with
  | array items ih =>
    rw [map_array, count_array, count_array, List.map_map]
    exact congrArg (1 + ·.sum) (List.map_congr_left ih)
  | object members ih =>
    rw [map_object, count_object, count_object, List.map_map]
    exact congrArg (1 + ·.sum) (List.map_congr_left ih)
  | _ => rfl

theorem depth_map (v : Node ν) : (v.map f).depth = v.depth := by
  induction v using induct with
  | array items ih =>
    refine eq_of_forall_ge_iff fun n => ?_
    rw [map_array, depth_array_le, depth_array_le, List.forall_mem_map]
    exact forall₂_congr fun v hv => by rw [ih v hv]
  | object members ih =>
    refine eq_of_forall_ge_iff fun n => ?_
    rw [map_object, depth_object_le, depth_object_le, List.forall_mem_map]
    exact forall₂_congr fun m hm => by rw [ih m hm]
  | _ => rfl

theorem within_map {bounds : Bounds} {v : Node ν} (h : Within bounds v) : Within bounds (v.map f) := by
  induction h with
  | null => exact .null
  | boolean b => exact .boolean b
  | number n => exact .number _
  | text h => exact .text h
  | array hlength h ih =>
    rw [map_array]
    exact .array (by simpa using hlength) (List.forall_mem_map.mpr ih)
  | object hlength hdistinct hkeys h ih =>
    rw [map_object]
    refine .object (by simpa using hlength) ?_ (List.forall_mem_map.mpr hkeys) (List.forall_mem_map.mpr ih)
    rw [List.map_map]
    exact hdistinct

theorem numbers_map {p : ν → Prop} {q : μ → Prop} {v : Node ν} (h : v.Numbers p) (hf : ∀ x, p x → q (f x)) :
    (v.map f).Numbers q := by
  induction v using induct with
  | number x => exact hf x h
  | array items ih =>
    rw [numbers_array] at h
    rw [map_array, numbers_array, List.forall_mem_map]
    exact fun v hv => ih v hv (h v hv)
  | object members ih =>
    rw [numbers_object] at h
    rw [map_object, numbers_object, List.forall_mem_map]
    exact fun m hm => ih m hm (h m hm)
  | _ => trivial

/-! ## The order of members -/

/-- The order of members by their keys, byte by byte. -/
def byKey (a b : Bytes × β) : Prop := a.1 ≤ b.1

instance : DecidableRel (byKey (β := β)) := fun a b => inferInstanceAs (Decidable (a.1 ≤ b.1))
instance : Std.Total (byKey (β := β)) := ⟨fun a b => le_total a.1 b.1⟩
instance : IsTrans (Bytes × β) byKey := ⟨fun _ _ _ h h' => le_trans (α := Bytes) h h'⟩

/-- The members of every object by their keys. -/
def sorted : Node ν → Node ν := fold {
  null := .null, boolean := .boolean, number := .number, text := .text, array := .array
  object := fun members => .object (members.insertionSort byKey) }

@[simp] theorem sorted_array (items : List (Node ν)) : (array items).sorted = .array (items.map sorted) :=
  fold_array _ _

@[simp] theorem sorted_object (members : List (Bytes × Node ν)) :
    (object members).sorted = .object ((members.map fun m => (m.1, m.2.sorted)).insertionSort byKey) :=
  fold_object _ _

/-- Members of distinct keys have one order by their keys. -/
theorem sort_perm {members others : List (Bytes × β)} (h : members.Perm others)
    (hdistinct : (members.map Prod.fst).Nodup) :
    members.insertionSort byKey = others.insertionSort byKey := by
  have hperm : (members.insertionSort byKey).Perm (others.insertionSort byKey) :=
    (List.perm_insertionSort ..).trans (h.trans (List.perm_insertionSort ..).symm)
  refine hperm.eq_of_pairwise ?_ (List.pairwise_insertionSort ..) (List.pairwise_insertionSort ..)
  intro a b ha hb hab hba
  rw [List.mem_insertionSort] at ha hb
  have hkey : a.1 = b.1 := le_antisymm (α := Bytes) hab hba
  exact List.inj_on_of_nodup_map hdistinct ha (h.mem_iff.mpr hb) hkey

/-- Two values that differ in the order of members only, at any depth. -/
inductive Reordered : Node ν → Node ν → Prop
  | refl (v : Node ν) : Reordered v v
  | members {members others : List (Bytes × Node ν)} (h : members.Perm others) :
      Reordered (.object members) (.object others)
  | item {v w : Node ν} (before after : List (Node ν)) (h : Reordered v w) :
      Reordered (.array (before ++ v :: after)) (.array (before ++ w :: after))
  | member {v w : Node ν} (before : List (Bytes × Node ν)) (key : Bytes) (after : List (Bytes × Node ν))
      (h : Reordered v w) : Reordered (.object (before ++ (key, v) :: after)) (.object (before ++ (key, w) :: after))
  | trans {u v w : Node ν} (h : Reordered u v) (h' : Reordered v w) : Reordered u w

end Node

open Node

variable {ν : Type}

theorem joined_concat (texts : List Bytes) (text after : Bytes) :
    joined (texts ++ [text ++ after]) = joined (texts ++ [text]) ++ after := by
  induction texts with
  | nil => rfl
  | cons first rest ih =>
    rw [List.cons_append, List.cons_append, joined_cons _ (by simp), joined_cons _ (by simp), ih, List.append_assoc,
      List.cons_append]

/-- An array with blanks in front of its bracket. -/
theorem Denotes.arraySpaced {meaning : Numeral → Option ν} {elements : List (Element ν)} (hsome : elements ≠ [])
    (hblanks : ∀ e ∈ elements, e.Spaced) (h : ∀ e ∈ elements, Denotes meaning e.source e.value) {after : Bytes}
    (hafter : Whitespace after) :
    Denotes meaning (0x5b :: (joined (elements.map Element.text) ++ (after ++ [0x5d])))
      (.array (elements.map Element.value)) := by
  obtain ⟨init, last, rfl⟩ : ∃ init last, elements = init ++ [last] :=
    ⟨_, _, (List.dropLast_append_getLast hsome).symm⟩
  rw [List.forall_mem_append, List.forall_mem_singleton] at hblanks h
  obtain ⟨moved, hmoved⟩ : ∃ moved : Element ν, moved = { last with after := last.after ++ after } := ⟨_, rfl⟩
  have htext : moved.text = last.text ++ after := by simp [hmoved, Element.text]
  have hvalue : moved.value = last.value := by rw [hmoved]
  have hspaced : moved.Spaced := by
    rw [hmoved]
    exact ⟨hblanks.2.1, List.forall_mem_append.mpr ⟨hblanks.2.2, hafter⟩⟩
  have hdenotes := @Denotes.array _ meaning (init ++ [moved]) (by simp)
    (List.forall_mem_append.mpr ⟨hblanks.1, List.forall_mem_singleton.mpr hspaced⟩)
    (List.forall_mem_append.mpr ⟨h.1, List.forall_mem_singleton.mpr (by rw [hmoved]; exact h.2)⟩)
  rw [List.map_append, List.map_singleton, htext, joined_concat, List.map_append, List.map_singleton,
    hvalue] at hdenotes
  simpa using hdenotes

/-- An object with blanks in front of its brace. -/
theorem Denotes.objectSpaced {meaning : Numeral → Option ν} {entries : List (Entry ν)} (hsome : entries ≠ [])
    (hblanks : ∀ e ∈ entries, e.Spaced) (hkeys : ∀ e ∈ entries, Characters e.keySource e.key)
    (h : ∀ e ∈ entries, Denotes meaning e.element.source e.element.value) {after : Bytes}
    (hafter : Whitespace after) :
    Denotes meaning (0x7b :: (joined (entries.map Entry.text) ++ (after ++ [0x7d])))
      (.object (entries.map Entry.member)) := by
  obtain ⟨init, last, rfl⟩ : ∃ init last, entries = init ++ [last] :=
    ⟨_, _, (List.dropLast_append_getLast hsome).symm⟩
  rw [List.forall_mem_append, List.forall_mem_singleton] at hblanks hkeys h
  obtain ⟨moved, hmoved⟩ : ∃ moved : Entry ν,
      moved = { last with element := { last.element with after := last.element.after ++ after } } := ⟨_, rfl⟩
  have htext : moved.text = last.text ++ after := by simp [hmoved, Entry.text, Element.text]
  have hmember : moved.member = last.member := by simp [hmoved, Entry.member]
  have hspaced : moved.Spaced := by
    obtain ⟨-, hbefore, hbetween, hinner, hlast⟩ := hblanks
    rw [hmoved]
    exact ⟨hbefore, hbetween, hinner, List.forall_mem_append.mpr ⟨hlast, hafter⟩⟩
  have hdenotes := @Denotes.object _ meaning (init ++ [moved]) (by simp)
    (List.forall_mem_append.mpr ⟨hblanks.1, List.forall_mem_singleton.mpr hspaced⟩)
    (List.forall_mem_append.mpr ⟨hkeys.1, List.forall_mem_singleton.mpr (by rw [hmoved]; exact hkeys.2)⟩)
    (List.forall_mem_append.mpr ⟨h.1, List.forall_mem_singleton.mpr (by rw [hmoved]; exact h.2)⟩)
  rw [List.map_append, List.map_singleton, htext, joined_concat, List.map_append, List.map_singleton,
    hmember] at hdenotes
  simpa using hdenotes

/-- Every number of a value that a text denotes is what some literal means. -/
theorem Denotes.numbers {meaning : Numeral → Option ν} {source : Bytes} {v : Node ν} (h : Denotes meaning source v) :
    v.Numbers fun x => ∃ n : Numeral, n.Valid ∧ meaning n = some x := by
  induction h with
  | number hvalid hmeaning => exact ⟨_, hvalid, hmeaning⟩
  | emptyArray => rw [numbers_array]; simp
  | array hsome hblanks h ih =>
    rw [numbers_array, List.forall_mem_map]
    exact ih
  | emptyObject => rw [numbers_object]; simp
  | object hsome hblanks hkeys h ih =>
    rw [numbers_object, List.forall_mem_map]
    exact ih
  | _ => exact trivial

namespace Node

theorem Reordered.within {bounds : Bounds} {v w : Node ν} (h : Reordered v w) (hv : Within bounds v) :
    Within bounds w := by
  induction h with
  | refl v => exact hv
  | members h =>
    obtain ⟨⟩ | ⟨⟩ | ⟨⟩ | ⟨⟩ | ⟨⟩ | ⟨hlength, hdistinct, hkeys, hall⟩ := hv
    refine .object (by rwa [← h.length_eq]) ((h.map Prod.fst).nodup_iff.mp hdistinct) ?_ ?_
    · exact fun m hm => hkeys m (h.mem_iff.mpr hm)
    · exact fun m hm => hall m (h.mem_iff.mpr hm)
  | item before after h ih =>
    obtain ⟨⟩ | ⟨⟩ | ⟨⟩ | ⟨⟩ | ⟨hlength, hall⟩ := hv
    rw [List.forall_mem_append, List.forall_mem_cons] at hall
    refine .array (by simpa using hlength) ?_
    rw [List.forall_mem_append, List.forall_mem_cons]
    exact ⟨hall.1, ih hall.2.1, hall.2.2⟩
  | member before key after h ih =>
    obtain ⟨⟩ | ⟨⟩ | ⟨⟩ | ⟨⟩ | ⟨⟩ | ⟨hlength, hdistinct, hkeys, hall⟩ := hv
    rw [List.forall_mem_append, List.forall_mem_cons] at hall hkeys
    refine .object (by simpa using hlength) (by simpa using hdistinct) ?_ ?_
    · rw [List.forall_mem_append, List.forall_mem_cons]
      exact hkeys
    · rw [List.forall_mem_append, List.forall_mem_cons]
      exact ⟨hall.1, ih hall.2.1, hall.2.2⟩
  | trans h h' ih ih' => exact ih' (ih hv)

/-- Values with distinct keys that differ in the order of members only are the same by their keys. -/
theorem Reordered.sorted {bounds : Bounds} {v w : Node ν} (h : Reordered v w) (hv : Within bounds v) :
    v.sorted = w.sorted := by
  induction h with
  | refl v => rfl
  | @members members others h =>
    obtain ⟨⟩ | ⟨⟩ | ⟨⟩ | ⟨⟩ | ⟨⟩ | ⟨hlength, hdistinct, hkeys, hall⟩ := hv
    rw [sorted_object, sorted_object]
    congr 1
    exact sort_perm (h.map _) (by simpa [Function.comp_def] using hdistinct)
  | item before after h ih =>
    obtain ⟨⟩ | ⟨⟩ | ⟨⟩ | ⟨⟩ | ⟨hlength, hall⟩ := hv
    have hone := ih (hall _ (by simp))
    rw [sorted_array, sorted_array, List.map_append, List.map_append, List.map_cons, List.map_cons, hone]
  | member before key after h ih =>
    obtain ⟨⟩ | ⟨⟩ | ⟨⟩ | ⟨⟩ | ⟨⟩ | ⟨hlength, hdistinct, hkeys, hall⟩ := hv
    have hone := ih (hall (key, _) (by simp))
    rw [sorted_object, sorted_object, List.map_append, List.map_append, List.map_cons, List.map_cons, hone]
  | trans h h' ih ih' => exact (ih hv).trans (ih' (h.within hv))

theorem Reordered.count {v w : Node ν} (h : Reordered v w) : v.count = w.count := by
  induction h with
  | refl v => rfl
  | members h => rw [count_object, count_object, (h.map _).sum_eq]
  | item before after h ih => simp [ih]
  | member before key after h ih => simp [ih]
  | trans h h' ih ih' => exact ih.trans ih'

theorem Reordered.depth {v w : Node ν} (h : Reordered v w) : v.depth = w.depth := by
  induction h with
  | refl v => rfl
  | members h =>
    refine eq_of_forall_ge_iff fun n => ?_
    rw [depth_object_le, depth_object_le]
    exact ⟨fun hall m hm => hall m (h.mem_iff.mpr hm), fun hall m hm => hall m (h.mem_iff.mp hm)⟩
  | item before after h ih =>
    refine eq_of_forall_ge_iff fun n => ?_
    simp only [depth_array_le, List.forall_mem_append, List.forall_mem_cons, ih]
  | member before key after h ih =>
    refine eq_of_forall_ge_iff fun n => ?_
    simp only [depth_object_le, List.forall_mem_append, List.forall_mem_cons, ih]
  | trans h h' ih ih' => exact ih.trans ih'

theorem Reordered.numbers {p : ν → Prop} {v w : Node ν} (h : Reordered v w) : v.Numbers p ↔ w.Numbers p := by
  induction h with
  | refl v => exact Iff.rfl
  | members h =>
    rw [numbers_object, numbers_object]
    exact ⟨fun hall m hm => hall m (h.mem_iff.mpr hm), fun hall m hm => hall m (h.mem_iff.mp hm)⟩
  | item before after h ih => simp only [numbers_array, List.forall_mem_append, List.forall_mem_cons, ih]
  | member before key after h ih => simp only [numbers_object, List.forall_mem_append, List.forall_mem_cons, ih]
  | trans h h' ih ih' => exact ih.trans ih'

theorem reordered_items {f : Node ν → Node ν} (before items : List (Node ν)) (h : ∀ v ∈ items, Reordered v (f v)) :
    Reordered (.array (before ++ items)) (.array (before ++ items.map f)) := by
  induction items generalizing before with
  | nil => exact .refl _
  | cons v rest ih =>
    have hlater := ih (before ++ [f v]) fun w hw => h w (List.mem_cons_of_mem _ hw)
    rw [List.append_assoc, List.append_assoc] at hlater
    exact .trans (.item before rest (h v (List.mem_cons_self ..))) hlater

theorem reordered_members {f : Node ν → Node ν} (before members : List (Bytes × Node ν))
    (h : ∀ m ∈ members, Reordered m.2 (f m.2)) :
    Reordered (.object (before ++ members)) (.object (before ++ members.map fun m => (m.1, f m.2))) := by
  induction members generalizing before with
  | nil => exact .refl _
  | cons m rest ih =>
    have hlater := ih (before ++ [(m.1, f m.2)]) fun w hw => h w (List.mem_cons_of_mem _ hw)
    rw [List.append_assoc, List.append_assoc] at hlater
    exact .trans (.member before m.1 rest (h m (List.mem_cons_self ..))) hlater

/-- Sorting a value reorders its members. -/
theorem reordered_sorted (v : Node ν) : Reordered v v.sorted := by
  induction v using induct with
  | array items ih =>
    rw [sorted_array]
    exact reordered_items [] items ih
  | object members ih =>
    rw [sorted_object]
    exact .trans (reordered_members [] members ih) (.members (List.perm_insertionSort ..).symm)
  | _ => exact .refl _

end Node

end Lib.Json
