import Mathlib.Data.List.TakeWhile
import Mathlib.Data.Nat.Digits.Lemmas
import FabricReconciliation.Lib.Codec

/-!
# JSON texts

Values with the numbers left open, and the texts that denote them: the grammar of RFC 8259 over bytes, in
which a byte from 0x80 on stands for itself inside a string. What a number denotes is a parameter.

* **`Denotes`** — a text, without the blanks around it, denotes a value;
* **`Within`** — no object has a key twice, and no string, array or object is over its bound.
-/

namespace Lib.Json

/-- A value, with numbers of some type. -/
inductive Node (ν : Type)
  | null
  | boolean (b : Bool)
  | number (n : ν)
  | text (t : Bytes)
  | array (items : List (Node ν))
  | object (members : List (Bytes × Node ν))

/-- What to make of a value, case by case. -/
structure Algebra (ν β : Type) where
  null : β
  boolean : Bool → β
  number : ν → β
  text : Bytes → β
  array : List β → β
  object : List (Bytes × β) → β

namespace Node

variable {ν μ β : Type}

@[elab_as_elim]
theorem induct {motive : Node ν → Prop} (null : motive .null) (boolean : ∀ b, motive (.boolean b))
    (number : ∀ n, motive (.number n)) (text : ∀ t, motive (.text t))
    (array : ∀ items, (∀ v ∈ items, motive v) → motive (.array items))
    (object : ∀ members : List (Bytes × Node ν), (∀ m ∈ members, motive m.2) → motive (.object members))
    (v : Node ν) : motive v := by
  refine @Node.rec ν motive (fun items => ∀ v ∈ items, motive v) (fun members => ∀ m ∈ members, motive m.2)
    (fun m => motive m.2) null boolean number text array object (by simp) ?_ (by simp) ?_ (fun _ _ h => h) v
  · intro v items hv hitems
    exact List.forall_mem_cons.mpr ⟨hv, hitems⟩
  · intro m members hm hmembers
    exact List.forall_mem_cons.mpr ⟨hm, hmembers⟩

mutual

/-- The value under an algebra. -/
def fold (a : Algebra ν β) : Node ν → β
  | .null => a.null
  | .boolean b => a.boolean b
  | .number n => a.number n
  | .text t => a.text t
  | .array items => a.array (foldItems a items)
  | .object members => a.object (foldMembers a members)

def foldItems (a : Algebra ν β) : List (Node ν) → List β
  | [] => []
  | v :: rest => v.fold a :: foldItems a rest

def foldMembers (a : Algebra ν β) : List (Bytes × Node ν) → List (Bytes × β)
  | [] => []
  | (key, v) :: rest => (key, v.fold a) :: foldMembers a rest

end

theorem foldItems_eq (a : Algebra ν β) (items : List (Node ν)) : foldItems a items = items.map (fold a) := by
  induction items with
  | nil => rfl
  | cons v rest ih => rw [foldItems, ih, List.map_cons]

theorem foldMembers_eq (a : Algebra ν β) (members : List (Bytes × Node ν)) :
    foldMembers a members = members.map fun m => (m.1, m.2.fold a) := by
  induction members with
  | nil => rfl
  | cons m rest ih => rw [foldMembers, ih, List.map_cons]

theorem fold_array (a : Algebra ν β) (items : List (Node ν)) :
    (array items).fold a = a.array (items.map (fold a)) := by rw [fold, foldItems_eq]

theorem fold_object (a : Algebra ν β) (members : List (Bytes × Node ν)) :
    (object members).fold a = a.object (members.map fun m => (m.1, m.2.fold a)) := by rw [fold, foldMembers_eq]

/-- How many values a value is made of. -/
def count : Node ν → Nat := fold {
  null := 1, boolean := fun _ => 1, number := fun _ => 1, text := fun _ => 1
  array := fun counts => 1 + counts.sum
  object := fun counts => 1 + (counts.map Prod.snd).sum }

/-- How deep its values are nested; a value by itself has depth zero. -/
def depth : Node ν → Nat := fold {
  null := 0, boolean := fun _ => 0, number := fun _ => 0, text := fun _ => 0
  array := fun depths => (depths.map (· + 1)).foldr max 0
  object := fun depths => (depths.map (·.2 + 1)).foldr max 0 }

/-- The numbers replaced. -/
def map (f : ν → μ) : Node ν → Node μ := fold {
  null := .null, boolean := .boolean, number := fun n => .number (f n), text := .text
  array := .array
  object := .object }

@[simp] theorem count_array (items : List (Node ν)) : (array items).count = 1 + (items.map count).sum :=
  fold_array _ _

@[simp] theorem count_object (members : List (Bytes × Node ν)) :
    (object members).count = 1 + (members.map fun m => m.2.count).sum := by
  rw [count, fold_object]
  simp [Function.comp_def]

theorem count_pos (v : Node ν) : 0 < v.count := by
  cases v with
  | array items => rw [count_array]; omega
  | object members => rw [count_object]; omega
  | _ => exact Nat.one_pos

theorem foldr_max_le {l : List Nat} {n : Nat} : l.foldr max 0 ≤ n ↔ ∀ k ∈ l, k ≤ n := by
  induction l with
  | nil => simp
  | cons k l ih => simp [ih]

theorem depth_array_le {items : List (Node ν)} {n : Nat} : (array items).depth ≤ n ↔ ∀ v ∈ items, v.depth < n := by
  rw [depth, fold_array, ← depth, foldr_max_le]
  simp only [List.forall_mem_map]
  exact Iff.rfl

theorem depth_object_le {members : List (Bytes × Node ν)} {n : Nat} :
    (object members).depth ≤ n ↔ ∀ m ∈ members, m.2.depth < n := by
  rw [depth, fold_object, ← depth, foldr_max_le]
  simp only [List.forall_mem_map]
  exact Iff.rfl

@[simp] theorem map_array (f : ν → μ) (items : List (Node ν)) : (array items).map f = .array (items.map (map f)) :=
  fold_array _ _

@[simp] theorem map_object (f : ν → μ) (members : List (Bytes × Node ν)) :
    (object members).map f = .object (members.map fun m => (m.1, m.2.map f)) := fold_object _ _

end Node

/-! ## Grammar -/

def isWhitespace (b : UInt8) : Bool := b == 0x20 || b == 0x09 || b == 0x0d || b == 0x0a

def Whitespace (bytes : Bytes) : Prop := ∀ b ∈ bytes, isWhitespace b = true

def isDigit (b : UInt8) : Bool := 0x30 ≤ b && b ≤ 0x39

def Digits (bytes : Bytes) : Prop := bytes ≠ [] ∧ ∀ b ∈ bytes, isDigit b = true

theorem Digits.head_append {digits : Bytes} (h : Digits digits) (rest : Bytes) :
    (digits ++ rest).head?.any isDigit = true := by
  obtain ⟨d, tail, rfl⟩ := List.exists_cons_of_ne_nil h.1
  simpa using h.2 d (List.mem_cons_self ..)

theorem digits_takeWhile {rest : Bytes} (h : rest.head?.any isDigit = true) : Digits (rest.takeWhile isDigit) := by
  cases rest with
  | nil => simp at h
  | cons d tail =>
    have hd : isDigit d = true := by simpa using h
    refine ⟨by rw [List.takeWhile_cons_of_pos hd]; simp, fun b hb => ?_⟩
    exact List.mem_takeWhile_imp hb

/-- Digits in front of what is no digit are what a scan over digits takes. -/
theorem scan_digits {digits rest : Bytes} (h : ∀ b ∈ digits, isDigit b = true)
    (hrest : ∀ b, rest.head? = some b → isDigit b = false) :
    (digits ++ rest).takeWhile isDigit = digits ∧ (digits ++ rest).dropWhile isDigit = rest := by
  have hnone : rest.takeWhile isDigit = [] ∧ rest.dropWhile isDigit = rest := by
    cases rest with
    | nil => exact ⟨rfl, rfl⟩
    | cons b tail =>
      have hb := hrest b rfl
      exact ⟨List.takeWhile_cons_of_neg (by simp [hb]), List.dropWhile_cons_of_neg (by simp [hb])⟩
  rw [List.takeWhile_append_of_pos h, List.dropWhile_append_of_pos h, hnone.1, hnone.2, List.append_nil]
  exact ⟨rfl, rfl⟩

/-- The parts of a number: `fraction` with its point and `exponent` with its letter, or empty. -/
structure Numeral where
  negative : Bool
  whole : Bytes
  fraction : Bytes := []
  exponent : Bytes := []

namespace Numeral

def text (n : Numeral) : Bytes := (if n.negative then [0x2d] else []) ++ (n.whole ++ (n.fraction ++ n.exponent))

/-- `number` of the grammar: no leading zero, and digits behind a point and behind an exponent's letter. -/
structure Valid (n : Numeral) : Prop where
  whole : n.whole = [0x30] ∨ Digits n.whole ∧ n.whole.head? ≠ some 0x30
  fraction : n.fraction = [] ∨ ∃ digits, n.fraction = 0x2e :: digits ∧ Digits digits
  exponent : n.exponent = [] ∨ ∃ letter sign digits, n.exponent = letter :: (sign ++ digits) ∧
    (letter = 0x65 ∨ letter = 0x45) ∧ (sign = [] ∨ sign = [0x2b] ∨ sign = [0x2d]) ∧ Digits digits

/-- A literal without fraction and exponent. -/
def isInteger (n : Numeral) : Bool := n.fraction.isEmpty && n.exponent.isEmpty

end Numeral

theorem not_whitespace_of_isDigit {b : UInt8} (h : isDigit b = true) : isWhitespace b = false := by
  rw [Bool.eq_false_iff]
  intro hblank
  simp only [isWhitespace, Bool.or_eq_true, beq_iff_eq] at hblank
  rcases hblank with ((rfl | rfl) | rfl) | rfl
  all_goals exact absurd h (by decide)

/-- A number begins with its sign or with a digit. -/
theorem Numeral.Valid.head {n : Numeral} (h : n.Valid) :
    ∃ b tail, n.text = b :: tail ∧ (b = 0x2d ∨ isDigit b = true) := by
  cases hsign : n.negative with
  | true => exact ⟨0x2d, n.whole ++ (n.fraction ++ n.exponent), by simp [Numeral.text, hsign], .inl rfl⟩
  | false =>
    obtain ⟨d, tail, hwhole, hd⟩ : ∃ d tail, n.whole = d :: tail ∧ isDigit d = true := by
      rcases h.whole with hzero | ⟨hdigits, -⟩
      · exact ⟨0x30, [], hzero, by decide⟩
      · obtain ⟨d, tail, heq⟩ := List.exists_cons_of_ne_nil hdigits.1
        exact ⟨d, tail, heq, hdigits.2 d (by rw [heq]; exact List.mem_cons_self ..)⟩
    exact ⟨d, tail ++ (n.fraction ++ n.exponent), by simp [Numeral.text, hsign, hwhole], .inr hd⟩

/-- The number that digits are. -/
def natOf (digits : Bytes) : Nat := digits.foldl (fun n d => 10 * n + (d.toNat - 0x30)) 0

/-- The integer that a literal without fraction and exponent is. -/
def Numeral.int (n : Numeral) : Int := if n.negative then -(natOf n.whole : Int) else natOf n.whole

/-- What stands for itself behind a backslash, or for a control character. -/
def escaped (b : UInt8) : Option UInt8 :=
  if b = 0x22 ∨ b = 0x5c ∨ b = 0x2f then some b
  else if b = 0x62 then some 0x08
  else if b = 0x66 then some 0x0c
  else if b = 0x6e then some 0x0a
  else if b = 0x72 then some 0x0d
  else if b = 0x74 then some 0x09
  else none

def hexValue (b : UInt8) : Option Nat :=
  if 0x30 ≤ b ∧ b ≤ 0x39 then some (b.toNat - 0x30)
  else if 0x61 ≤ b ∧ b ≤ 0x66 then some (b.toNat - 0x61 + 10)
  else if 0x41 ≤ b ∧ b ≤ 0x46 then some (b.toNat - 0x41 + 10)
  else none

def hex4 (a b c d : UInt8) : Option Nat := do
  return ((16 * (← hexValue a) + (← hexValue b)) * 16 + (← hexValue c)) * 16 + (← hexValue d)

/-- The UTF-8 encoding of a code point. -/
def utf8 (codePoint : Nat) : Bytes :=
  if codePoint ≤ 0x7f then [UInt8.ofNat codePoint]
  else if codePoint ≤ 0x7ff then [UInt8.ofNat (0xc0 + codePoint / 64), UInt8.ofNat (0x80 + codePoint % 64)]
  else if codePoint ≤ 0xffff then
    [UInt8.ofNat (0xe0 + codePoint / 4096), UInt8.ofNat (0x80 + codePoint / 64 % 64),
      UInt8.ofNat (0x80 + codePoint % 64)]
  else [UInt8.ofNat (0xf0 + codePoint / 262144), UInt8.ofNat (0x80 + codePoint / 4096 % 64),
    UInt8.ofNat (0x80 + codePoint / 64 % 64), UInt8.ofNat (0x80 + codePoint % 64)]

def highSurrogate (codePoint : Nat) : Prop := 0xd800 ≤ codePoint ∧ codePoint ≤ 0xdbff
def lowSurrogate (codePoint : Nat) : Prop := 0xdc00 ≤ codePoint ∧ codePoint ≤ 0xdfff

instance (n : Nat) : Decidable (highSurrogate n) := inferInstanceAs (Decidable (_ ∧ _))
instance (n : Nat) : Decidable (lowSurrogate n) := inferInstanceAs (Decidable (_ ∧ _))

/-- One character of a string, and the bytes it stands for. -/
inductive Character : Bytes → Bytes → Prop
  | plain {b : UInt8} (hcontrol : ¬ b < 0x20) (hquote : b ≠ 0x22) (hbackslash : b ≠ 0x5c) : Character [b] [b]
  | escape {b c : UInt8} (h : escaped b = some c) : Character [0x5c, b] [c]
  | unicode {a b c d : UInt8} {n : Nat} (h : hex4 a b c d = some n) (hhigh : ¬ highSurrogate n)
      (hlow : ¬ lowSurrogate n) : Character [0x5c, 0x75, a, b, c, d] (utf8 n)
  | pair {a b c d a' b' c' d' : UInt8} {n n' : Nat} (h : hex4 a b c d = some n) (hhigh : highSurrogate n)
      (h' : hex4 a' b' c' d' = some n') (hlow : lowSurrogate n') :
      Character [0x5c, 0x75, a, b, c, d, 0x5c, 0x75, a', b', c', d']
        (utf8 (0x10000 + (n - 0xd800) * 1024 + (n' - 0xdc00)))

/-- What stands between the quotes of a string, and the bytes of the string. -/
inductive Characters : Bytes → Bytes → Prop
  | nil : Characters [] []
  | cons {source denoted sources rest : Bytes} (h : Character source denoted) (hrest : Characters sources rest) :
      Characters (source ++ sources) (denoted ++ rest)

/-- Texts with commas between them. -/
def joined : List Bytes → Bytes
  | [] => []
  | [text] => text
  | text :: rest => text ++ 0x2c :: joined rest

theorem joined_cons (text : Bytes) {texts : List Bytes} (h : texts ≠ []) :
    joined (text :: texts) = text ++ 0x2c :: joined texts := by
  cases texts with
  | nil => exact absurd rfl h
  | cons next rest => rfl

theorem joined_prepend (blanks text : Bytes) (texts : List Bytes) :
    joined ((blanks ++ text) :: texts) = blanks ++ joined (text :: texts) := by
  cases texts with
  | nil => rfl
  | cons next rest =>
    rw [joined_cons (blanks ++ text) (by simp), joined_cons text (by simp), List.append_assoc]

theorem joined_head (b : UInt8) (text : Bytes) (texts : List Bytes) :
    joined ((b :: text) :: texts) = b :: joined (text :: texts) := joined_prepend [b] text texts

theorem length_joined (texts : List Bytes) : texts.length ≤ (joined texts).length + 1 := by
  induction texts with
  | nil => simp
  | cons text rest ih =>
    cases rest with
    | nil => simp
    | cons next rest =>
      rw [joined_cons text (by simp), List.length_append, List.length_cons, List.length_cons (a := 0x2c)]
      omega

/-- A value with the blanks around it. -/
structure Element (ν : Type) where
  before : Bytes
  source : Bytes
  value : Node ν
  after : Bytes

def Element.text {ν : Type} (e : Element ν) : Bytes := e.before ++ (e.source ++ e.after)

/-- A member of an object, with the blanks around its key. -/
structure Entry (ν : Type) where
  before : Bytes
  keySource : Bytes
  key : Bytes
  between : Bytes
  element : Element ν

def Entry.text {ν : Type} (e : Entry ν) : Bytes :=
  e.before ++ 0x22 :: (e.keySource ++ 0x22 :: (e.between ++ 0x3a :: e.element.text))

def Entry.member {ν : Type} (e : Entry ν) : Bytes × Node ν := (e.key, e.element.value)

def Element.Spaced {ν : Type} (e : Element ν) : Prop := Whitespace e.before ∧ Whitespace e.after
def Entry.Spaced {ν : Type} (e : Entry ν) : Prop := Whitespace e.before ∧ Whitespace e.between ∧ e.element.Spaced

variable {ν : Type}

/-- **`Denotes`**: a text, without the blanks around it, denotes a value. `meaning` says which numbers there are. -/
inductive Denotes (meaning : Numeral → Option ν) : Bytes → Node ν → Prop
  | null : Denotes meaning [0x6e, 0x75, 0x6c, 0x6c] .null
  | true : Denotes meaning [0x74, 0x72, 0x75, 0x65] (.boolean true)
  | false : Denotes meaning [0x66, 0x61, 0x6c, 0x73, 0x65] (.boolean false)
  | number {n : Numeral} {x : ν} (hvalid : n.Valid) (hmeaning : meaning n = some x) :
      Denotes meaning n.text (.number x)
  | text {source t : Bytes} (h : Characters source t) : Denotes meaning (0x22 :: (source ++ [0x22])) (.text t)
  | emptyArray {blanks : Bytes} (h : Whitespace blanks) : Denotes meaning (0x5b :: (blanks ++ [0x5d])) (.array [])
  | array {elements : List (Element ν)} (hsome : elements ≠ []) (hblanks : ∀ e ∈ elements, e.Spaced)
      (h : ∀ e ∈ elements, Denotes meaning e.source e.value) :
      Denotes meaning (0x5b :: (joined (elements.map Element.text) ++ [0x5d])) (.array (elements.map Element.value))
  | emptyObject {blanks : Bytes} (h : Whitespace blanks) : Denotes meaning (0x7b :: (blanks ++ [0x7d])) (.object [])
  | object {entries : List (Entry ν)} (hsome : entries ≠ []) (hblanks : ∀ e ∈ entries, e.Spaced)
      (hkeys : ∀ e ∈ entries, Characters e.keySource e.key)
      (h : ∀ e ∈ entries, Denotes meaning e.element.source e.element.value) :
      Denotes meaning (0x7b :: (joined (entries.map Entry.text) ++ [0x7d])) (.object (entries.map Entry.member))

/-! ## Bounds -/

/-- How long strings, arrays and objects may be. -/
structure Bounds where
  string : Nat
  array : Nat
  object : Nat

/-- **`Within`**: no object has a key twice, and nothing is over its bound. -/
inductive Within (bounds : Bounds) : Node ν → Prop
  | null : Within bounds .null
  | boolean (b : Bool) : Within bounds (.boolean b)
  | number (n : ν) : Within bounds (.number n)
  | text {t : Bytes} (h : t.length ≤ bounds.string) : Within bounds (.text t)
  | array {items : List (Node ν)} (hlength : items.length ≤ bounds.array) (h : ∀ v ∈ items, Within bounds v) :
      Within bounds (.array items)
  | object {members : List (Bytes × Node ν)} (hlength : members.length ≤ bounds.object)
      (hdistinct : (members.map Prod.fst).Nodup) (hkeys : ∀ m ∈ members, m.1.length ≤ bounds.string)
      (h : ∀ m ∈ members, Within bounds m.2) : Within bounds (.object members)

end Lib.Json
