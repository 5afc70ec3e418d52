import Mathlib.Algebra.Order.Ring.Nat
import Mathlib.Data.List.Basic

/-!
# Byte codecs: bounded writers, sticky readers

A **writer** with a hard size ceiling is modelled by the list of the writes an encoder
asks for (its `Script`) and by `fill`, which performs them until one does not fit; from
that point on nothing is appended and the writer reports failure. An encoder is then a
plain function to scripts, and scripts compose by `++`.

A **reader** consumes a prefix of its input or fails for good.

* **`fill_eq`** — a script that fits is written in full, in order;
* **`fill_ok`** — a writer that reports success has written its whole script;
* **`Reads`** — `Reads r bs o`: on any input starting with `bs`, the reader `r` consumes
  exactly `bs` and yields `o`, or fails when `o` is `none`. `Reads.bind` is the
  sequencing rule that round-trip proofs are built from.
-/

namespace Lib

abbrev Bytes := List UInt8

/-! ## Little-endian numbers -/

/-- The `n` low bytes of `v`, least significant first. -/
def leBytes : Nat → Nat → Bytes
  | 0, _ => []
  | n + 1, v => UInt8.ofNat (v % 256) :: leBytes n (v / 256)

def leValue : Bytes → Nat
  | [] => 0
  | b :: bs => b.toNat + 256 * leValue bs

@[simp] theorem length_leBytes : ∀ (n v : Nat), (leBytes n v).length = n
  | 0, _ => rfl
  | n + 1, v => by simp [leBytes, length_leBytes n]

theorem toNat_ofNat_mod (v : Nat) : (UInt8.ofNat (v % 256)).toNat = v % 256 := by
  simp [UInt8.toNat_ofNat']

theorem leValue_leBytes : ∀ (n v : Nat), v < 256 ^ n → leValue (leBytes n v) = v
  | 0, v, h => by simp at h; simp [leBytes, leValue, h]
  | n + 1, v, h => by
    have hdiv : v / 256 < 256 ^ n := by
      rw [Nat.pow_succ] at h
      omega
    simp only [leBytes, leValue, leValue_leBytes n (v / 256) hdiv, toNat_ofNat_mod]
    omega

theorem leValue_lt : ∀ (bs : Bytes), leValue bs < 256 ^ bs.length
  | [] => by simp [leValue]
  | b :: bs => by
    have hb := b.toNat_lt
    have := leValue_lt bs
    simp only [leValue, List.length_cons, Nat.pow_succ]
    omega

theorem leBytes_leValue : ∀ (bs : Bytes), leBytes bs.length (leValue bs) = bs
  | [] => rfl
  | b :: bs => by
    have hb := b.toNat_lt
    have h1 : (b.toNat + 256 * leValue bs) % 256 = b.toNat := by omega
    have h2 : (b.toNat + 256 * leValue bs) / 256 = leValue bs := by omega
    simp only [List.length_cons, leBytes, leValue, h1, h2, leBytes_leValue bs]
    simp

/-! ## Fixed offsets -/

/-- The `n` bytes at an offset. -/
def slice (offset n : Nat) (bs : Bytes) : Bytes := (bs.drop offset).take n

/-- The little-endian number of `n` bytes at an offset. -/
def load (n offset : Nat) (bs : Bytes) : Nat := leValue (slice offset n bs)

theorem slice_skip {offset n k : Nat} {a b : Bytes} (ha : a.length = k) (hk : k ≤ offset) :
    slice offset n (a ++ b) = slice (offset - k) n b := by
  subst ha
  unfold slice
  rw [List.drop_append, List.drop_of_length_le hk, List.nil_append]

theorem slice_here {n : Nat} {a b : Bytes} (ha : a.length = n) : slice 0 n (a ++ b) = a := by
  subst ha
  simp [slice]

theorem load_here {n v : Nat} {b : Bytes} (hv : v < 256 ^ n) : load n 0 (leBytes n v ++ b) = v := by
  rw [load, slice_here (length_leBytes n v), leValue_leBytes n v hv]

theorem load_skip {offset n k : Nat} {a b : Bytes} (ha : a.length = k) (hk : k ≤ offset) :
    load n offset (a ++ b) = load n (offset - k) b := by rw [load, slice_skip ha hk, load]

/-- What follows the first `offset` bytes does not change a slice inside them. -/
theorem slice_append {offset n : Nat} {a b : Bytes} (h : offset + n ≤ a.length) :
    slice offset n (a ++ b) = slice offset n a := by
  unfold slice
  rw [List.drop_append_of_le_length (by omega), List.take_append_of_le_length (by simp; omega)]

/-- The bytes behind a loaded number. -/
theorem slice_eq_leBytes {n offset v : Nat} {bs : Bytes} (h : load n offset bs = v)
    (hlen : offset + n ≤ bs.length) : slice offset n bs = leBytes n v := by
  have hsize : (slice offset n bs).length = n := by
    simp only [slice, List.length_take, List.length_drop]
    omega
  have hbytes := leBytes_leValue (slice offset n bs)
  rw [hsize] at hbytes
  rw [← h]
  exact hbytes.symm

theorem take_slice (offset n : Nat) (bs : Bytes) : bs.take (offset + n) = bs.take offset ++ slice offset n bs :=
  List.take_add

/-! ## Byte strings of a fixed length -/

/-- A byte array of `n` elements. -/
structure FixedBytes (n : Nat) where
  bytes : Bytes
  length_eq : bytes.length = n
deriving DecidableEq

namespace FixedBytes

variable {n : Nat}

@[ext] theorem ext {a b : FixedBytes n} (h : a.bytes = b.bytes) : a = b := by
  cases a; cases b; simp_all

def zero : FixedBytes n := ⟨List.replicate n 0, by simp⟩

instance : Inhabited (FixedBytes n) := ⟨zero⟩

/-- The first `n` bytes of `bs`, zero-filled when there are fewer. -/
def ofBytes (n : Nat) (bs : Bytes) : FixedBytes n :=
  ⟨(bs ++ List.replicate n 0).take n, by simp⟩

theorem ofBytes_bytes (a : FixedBytes n) : ofBytes n a.bytes = a := by
  ext1
  simp only [ofBytes]
  rw [List.take_append_of_le_length (by simp [a.length_eq])]
  exact List.take_of_length_le (by simp [a.length_eq])

theorem bytes_ofBytes {bs : Bytes} (h : bs.length = n) : (ofBytes n bs).bytes = bs := by
  simp only [ofBytes]
  rw [List.take_append_of_le_length (by simp [h])]
  exact List.take_of_length_le (by simp [h])

end FixedBytes

/-! ## Writers with a ceiling -/

/-- One request to a writer: append a chunk, or enter the failed state. -/
inductive Write
  | push (chunk : Bytes)
  | fail

abbrev Script := List Write

/-- Performs a script with `room` bytes left: what ends up appended, and whether every write
succeeded. Failure is sticky. -/
def fill : Nat → Script → Bytes × Bool
  | _, [] => ([], true)
  | _, .fail :: _ => ([], false)
  | room, .push chunk :: rest =>
    if chunk.length ≤ room then
      let r := fill (room - chunk.length) rest
      (chunk ++ r.1, r.2)
    else ([], false)

/-- Everything the script asks to append. -/
def Script.image : Script → Bytes
  | [] => []
  | .push chunk :: rest => chunk ++ Script.image rest
  | .fail :: rest => Script.image rest

/-- The script never asks for failure. -/
def Script.Total (sc : Script) : Prop := Write.fail ∉ sc

@[simp] theorem Script.image_nil : Script.image [] = [] := rfl

@[simp] theorem Script.image_push (c : Bytes) (sc : Script) :
    Script.image (.push c :: sc) = c ++ Script.image sc := rfl

@[simp] theorem Script.image_append : ∀ (s t : Script),
    Script.image (s ++ t) = Script.image s ++ Script.image t
  | [], t => rfl
  | .push c :: s, t => by simp [Script.image, Script.image_append s t]
  | .fail :: s, t => by simp [Script.image, Script.image_append s t]

@[simp] theorem Script.total_nil : Script.Total [] := by simp [Script.Total]

@[simp] theorem Script.total_push (c : Bytes) (sc : Script) :
    Script.Total (.push c :: sc) ↔ Script.Total sc := by simp [Script.Total]

@[simp] theorem Script.not_total_fail (sc : Script) : ¬ Script.Total (.fail :: sc) := by
  simp [Script.Total]

@[simp] theorem Script.total_append (s t : Script) :
    Script.Total (s ++ t) ↔ Script.Total s ∧ Script.Total t := by
  simp [Script.Total, not_or]

instance (sc : Script) : Decidable (Script.Total sc) :=
  decidable_of_iff (sc.all (fun w => match w with | .push _ => true | .fail => false) = true) (by
    simp only [Script.Total, List.all_eq_true]
    constructor
    · intro h hm
      simpa using h _ hm
    · intro h w hw
      cases w with
      | push c => rfl
      | fail => exact absurd hw h)

/-- **`fill_eq`**: a script that fits is written in full. -/
theorem fill_eq : ∀ {sc : Script} {room : Nat}, sc.Total → sc.image.length ≤ room →
    fill room sc = (sc.image, true)
  | [], _, _, _ => rfl
  | .push c :: rest, room, ht, hl => by
    simp only [Script.image_push, List.length_append] at hl
    have hc : c.length ≤ room := by omega
    have hr : fill (room - c.length) rest = (Script.image rest, true) :=
      fill_eq ((Script.total_push c rest).mp ht) (by omega)
    simp [fill, hc, hr]
  | .fail :: rest, _, ht, _ => absurd ht (Script.not_total_fail rest)

/-- **`fill_ok`**: reported success means the whole script was written. -/
theorem fill_ok : ∀ {sc : Script} {room : Nat}, (fill room sc).2 = true →
    sc.Total ∧ sc.image.length ≤ room ∧ (fill room sc).1 = sc.image
  | [], room, _ => by simp [fill]
  | .push c :: rest, room, h => by
    unfold fill at h ⊢
    split at h
    · rename_i hc
      obtain ⟨ht, hl, hi⟩ := fill_ok h
      refine ⟨by simpa using ht, ?_, ?_⟩
      · simp only [Script.image_push, List.length_append]
        omega
      · simp [hc, hi]
    · simp at h
  | .fail :: rest, room, h => by simp [fill] at h

theorem fill_length_le : ∀ (sc : Script) (room : Nat), (fill room sc).1.length ≤ room
  | [], room => by simp [fill]
  | .fail :: rest, room => by simp [fill]
  | .push c :: rest, room => by
    unfold fill
    split
    · have := fill_length_le rest (room - c.length)
      simp only [List.length_append]
      omega
    · simp

/-- The buffer when the writer is still good, nothing otherwise. -/
def finish (room : Nat) (sc : Script) : Bytes :=
  if (fill room sc).2 then (fill room sc).1 else []

theorem finish_eq (room : Nat) (sc : Script) :
    finish room sc = if sc.Total ∧ sc.image.length ≤ room then sc.image else [] := by
  unfold finish
  split
  · rename_i h
    obtain ⟨ht, hl, hi⟩ := fill_ok h
    rw [if_pos ⟨ht, hl⟩, hi]
  · rename_i h
    rw [if_neg]
    rintro ⟨ht, hl⟩
    rw [fill_eq ht hl] at h
    exact h rfl

theorem finish_of_fits {room : Nat} {sc : Script} (ht : sc.Total) (hl : sc.image.length ≤ room) :
    finish room sc = sc.image := by rw [finish_eq, if_pos ⟨ht, hl⟩]

/-- A non-empty result is the whole image. -/
theorem finish_ne_nil {room : Nat} {sc : Script} (h : finish room sc ≠ []) :
    sc.Total ∧ sc.image.length ≤ room ∧ finish room sc = sc.image := by
  rw [finish_eq] at h ⊢
  split at h
  · rename_i hf
    exact ⟨hf.1, hf.2, if_pos hf⟩
  · exact absurd rfl h

/-! ### Primitive writes -/

def putByte (b : UInt8) : Script := [.push [b]]

/-- `n` bytes, least significant first, each its own write. -/
def putLE (n v : Nat) : Script := (leBytes n v).map (fun b => .push [b])

/-- Raw bytes in one write. -/
def putRaw (bs : Bytes) : Script := [.push bs]

/-- Length-prefixed bytes; a length that does not fit 32 bits is refused outright. -/
def putBytes (bs : Bytes) : Script :=
  if 0xffffffff < bs.length then [.fail] else putLE 4 bs.length ++ putRaw bs

/-- What `putBytes` writes. -/
def prefixed (bs : Bytes) : Bytes := leBytes 4 bs.length ++ bs

theorem image_map_push : ∀ (bs : Bytes), Script.image (bs.map (fun b => .push [b])) = bs
  | [] => rfl
  | b :: bs => by simp [image_map_push bs]

theorem total_map_push (bs : Bytes) : Script.Total (bs.map (fun b => .push [b])) := by
  simp [Script.Total]

@[simp] theorem image_putByte (b : UInt8) : (putByte b).image = [b] := rfl
@[simp] theorem total_putByte (b : UInt8) : (putByte b).Total := by simp [putByte]
@[simp] theorem image_putLE (n v : Nat) : (putLE n v).image = leBytes n v := image_map_push _
@[simp] theorem total_putLE (n v : Nat) : (putLE n v).Total := total_map_push _
@[simp] theorem image_putRaw (bs : Bytes) : (putRaw bs).image = bs := by simp [putRaw]
@[simp] theorem total_putRaw (bs : Bytes) : (putRaw bs).Total := by simp [putRaw]

theorem total_putBytes (bs : Bytes) : (putBytes bs).Total ↔ bs.length < 2 ^ 32 := by
  unfold putBytes
  split
  · simp only [Script.not_total_fail, false_iff]
    omega
  · simp only [Script.total_append, total_putLE, total_putRaw, and_self, true_iff]
    omega

theorem image_putBytes {bs : Bytes} (h : bs.length < 2 ^ 32) : (putBytes bs).image = prefixed bs := by
  unfold putBytes
  rw [if_neg (by omega)]
  simp [prefixed]

@[simp] theorem length_prefixed (bs : Bytes) : (prefixed bs).length = 4 + bs.length := by
  simp [prefixed]

/-- The writes of a list of items, in order. -/
def putEach {α : Type} (f : α → Script) (l : List α) : Script := l.flatMap f

section PutEach
variable {α : Type} {f : α → Script}

@[simp] theorem putEach_nil : putEach f [] = [] := rfl

@[simp] theorem putEach_cons (a : α) (l : List α) : putEach f (a :: l) = f a ++ putEach f l := rfl

theorem total_putEach : ∀ {l : List α}, (putEach f l).Total ↔ ∀ a ∈ l, (f a).Total
  | [] => by simp
  | a :: l => by simp [total_putEach]

theorem image_putEach : ∀ (l : List α), (putEach f l).image = l.flatMap (fun a => (f a).image)
  | [] => rfl
  | a :: l => by simp [image_putEach l]

/-- Every item takes at least one byte, so a list is no longer than its image. -/
theorem length_le_image_putEach (h : ∀ a, 1 ≤ (f a).image.length) :
    ∀ (l : List α), l.length ≤ (putEach f l).image.length
  | [] => by simp
  | a :: l => by
    have := length_le_image_putEach h l
    have := h a
    simp only [putEach_cons, Script.image_append, List.length_cons, List.length_append]
    omega

/-- An item's image is part of the list's. -/
theorem image_le_putEach {a : α} : ∀ {l : List α}, a ∈ l →
    (f a).image.length ≤ (putEach f l).image.length
  | [], h => by simp at h
  | b :: l, h => by
    simp only [putEach_cons, Script.image_append, List.length_append]
    rcases List.mem_cons.mp h with rfl | h
    · omega
    · have := image_le_putEach h
      omega

end PutEach

/-! ## Readers -/

/-- A reader takes what it needs off the front of its input, or fails. -/
abbrev Reader (α : Type) := Bytes → Option (α × Bytes)

namespace Reader

variable {α β σ : Type}

def pure (a : α) : Reader α := fun bs => some (a, bs)

def bind (r : Reader α) (f : α → Reader β) : Reader β := fun bs =>
  match r bs with
  | none => none
  | some (a, rest) => f a rest

def fail : Reader α := fun _ => none

instance : Monad Reader where
  pure := pure
  bind := bind

/-- Fails unless the check holds. -/
def require (b : Bool) : Reader Unit := if b then pure () else fail

/-- Continues with a validated value. -/
def ofOption : Option α → Reader α
  | some a => pure a
  | none => fail

def byte : Reader UInt8
  | [] => none
  | b :: rest => some (b, rest)

def le : Nat → Reader Nat
  | 0 => pure 0
  | n + 1 => bind byte fun b => bind (le n) fun hi => pure (b.toNat + 256 * hi)

/-- Exactly `n` raw bytes. -/
def raw : Nat → Reader Bytes
  | 0 => pure []
  | n + 1 => bind byte fun b => bind (raw n) fun bs => pure (b :: bs)

/-- Length-prefixed bytes, at most `cap` of them. -/
def bytes (cap : Nat) : Reader Bytes :=
  bind (le 4) fun n => bind (require (decide (n ≤ cap))) fun _ => raw n

/-- Runs a loop body `n` times over an accumulator. -/
def loop (n : Nat) (body : σ → Reader σ) (s : σ) : Reader σ :=
  match n with
  | 0 => pure s
  | n + 1 => bind (body s) fun s' => loop n body s'

/-- Runs the reader on the whole input and requires that nothing is left over. -/
def exactly (r : Reader α) (bs : Bytes) : Option α :=
  match r bs with
  | some (a, []) => some a
  | _ => none

@[simp] theorem pure_eq (a : α) : (Pure.pure a : Reader α) = pure a := rfl
@[simp] theorem bind_eq (r : Reader α) (f : α → Reader β) : (r >>= f) = bind r f := rfl

/-- Peels one read off a successful run. -/
theorem bind_eq_some {r : Reader α} {f : α → Reader β} {bs rest : Bytes} {b : β} :
    bind r f bs = some (b, rest) ↔ ∃ a mid, r bs = some (a, mid) ∧ f a mid = some (b, rest) := by
  unfold bind
  cases h : r bs with
  | none => simp
  | some p => obtain ⟨a, mid⟩ := p; simp

theorem require_eq_some {b : Bool} {bs rest : Bytes} {u : Unit} :
    require b bs = some (u, rest) ↔ b = true ∧ bs = rest := by
  unfold require
  cases b <;> simp [pure, fail]

theorem ofOption_eq_some {o : Option α} {bs rest : Bytes} {a : α} :
    ofOption o bs = some (a, rest) ↔ o = some a ∧ bs = rest := by
  cases o <;> simp [ofOption, pure, fail]

theorem pure_eq_some {a b : α} {bs rest : Bytes} :
    pure a bs = some (b, rest) ↔ a = b ∧ bs = rest := by simp [pure]

theorem exactly_eq_some {r : Reader α} {bs : Bytes} {a : α} :
    exactly r bs = some a ↔ r bs = some (a, []) := by
  unfold exactly
  split
  · rename_i h
    rw [h]
    simp
  · rename_i h
    constructor
    · intro he
      cases he
    · intro he
      exact absurd he (h a)

/-- An invariant of a loop body holds of every completed loop. -/
theorem loop_invariant {P : σ → Prop} {body : σ → Reader σ}
    (hstep : ∀ s bs s' rest, P s → body s bs = some (s', rest) → P s') :
    ∀ (n : Nat) (s : σ) (bs : Bytes) (s' : σ) (rest : Bytes), P s →
      loop n body s bs = some (s', rest) → P s'
  | 0, s, bs, s', rest, hp, h => by
    obtain ⟨rfl, -⟩ := pure_eq_some.mp h
    exact hp
  | n + 1, s, bs, s', rest, hp, h => by
    obtain ⟨t, mid, hb, hl⟩ := bind_eq_some.mp h
    exact loop_invariant hstep n t mid s' rest (hstep s bs t mid hp hb) hl

/-- A measure that grows by one each round counts the rounds. -/
theorem loop_count {m : σ → Nat} {body : σ → Reader σ}
    (hstep : ∀ s bs s' rest, body s bs = some (s', rest) → m s' = m s + 1) :
    ∀ (n : Nat) (s : σ) (bs : Bytes) (s' : σ) (rest : Bytes),
      loop n body s bs = some (s', rest) → m s' = m s + n
  | 0, s, bs, s', rest, h => by
    obtain ⟨rfl, -⟩ := pure_eq_some.mp h
    rfl
  | n + 1, s, bs, s', rest, h => by
    obtain ⟨t, mid, hb, hl⟩ := bind_eq_some.mp h
    have h1 := loop_count hstep n t mid s' rest hl
    have h2 := hstep s bs t mid hb
    omega

end Reader

/-! ### The round-trip calculus -/

/-- On every input that starts with `bs`, `r` consumes exactly `bs` and yields `o`; with
`o = none` it fails there. -/
def Reads {α : Type} (r : Reader α) (bs : Bytes) (o : Option α) : Prop :=
  ∀ rest, r (bs ++ rest) = o.map (fun a => (a, rest))

namespace Reads

variable {α β σ : Type}

theorem pure (a : α) : Reads (Reader.pure a) [] (some a) := fun _ => rfl

theorem bind {r : Reader α} {f : α → Reader β} {bs cs : Bytes} {a : α} {o : Option β}
    (h₁ : Reads r bs (some a)) (h₂ : Reads (f a) cs o) : Reads (Reader.bind r f) (bs ++ cs) o := by
  intro rest
  simp only [Reader.bind, List.append_assoc, h₁ (cs ++ rest), Option.map_some]
  exact h₂ rest

theorem bind_none {r : Reader α} {f : α → Reader β} {bs cs : Bytes}
    (h : Reads r bs none) : Reads (Reader.bind r f) (bs ++ cs) none := by
  intro rest
  simp [Reader.bind, h (cs ++ rest)]

/-- A read that needs no input. -/
theorem bind_nil {r : Reader α} {f : α → Reader β} {cs : Bytes} {a : α} {o : Option β}
    (h₁ : Reads r [] (some a)) (h₂ : Reads (f a) cs o) : Reads (Reader.bind r f) cs o := by
  have h : Reads (Reader.bind r f) ([] ++ cs) o := Reads.bind h₁ h₂
  exact h

/-- The last read of a chain. -/
theorem bind_end {r : Reader α} {f : α → Reader β} {bs : Bytes} {a : α} {o : Option β}
    (h₁ : Reads r bs (some a)) (h₂ : Reads (f a) [] o) : Reads (Reader.bind r f) bs o := by
  have := Reads.bind h₁ h₂
  rwa [List.append_nil] at this

theorem of_eq {r : Reader α} {bs bs' : Bytes} {o o' : Option α} (h : Reads r bs o) (hb : bs = bs')
    (ho : o = o') : Reads r bs' o' := hb ▸ ho ▸ h

theorem require {f : Unit → Reader β} {b : Bool} {cs : Bytes} {o : Option β}
    (hb : b = true) (h : Reads (f ()) cs o) : Reads (Reader.bind (Reader.require b) f) cs o := by
  subst hb
  exact bind_nil (Reads.pure ()) h

theorem require_false {f : Unit → Reader β} {b : Bool} {cs : Bytes} (hb : b = false) :
    Reads (Reader.bind (Reader.require b) f) cs none := by
  subst hb
  intro rest
  rfl

theorem ofOption {f : α → Reader β} {x : Option α} {a : α} {cs : Bytes} {o : Option β}
    (hx : x = some a) (h : Reads (f a) cs o) :
    Reads (Reader.bind (Reader.ofOption x) f) cs o := by
  subst hx
  exact bind_nil (Reads.pure a) h

theorem ofOption_none {f : α → Reader β} {x : Option α} {cs : Bytes} (hx : x = none) :
    Reads (Reader.bind (Reader.ofOption x) f) cs none := by
  subst hx
  intro rest
  rfl

theorem byte (b : UInt8) : Reads Reader.byte [b] (some b) := fun _ => rfl

theorem le : ∀ {n v : Nat}, v < 256 ^ n → Reads (Reader.le n) (leBytes n v) (some v)
  | 0, v, h => by
    have hv : v = 0 := by simpa using h
    subst hv
    exact Reads.pure 0
  | n + 1, v, h => by
    have hdiv : v / 256 < 256 ^ n := by
      rw [Nat.pow_succ] at h
      omega
    have hsum : (UInt8.ofNat (v % 256)).toNat + 256 * (v / 256) = v := by
      rw [toNat_ofNat_mod]
      omega
    have := Reads.bind (f := fun b => Reader.bind (Reader.le n) fun hi =>
        Reader.pure (b.toNat + 256 * hi)) (Reads.byte (UInt8.ofNat (v % 256)))
      (Reads.bind_end (Reads.le hdiv) (Reads.pure _))
    rw [hsum] at this
    exact this

theorem raw : ∀ (bs : Bytes), Reads (Reader.raw bs.length) bs (some bs)
  | [] => Reads.pure []
  | b :: bs => by
    have h : Reads (Reader.raw (bs.length + 1)) ([b] ++ bs) (some (b :: bs)) :=
      Reads.bind (Reads.byte b) (Reads.bind_end (Reads.raw bs) (Reads.pure _))
    exact h

theorem bytes {cap : Nat} {bs : Bytes} (h : bs.length < 2 ^ 32) (hc : bs.length ≤ cap) :
    Reads (Reader.bytes cap) (prefixed bs) (some bs) :=
  Reads.bind (Reads.le (by omega)) (Reads.require (by simpa using hc) (Reads.raw bs))

/-- Reading back a list of items written one after the other: the loop folds `step` over
them. -/
theorem loop {body : σ → Reader σ} {enc : α → Bytes} {step : σ → α → σ} :
    ∀ (l : List α) (s : σ),
      (∀ (pre : List α) (a : α) (post : List α), l = pre ++ a :: post →
        Reads (body (pre.foldl step s)) (enc a) (some (step (pre.foldl step s) a))) →
      Reads (Reader.loop l.length body s) (l.flatMap enc) (some (l.foldl step s))
  | [], s, _ => Reads.pure s
  | a :: l, s, h => by
    have h0 := h [] a l rfl
    refine Reads.bind h0 (Reads.loop l (step s a) fun pre b post hl => ?_)
    exact h (a :: pre) b post (by simp [hl])

theorem exactly {r : Reader α} {bs : Bytes} {o : Option α} (h : Reads r bs o) :
    r.exactly bs = o := by
  have h0 := h []
  rw [List.append_nil] at h0
  unfold Reader.exactly
  rw [h0]
  cases o <;> rfl

end Reads

/-! ### Readers that never look back

A reader is stable if more input behind what it took changes nothing. A stable reader accepts no strict
initial part of what it reads back. -/

class Reader.Stable {α : Type} (r : Reader α) : Prop where
  grows : ∀ {bs : Bytes} {a : α} {rest : Bytes} (more : Bytes), r bs = some (a, rest) →
    r (bs ++ more) = some (a, rest ++ more)

namespace Reader

variable {α β σ : Type}

instance stable_pure (a : α) : Stable (pure a) where
  grows more h := by
    obtain ⟨rfl, rfl⟩ := pure_eq_some.mp h
    rfl

instance stable_fail : Stable (fail : Reader α) where
  grows more h := by simp [fail] at h

instance stable_bind (r : Reader α) (f : α → Reader β) [hr : Stable r] [hf : ∀ a, Stable (f a)] :
    Stable (bind r f) where
  grows more h := by
    obtain ⟨a, mid, hfirst, hrest⟩ := bind_eq_some.mp h
    exact bind_eq_some.mpr ⟨a, mid ++ more, hr.grows more hfirst, (hf a).grows more hrest⟩

instance stable_require (b : Bool) : Stable (require b) where
  grows more h := by
    obtain ⟨hb, rfl⟩ := require_eq_some.mp h
    exact require_eq_some.mpr ⟨hb, rfl⟩

instance stable_ofOption (o : Option α) : Stable (ofOption o) where
  grows more h := by
    obtain ⟨ho, rfl⟩ := ofOption_eq_some.mp h
    exact ofOption_eq_some.mpr ⟨ho, rfl⟩

instance stable_byte : Stable byte where
  grows {bs a rest} more h := by
    cases bs with
    | nil => simp [byte] at h
    | cons b bs =>
      simp only [byte, Option.some.injEq, Prod.mk.injEq] at h
      obtain ⟨rfl, rfl⟩ := h
      rfl

instance stable_le : ∀ n, Stable (le n)
  | 0 => stable_pure 0
  | n + 1 => by
    have := stable_le n
    unfold le
    infer_instance

instance stable_raw : ∀ n, Stable (raw n)
  | 0 => stable_pure []
  | n + 1 => by
    have := stable_raw n
    unfold raw
    infer_instance

instance stable_bytes (cap : Nat) : Stable (bytes cap) := by
  unfold bytes
  infer_instance

instance stable_loop (n : Nat) (body : σ → Reader σ) [hbody : ∀ s, Stable (body s)] (s : σ) :
    Stable (loop n body s) := by
  induction n generalizing s with
  | zero => exact stable_pure s
  | succ n ih =>
    unfold loop
    infer_instance

end Reader

theorem Reads.fails_early {α : Type} {r : Reader α} [hr : r.Stable] {bs : Bytes} {a : α} (h : Reads r bs (some a))
    {front : Bytes} (hfront : front <+: bs) (hne : front ≠ bs) : r front = none := by
  obtain ⟨behind, rfl⟩ := hfront
  cases hread : r front with
  | none => rfl
  | some p =>
    obtain ⟨a', rest⟩ := p
    -- what the reader leaves of the part would be left of the whole
    have hwhole := hr.grows behind hread
    have hback := h []
    rw [List.append_nil] at hback
    rw [hback, Option.map_some, Option.some.injEq, Prod.mk.injEq] at hwhole
    have hbehind : behind = [] := (List.append_eq_nil_iff.mp hwhole.2.symm).2
    rw [hbehind, List.append_nil] at hne
    exact absurd rfl hne

/-- Behind these bytes, the reader yields the value and leaves the rest; before their end, it fails. -/
structure Lossless {α : Type} (r : Reader α) (bs : Bytes) (a : α) : Prop where
  reads : ∀ rest, r (bs ++ rest) = some (a, rest)
  fails_early : ∀ front, front <+: bs → front ≠ bs → r front = none

theorem Reads.lossless {α : Type} {r : Reader α} [r.Stable] {bs : Bytes} {a : α} (h : Reads r bs (some a)) :
    Lossless r bs a :=
  ⟨h, fun _ hfront hne => h.fails_early hfront hne⟩

/-! ### Readers that invert an encoder -/

/-- What the reader takes is the encoding of what it yields. -/
def Reader.Exact {α : Type} (r : Reader α) (enc : α → Bytes) : Prop :=
  ∀ bs a rest, r bs = some (a, rest) → bs = enc a ++ rest

/-- What the first reader accepts, the second accepts in the same way. -/
def Reader.Refines {α : Type} (s r : Reader α) : Prop := ∀ bs x, s bs = some x → r bs = some x

namespace Reader

variable {α β σ : Type}

theorem Refines.refl (r : Reader α) : r.Refines r := fun _ _ h => h

theorem Refines.bind {s r : Reader α} {f g : α → Reader β} (h : s.Refines r) (hrest : ∀ a, (f a).Refines (g a)) :
    (Reader.bind s f).Refines (Reader.bind r g) := by
  intro bs x hread
  obtain ⟨a, mid, hfirst, hsecond⟩ := bind_eq_some.mp hread
  exact bind_eq_some.mpr ⟨a, mid, h bs _ hfirst, hrest a mid _ hsecond⟩

theorem Refines.loop {body body' : σ → Reader σ} (h : ∀ s, (body s).Refines (body' s)) :
    ∀ (n : Nat) (s : σ), (Reader.loop n body s).Refines (Reader.loop n body' s)
  | 0, _ => Refines.refl _
  | n + 1, s => Refines.bind (h s) fun s' => Refines.loop h n s'

theorem exact_byte : Exact byte fun b => [b] := by
  intro bs b rest h
  cases bs with
  | nil => simp [byte] at h
  | cons c bs =>
    simp only [byte, Option.some.injEq, Prod.mk.injEq] at h
    rw [h.1, h.2]
    rfl

theorem exact_le : ∀ n, Exact (le n) (leBytes n)
  | 0, bs, v, rest, h => by
    obtain ⟨rfl, rfl⟩ := pure_eq_some.mp h
    rfl
  | n + 1, bs, v, rest, h => by
    obtain ⟨b, mid, hb, h⟩ := bind_eq_some.mp h
    obtain ⟨hi, mid', hhi, h⟩ := bind_eq_some.mp h
    obtain ⟨rfl, rfl⟩ := pure_eq_some.mp h
    have hlow := b.toNat_lt
    have hmod : (b.toNat + 256 * hi) % 256 = b.toNat := by omega
    have hdiv : (b.toNat + 256 * hi) / 256 = hi := by omega
    rw [exact_byte bs b mid hb, exact_le n mid hi mid' hhi, leBytes, hmod, hdiv, UInt8.ofNat_toNat]
    rfl

theorem le_lt : ∀ {n : Nat} {bs rest : Bytes} {v : Nat}, le n bs = some (v, rest) → v < 256 ^ n
  | 0, bs, rest, v, h => by
    obtain ⟨rfl, -⟩ := pure_eq_some.mp h
    simp
  | n + 1, bs, rest, v, h => by
    obtain ⟨b, mid, -, h⟩ := bind_eq_some.mp h
    obtain ⟨hi, mid', hhi, h⟩ := bind_eq_some.mp h
    obtain ⟨rfl, -⟩ := pure_eq_some.mp h
    have hlow := b.toNat_lt
    have hhigh := le_lt hhi
    rw [Nat.pow_succ]
    omega

theorem exact_raw : ∀ n, Exact (raw n) id
  | 0, bs, v, rest, h => by
    obtain ⟨rfl, rfl⟩ := pure_eq_some.mp h
    rfl
  | n + 1, bs, v, rest, h => by
    obtain ⟨b, mid, hb, h⟩ := bind_eq_some.mp h
    obtain ⟨tail, mid', htail, h⟩ := bind_eq_some.mp h
    obtain ⟨rfl, rfl⟩ := pure_eq_some.mp h
    rw [exact_byte bs b mid hb, exact_raw n mid tail mid' htail]
    rfl

theorem raw_length : ∀ {n : Nat} {bs rest v : Bytes}, raw n bs = some (v, rest) → v.length = n
  | 0, bs, rest, v, h => by
    obtain ⟨rfl, -⟩ := pure_eq_some.mp h
    rfl
  | n + 1, bs, rest, v, h => by
    obtain ⟨b, mid, -, h⟩ := bind_eq_some.mp h
    obtain ⟨tail, mid', htail, h⟩ := bind_eq_some.mp h
    obtain ⟨rfl, -⟩ := pure_eq_some.mp h
    rw [List.length_cons, raw_length htail]

theorem exact_bytes (cap : Nat) : Exact (bytes cap) prefixed := by
  intro bs v rest h
  obtain ⟨n, mid, hn, h⟩ := bind_eq_some.mp h
  obtain ⟨_, mid', hcap, h⟩ := bind_eq_some.mp h
  obtain ⟨-, rfl⟩ := require_eq_some.mp hcap
  rw [exact_le 4 bs n mid hn, exact_raw n mid v rest h, ← raw_length h, prefixed, List.append_assoc]
  rfl

theorem bytes_lt {cap : Nat} {bs rest v : Bytes} (h : bytes cap bs = some (v, rest)) : v.length < 2 ^ 32 := by
  obtain ⟨n, mid, hn, h⟩ := bind_eq_some.mp h
  obtain ⟨_, mid', -, h⟩ := bind_eq_some.mp h
  rw [raw_length h]
  exact le_lt hn

end Reader

end Lib
