import FabricReconciliation.Canonical
import FabricReconciliation.Lib.Collections

/-!
# Attribute values and subject state (`value.hpp`, `value.cpp`, `document.cpp:12-64`)

`AttributeValue` is a private-constructor class whose payload is selected by its kind; here it is
the sum of the kinds. `SubjectState` is the ordered attribute map.

* **`reads_state`** — a state that passes `ValidateState` is read back exactly;
* **`decodeState_sound`** — whatever `DecodeState` accepts passes `ValidateState`.
-/

namespace FabricReconciliation

open Lib

/-- `kMaxAttributeTextLength`. -/
abbrev kMaxAttributeTextLength : Nat := 4096

/-- `AttributeValue`, one constructor per `AttributeKind`. -/
inductive AttributeValue
  | invalid
  | absent
  | boolean (value : Bool)
  | integer (value : Int64)
  | unsigned (value : UInt64)
  | text (value : Bytes)
  | token (value : Bytes)
deriving DecidableEq

/-- The characters of an ASCII literal. -/
def ascii (s : String) : Bytes := s.toList.map fun c => UInt8.ofNat c.toNat

namespace AttributeValue

/-- The raw `AttributeKind`. -/
def kind : AttributeValue → Nat
  | invalid => 0
  | absent => 1
  | boolean _ => 2
  | integer _ => 3
  | unsigned _ => 4
  | text _ => 5
  | token _ => 6

/-- `ComparableWith` (`value.hpp:70`). -/
def comparableWith (a b : AttributeValue) : Bool := a.kind == b.kind && a.kind != 0

/-- `IsValid` (`value.cpp:77`). -/
def isValid : AttributeValue → Bool
  | invalid => false
  | text value => decide (value.length ≤ kMaxAttributeTextLength)
  | token value => decide (value.length ≤ kMaxAttributeTextLength)
  | _ => true

/-- `AttributeValue::Encode` (`value.cpp:93`). -/
def encode (v : AttributeValue) : Script :=
  putLE 1 v.kind ++
    match v with
    | boolean value => putBool value
    | integer value => putI64 value
    | unsigned value => putU64 value
    | text value => putBytes value
    | token value => putBytes value
    | _ => []

def decodeText : Reader Bytes := do
  let text ← Read.bytes
  Reader.require (decide (text.length ≤ kMaxAttributeTextLength))
  return text

/-- `AttributeValue::Decode` (`value.cpp:116`). -/
def decode : Reader AttributeValue := do
  let kind ← Read.u8
  match kind with
  | 1 => return absent
  | 2 => return boolean (← Read.bool)
  | 3 => return integer (← Read.i64)
  | 4 => return unsigned (← Read.u64)
  | 5 => return text (← decodeText)
  | 6 => return token (← decodeText)
  | _ => Reader.fail

/-- `Render` (`value.cpp:173`). -/
def render : AttributeValue → Bytes
  | absent => ascii "<absent>"
  | boolean value => if value then ascii "true" else ascii "false"
  | integer value => ascii (toString value.toInt)
  | unsigned value => ascii (toString value.toNat)
  | text value => ascii "text:" ++ value
  | token value => value
  | invalid => ascii "<invalid>"

theorem total_encode {v : AttributeValue} (h : v.isValid = true) : v.encode.Total := by
  cases v with
  | text value =>
    have : value.length ≤ 4096 := by simpa [isValid] using h
    simp only [encode, Script.total_append, total_putLE, total_putBytes, true_and]
    omega
  | token value =>
    have : value.length ≤ 4096 := by simpa [isValid] using h
    simp only [encode, Script.total_append, total_putLE, total_putBytes, true_and]
    omega
  | _ => simp [encode]

theorem reads_decodeText {bs : Bytes} (h : bs.length ≤ kMaxAttributeTextLength) :
    Reads decodeText (putBytes bs).image (some bs) := by
  have hcap : bs.length ≤ kMaxCanonicalBytes := le_trans h (by decide)
  exact Reads.bind_end (reads_bytes hcap) (Reads.require (by simpa using h) (Reads.pure bs))

theorem reads_decode {v : AttributeValue} (h : v.isValid = true) :
    Reads decode v.encode.image (some v) := by
  unfold encode
  rw [Script.image_append, image_putLE]
  have hkind : v.kind < 256 ^ 1 := by cases v <;> simp [kind]
  refine Reads.bind (Reads.le hkind) ?_
  cases v with
  | invalid => simp [isValid] at h
  | absent => exact Reads.pure _
  | boolean value => exact Reads.bind_end (reads_bool value) (Reads.pure _)
  | integer value => exact Reads.bind_end (reads_i64 value) (Reads.pure _)
  | unsigned value => exact Reads.bind_end (reads_u64 value) (Reads.pure _)
  | text value => exact Reads.bind_end (reads_decodeText (by simpa [isValid] using h)) (Reads.pure _)
  | token value => exact Reads.bind_end (reads_decodeText (by simpa [isValid] using h)) (Reads.pure _)

theorem decodeText_sound {bs rest text : Bytes} (h : decodeText bs = some (text, rest)) :
    text.length ≤ kMaxAttributeTextLength := by
  obtain ⟨t, mid, -, h⟩ := Reader.bind_eq_some.mp h
  obtain ⟨u, mid', hr, h⟩ := Reader.bind_eq_some.mp h
  obtain ⟨hle, -⟩ := Reader.require_eq_some.mp hr
  obtain ⟨rfl, -⟩ := Reader.pure_eq_some.mp h
  simpa using hle

theorem decode_sound {bs rest : Bytes} {v : AttributeValue} (h : decode bs = some (v, rest)) :
    v.isValid = true := by
  obtain ⟨kind, mid, -, h⟩ := Reader.bind_eq_some.mp h
  split at h
  · obtain ⟨rfl, -⟩ := Reader.pure_eq_some.mp h
    rfl
  · obtain ⟨a, mid', -, h⟩ := Reader.bind_eq_some.mp h
    obtain ⟨rfl, -⟩ := Reader.pure_eq_some.mp h
    rfl
  · obtain ⟨a, mid', -, h⟩ := Reader.bind_eq_some.mp h
    obtain ⟨rfl, -⟩ := Reader.pure_eq_some.mp h
    rfl
  · obtain ⟨a, mid', -, h⟩ := Reader.bind_eq_some.mp h
    obtain ⟨rfl, -⟩ := Reader.pure_eq_some.mp h
    rfl
  · obtain ⟨a, mid', ha, h⟩ := Reader.bind_eq_some.mp h
    obtain ⟨rfl, -⟩ := Reader.pure_eq_some.mp h
    simpa [isValid] using decodeText_sound ha
  · obtain ⟨a, mid', ha, h⟩ := Reader.bind_eq_some.mp h
    obtain ⟨rfl, -⟩ := Reader.pure_eq_some.mp h
    simpa [isValid] using decodeText_sound ha
  · simp [Reader.fail] at h

end AttributeValue

/-! ## Subject state -/

/-- `SubjectState`: the ordered attribute map. -/
abbrev SubjectState := OrdMap AttributeKey AttributeValue

def encodeAttribute (e : AttributeKey × AttributeValue) : Script := putBytes e.1.text ++ e.2.encode

/-- `EncodeState` (`document.cpp:29`). -/
def encodeState (state : SubjectState) : Script :=
  putCount state.size ++ putEach encodeAttribute state.entries

/-- `DigestOfState` (`value.cpp:192`). -/
def digestOfState (state : SubjectState) : Digest := digestOf (encodeState state)

def decodeAttribute : Reader (AttributeKey × AttributeValue) := do
  let keyText ← Read.bytes
  let key ← Reader.ofOption (StringId.tryParse keyText)
  let value ← AttributeValue.decode
  return (key, value)

/-- `DecodeState` (`document.cpp:37`). -/
def decodeState (limits : RuntimeLimits) : Reader SubjectState := do
  let count ← Read.u32
  Reader.require (decide (count ≤ limits.maxAttributesPerSubject.toNat))
  Reader.map count decodeAttribute

/-- `ValidateState` (`document.cpp:12`). -/
def validateState (state : SubjectState) (limits : RuntimeLimits) (what : String) : Status :=
  if limits.maxAttributesPerSubject.toNat < state.size then
    ⟨.limitExceeded, .planActionLimitReached,
      what ++ " declares more attributes than the configured bound"⟩
  else
    match state.entries.find? (fun e => e.1.empty || !e.2.isValid) with
    | some e =>
      if e.1.empty then ⟨.rejected, .unsupportedInput, what ++ " carries an empty attribute key"⟩
      else ⟨.rejected, .unsupportedInput, what ++ " carries an invalid attribute value"⟩
    | none => Status.ok

/-- What `ValidateState` accepts. -/
structure StateOk (limits : RuntimeLimits) (state : SubjectState) : Prop where
  bound : state.size ≤ limits.maxAttributesPerSubject.toNat
  keys : ∀ e ∈ state.entries, e.1.empty = false
  values : ∀ e ∈ state.entries, e.2.isValid = true

theorem validateState_ok {state : SubjectState} {limits : RuntimeLimits} {what : String}
    (h : (validateState state limits what).code = .ok) : StateOk limits state := by
  unfold validateState at h
  split at h
  · simp at h
  · rename_i hb
    split at h
    · split at h <;> simp at h
    · rename_i hf
      rw [List.find?_eq_none] at hf
      refine ⟨by omega, fun e he => ?_, fun e he => ?_⟩
      · have := hf e he
        simp only [Bool.or_eq_true, not_or] at this
        simpa using this.1
      · have := hf e he
        simp only [Bool.or_eq_true, not_or] at this
        simpa using this.2

theorem total_encodeState {limits : RuntimeLimits} {state : SubjectState} (h : StateOk limits state) :
    (encodeState state).Total := by
  simp only [encodeState, Script.total_append, total_putCount, true_and, total_putEach]
  intro e he
  simp [encodeAttribute, AttributeValue.total_encode (h.values e he)]

theorem reads_attribute {e : AttributeKey × AttributeValue} (hk : e.1.empty = false)
    (hv : e.2.isValid = true) : Reads decodeAttribute (encodeAttribute e).image (some e) := by
  unfold encodeAttribute
  rw [Script.image_append]
  refine Reads.bind (reads_text e.1) ?_
  refine reads_tryParse hk ?_
  exact Reads.bind_end (AttributeValue.reads_decode hv) (Reads.pure _)

theorem image_putBytes_pos (bs : Bytes) (h : (putBytes bs).Total) : 1 ≤ (putBytes bs).image.length := by
  rw [image_putBytes ((total_putBytes bs).mp h), length_prefixed]
  omega

theorem state_size_le (state : SubjectState) :
    state.size ≤ (encodeState state).image.length := by
  have h := length_le_image_putEach (f := encodeAttribute) (fun e => by
    have := image_putBytes_pos e.1.text (total_putId e.1)
    simp only [encodeAttribute, Script.image_append, List.length_append]
    omega) state.entries
  simp only [encodeState, Script.image_append, List.length_append]
  exact le_trans h (by omega)

/-- **`reads_state`**: a valid state that fits the ceiling is read back. -/
theorem reads_state {limits : RuntimeLimits} {state : SubjectState} (h : StateOk limits state)
    (hsize : state.size < 4294967296) :
    Reads (decodeState limits) (encodeState state).image (some state) := by
  unfold encodeState
  rw [Script.image_append, image_putEach]
  refine Reads.bind (reads_count hsize) ?_
  refine Reads.require (by simpa using h.bound) ?_
  exact reads_map fun e he => reads_attribute (h.keys e he) (h.values e he)

theorem decodeAttribute_sound {bs rest : Bytes} {e : AttributeKey × AttributeValue}
    (h : decodeAttribute bs = some (e, rest)) : e.1.empty = false ∧ e.2.isValid = true := by
  obtain ⟨text, mid, -, h⟩ := Reader.bind_eq_some.mp h
  obtain ⟨key, mid', hk, h⟩ := Reader.bind_eq_some.mp h
  obtain ⟨hk, -⟩ := Reader.ofOption_eq_some.mp hk
  obtain ⟨value, mid'', hv, h⟩ := Reader.bind_eq_some.mp h
  obtain ⟨rfl, -⟩ := Reader.pure_eq_some.mp h
  exact ⟨(StringId.tryParse_eq_some hk).2, AttributeValue.decode_sound hv⟩

/-- **`decodeState_sound`**: every accepted state is a valid one. -/
theorem decodeState_sound {limits : RuntimeLimits} {bs rest : Bytes} {state : SubjectState}
    (h : decodeState limits bs = some (state, rest)) : StateOk limits state := by
  obtain ⟨count, mid, -, h⟩ := Reader.bind_eq_some.mp h
  obtain ⟨u, mid', hr, h⟩ := Reader.bind_eq_some.mp h
  obtain ⟨hle, -⟩ := Reader.require_eq_some.mp hr
  obtain ⟨hsize, hall⟩ := map_sound
    (P := fun e : AttributeKey × AttributeValue => e.1.empty = false ∧ e.2.isValid = true)
    (fun bs e rest he => decodeAttribute_sound he) h
  refine ⟨?_, fun e he => (hall e he).1, fun e he => (hall e he).2⟩
  rw [hsize]
  simpa using hle

end FabricReconciliation
