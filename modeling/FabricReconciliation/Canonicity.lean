import FabricReconciliation.Codecs

/-!
# One encoding for one value (`canonical.cpp:92-189`, `document.cpp:243-385`, `policy.cpp:120-212`)

The decoders take a boolean from any byte, map entries in any order and attribute lists with repetitions,
and compute the digest over what they made of them. The readers of this module take only what the
encoders write: booleans that are 0 or 1, and entries and keys in strictly ascending order.

* **`one_encoding`** — the bytes that are accepted and are the encoding of what they are accepted as.
-/

namespace FabricReconciliation

open Lib

/-! ## Tidy readers -/

namespace Tidy

/-- A boolean that is 0 or 1. -/
def bool : Reader Bool := do
  let b ← Reader.byte
  Reader.require (b == 0 || b == 1)
  return b != 0

def value : Reader AttributeValue := do
  let kind ← Read.u8
  match kind with
  | 1 => return .absent
  | 2 => return .boolean (← bool)
  | 3 => return .integer (← Read.i64)
  | 4 => return .unsigned (← Read.u64)
  | 5 => return .text (← AttributeValue.decodeText)
  | 6 => return .token (← AttributeValue.decodeText)
  | _ => Reader.fail

def entry : Reader (AttributeKey × AttributeValue) := do
  let keyText ← Read.bytes
  let key ← Reader.ofOption (StringId.tryParse keyText)
  let value ← value
  return (key, value)

/-- A state with its attributes in order. -/
def state (limits : RuntimeLimits) : Reader SubjectState := do
  let count ← Read.u32
  Reader.require (decide (count ≤ limits.maxAttributesPerSubject.toNat))
  Reader.sortedMap count entry

def subject (limits : RuntimeLimits) : Reader (SubjectId × SubjectEntry) := do
  let subjectText ← Read.bytes
  let attributesComplete ← bool
  let subject ← Reader.ofOption (StringId.tryParse subjectText)
  let state ← state limits
  return (subject, ⟨subject, attributesComplete, state⟩)

/-- An intent with its subjects in order. -/
def intent (limits : RuntimeLimits) : Reader IntentDocument := do
  let intentText ← Read.bytes
  let scopeText ← Read.bytes
  let definitionText ← Read.bytes
  let generation ← Read.u64
  let policyVersion ← Read.u64
  let evidence ← Read.enum EvidenceClass
  let complete ← bool
  let count ← Read.u32
  Reader.require (decide (count ≤ limits.maxSubjectsPerDocument.toNat))
  let intent ← Reader.ofOption (StringId.tryParse intentText)
  let scope ← Reader.ofOption (StringId.tryParse scopeText)
  let definition ← Reader.ofOption (StringId.tryParse definitionText)
  let subjects ← Reader.sortedMap count (subject limits)
  let digest ← Read.digest
  let document : IntentDocument := {
    intent := intent, scope := scope, definition := definition, generation := generation
    policyVersion := policyVersion, evidence := evidence, complete := complete, subjects := subjects
    digest := digest }
  Reader.require (digest == computeIntentDigest document)
  return document

/-- An observation with its subjects in order. -/
def observation (limits : RuntimeLimits) : Reader ObservationDocument := do
  let observationText ← Read.bytes
  let scopeText ← Read.bytes
  let reporterText ← Read.bytes
  let generation ← Read.u64
  let evidence ← Read.enum EvidenceClass
  let complete ← bool
  let authoritativeAbsence ← bool
  let receivedEpoch ← Read.u64
  let receivedUnixMs ← Read.i64
  let count ← Read.u32
  Reader.require (decide (count ≤ limits.maxSubjectsPerDocument.toNat))
  let observation ← Reader.ofOption (StringId.tryParse observationText)
  let scope ← Reader.ofOption (StringId.tryParse scopeText)
  let reporter ← Reader.ofOption (StringId.tryParse reporterText)
  let subjects ← Reader.sortedMap count (subject limits)
  let digest ← Read.digest
  let document : ObservationDocument := {
    observation := observation, scope := scope, reporter := reporter, generation := generation
    evidence := evidence, complete := complete, authoritativeAbsence := authoritativeAbsence
    receivedEpoch := receivedEpoch, receivedUnixMs := receivedUnixMs, subjects := subjects
    digest := digest }
  Reader.require (digest == computeObservationDigest document)
  return document

/-- An attribute list in strictly ascending order. -/
def keys (limits : RuntimeLimits) : Reader (List AttributeKey) := do
  let keys ← decodeKeys limits
  Reader.require (decide (keys.Pairwise (· < ·)))
  return keys

/-- A policy with its attribute lists in order. -/
def policy (limits : RuntimeLimits) : Reader ReconciliationPolicy := do
  let schema ← Read.u16
  Reader.require (schema == kCanonicalSchemaVersion)
  let idText ← Read.bytes
  let version ← Read.u64
  let maxAge ← Read.i64
  let requireEpoch ← bool
  let requireCoverage ← bool
  let applyMissing ← bool
  let applyMismatched ← bool
  let withdraw ← bool
  let convergenceProof ← bool
  let independent ← bool
  let id ← Reader.ofOption (StringId.tryParse idText)
  let unmanaged ← keys limits
  let observeOnly ← keys limits
  let policy ← Reader.ofOption (canonicalisePolicy {
      id := id
      version := version
      freshness := {
        maxObservationAgeMs := maxAge
        requireCurrentEpoch := requireEpoch
        requireCompleteCoverageForAbsence := requireCoverage }
      permitApplyMissing := applyMissing
      permitApplyMismatched := applyMismatched
      permitWithdrawUnexpected := withdraw
      requireCompleteCoverageForConvergenceProof := convergenceProof
      requireIndependentVerification := independent
      unmanagedAttributes := unmanaged
      observeOnlyAttributes := observeOnly } limits).toOption
  let digest ← Read.digest
  Reader.require (digest == computePolicyDigest policy)
  return policy

/-! ## They accept nothing more -/

theorem refines_bool : bool.Refines Read.bool := by
  intro bs x h
  obtain ⟨b, mid, hb, h⟩ := Reader.bind_eq_some.mp h
  obtain ⟨_, _, hrequire, h⟩ := Reader.bind_eq_some.mp h
  obtain ⟨-, rfl⟩ := Reader.require_eq_some.mp hrequire
  exact Reader.bind_eq_some.mpr ⟨b, mid, hb, h⟩

theorem refines_value : value.Refines AttributeValue.decode := by
  refine Reader.Refines.bind (.refl _) fun kind => ?_
  match kind with
  | 0 => exact .refl _
  | 1 => exact .refl _
  | 2 => exact .bind refines_bool fun _ => .refl _
  | 3 => exact .refl _
  | 4 => exact .refl _
  | 5 => exact .refl _
  | 6 => exact .refl _
  | _ + 7 => exact .refl _

theorem refines_entry : entry.Refines decodeAttribute :=
  .bind (.refl _) fun _ => .bind (.refl _) fun _ => .bind refines_value fun _ => .refl _

variable (limits : RuntimeLimits)

theorem refines_state : (state limits).Refines (decodeState limits) :=
  .bind (.refl _) fun _ => .bind (.refl _) fun _ => sortedMap_refines refines_entry

theorem refines_subject : (subject limits).Refines (decodeSubject limits) :=
  .bind (.refl _) fun _ => .bind refines_bool fun _ => .bind (.refl _) fun _ =>
    .bind (refines_state limits) fun _ => .refl _

theorem refines_intent : (intent limits).Refines (decodeIntent limits) :=
  .bind (.refl _) fun _ => .bind (.refl _) fun _ => .bind (.refl _) fun _ => .bind (.refl _) fun _ =>
    .bind (.refl _) fun _ => .bind (.refl _) fun _ => .bind refines_bool fun _ => .bind (.refl _) fun _ =>
    .bind (.refl _) fun _ => .bind (.refl _) fun _ => .bind (.refl _) fun _ => .bind (.refl _) fun _ =>
    .bind (sortedMap_refines (refines_subject limits)) fun _ => .refl _

theorem refines_observation : (observation limits).Refines (decodeObservation limits) :=
  .bind (.refl _) fun _ => .bind (.refl _) fun _ => .bind (.refl _) fun _ => .bind (.refl _) fun _ =>
    .bind (.refl _) fun _ => .bind refines_bool fun _ => .bind refines_bool fun _ => .bind (.refl _) fun _ =>
    .bind (.refl _) fun _ => .bind (.refl _) fun _ => .bind (.refl _) fun _ => .bind (.refl _) fun _ =>
    .bind (.refl _) fun _ => .bind (.refl _) fun _ =>
    .bind (sortedMap_refines (refines_subject limits)) fun _ => .refl _

theorem refines_keys : (keys limits).Refines (decodeKeys limits) := by
  intro bs x h
  obtain ⟨l, mid, hl, h⟩ := Reader.bind_eq_some.mp h
  obtain ⟨_, _, hrequire, h⟩ := Reader.bind_eq_some.mp h
  obtain ⟨-, rfl⟩ := Reader.require_eq_some.mp hrequire
  rw [hl]
  exact h

theorem refines_policy : (policy limits).Refines (decodePolicy limits) :=
  .bind (.refl _) fun _ => .bind (.refl _) fun _ => .bind (.refl _) fun _ => .bind (.refl _) fun _ =>
    .bind (.refl _) fun _ => .bind refines_bool fun _ => .bind refines_bool fun _ => .bind refines_bool fun _ =>
    .bind refines_bool fun _ => .bind refines_bool fun _ => .bind refines_bool fun _ => .bind refines_bool fun _ =>
    .bind (.refl _) fun _ => .bind (refines_keys limits) fun _ => .bind (refines_keys limits) fun _ => .refl _

/-! ## They take what is written -/

theorem exact_u16 {bs rest : Bytes} {v : Nat} (h : Read.u16 bs = some (v, rest)) : bs = (putU16 v).image ++ rest := by
  rw [putU16, image_putLE]
  exact Reader.exact_le 2 bs v rest h

theorem exact_u64 {bs rest : Bytes} {v : UInt64} (h : Read.u64 bs = some (v, rest)) : bs = (putU64 v).image ++ rest := by
  obtain ⟨n, mid, hn, h⟩ := Reader.bind_eq_some.mp h
  obtain ⟨rfl, rfl⟩ := Reader.pure_eq_some.mp h
  have hlt : n < 2 ^ 64 := Reader.le_lt hn
  rw [putU64, image_putLE, UInt64.toNat_ofNat', Nat.mod_eq_of_lt hlt]
  exact Reader.exact_le 8 bs n mid hn

theorem exact_i64 {bs rest : Bytes} {v : Int64} (h : Read.i64 bs = some (v, rest)) : bs = (putI64 v).image ++ rest := by
  obtain ⟨n, mid, hn, h⟩ := Reader.bind_eq_some.mp h
  obtain ⟨rfl, rfl⟩ := Reader.pure_eq_some.mp h
  have hlt : n < 2 ^ 64 := Reader.le_lt hn
  rw [putI64, image_putLE, UInt64.toUInt64_toInt64, UInt64.toNat_ofNat', Nat.mod_eq_of_lt hlt]
  exact Reader.exact_le 8 bs n mid hn

theorem exact_bool {bs rest : Bytes} {v : Bool} (h : bool bs = some (v, rest)) : bs = (putBool v).image ++ rest := by
  obtain ⟨b, mid, hb, h⟩ := Reader.bind_eq_some.mp h
  obtain ⟨_, _, hrequire, h⟩ := Reader.bind_eq_some.mp h
  obtain ⟨hbit, rfl⟩ := Reader.require_eq_some.mp hrequire
  obtain ⟨rfl, rfl⟩ := Reader.pure_eq_some.mp h
  rw [Reader.exact_byte bs b mid hb, putBool, image_putByte]
  rcases Bool.or_eq_true_iff.mp hbit with hzero | hone
  · rw [beq_iff_eq.mp hzero]
    rfl
  · rw [beq_iff_eq.mp hone]
    rfl

theorem exact_text {bs rest text : Bytes} (h : Read.bytes bs = some (text, rest)) :
    bs = (putBytes text).image ++ rest := by
  rw [image_putBytes (Reader.bytes_lt h)]
  exact Reader.exact_bytes _ bs text rest h

theorem exact_id {tag : IdTag} {bs rest text : Bytes} {id : StringId tag} (h : Read.bytes bs = some (text, rest))
    (hid : StringId.tryParse text = some id) : bs = (putBytes id.text).image ++ rest := by
  rw [(StringId.tryParse_eq_some hid).1]
  exact exact_text h

theorem exact_digest {bs rest : Bytes} {d : Digest} (h : Read.digest bs = some (d, rest)) :
    bs = (putDigest d).image ++ rest := by
  obtain ⟨v, mid, hv, h⟩ := Reader.bind_eq_some.mp h
  obtain ⟨rfl, rfl⟩ := Reader.pure_eq_some.mp h
  rw [putDigest, image_putRaw, FixedBytes.bytes_ofBytes (Reader.raw_length hv)]
  exact Reader.exact_raw 32 bs v mid hv

theorem exact_count {bs rest : Bytes} {n : Nat} (h : Read.u32 bs = some (n, rest)) :
    bs = (putCount n).image ++ rest := by
  have hlt : n < 4294967296 := Reader.le_lt h
  rw [putCount, image_putLE, Nat.mod_eq_of_lt hlt]
  exact Reader.exact_le 4 bs n rest h

theorem exact_evidence {bs rest : Bytes} {c : EvidenceClass} (h : Read.enum EvidenceClass bs = some (c, rest)) :
    bs = (putEnum c).image ++ rest := by
  obtain ⟨raw, mid, hraw, h⟩ := Reader.bind_eq_some.mp h
  obtain ⟨hc, rfl⟩ := Reader.ofOption_eq_some.mp h
  have hsame : Enumeration.raw c = raw := by
    match raw with
    | 0 => exact (Option.some.inj hc) ▸ rfl
    | 1 => exact (Option.some.inj hc) ▸ rfl
    | 2 => exact (Option.some.inj hc) ▸ rfl
    | 3 => exact (Option.some.inj hc) ▸ rfl
    | _ + 4 => simp [Enumeration.ofRaw, Enumeration.table] at hc
  rw [putEnum, image_putLE, hsame]
  exact Reader.exact_le 1 bs raw mid hraw

theorem exact_decodeText {bs rest text : Bytes} (h : AttributeValue.decodeText bs = some (text, rest)) :
    bs = (putBytes text).image ++ rest := by
  obtain ⟨t, mid, ht, h⟩ := Reader.bind_eq_some.mp h
  obtain ⟨_, _, hrequire, h⟩ := Reader.bind_eq_some.mp h
  obtain ⟨-, rfl⟩ := Reader.require_eq_some.mp hrequire
  obtain ⟨rfl, rfl⟩ := Reader.pure_eq_some.mp h
  exact exact_text ht

theorem exact_value : value.Exact fun v => v.encode.image := by
  intro bs v rest h
  obtain ⟨kind, mid, hkind, h⟩ := Reader.bind_eq_some.mp h
  rw [Reader.exact_le 1 bs kind mid hkind]
  match kind with
  | 0 => simp [Reader.fail] at h
  | 1 =>
    obtain ⟨rfl, rfl⟩ := Reader.pure_eq_some.mp h
    rfl
  | 2 =>
    obtain ⟨b, mid', hb, h⟩ := Reader.bind_eq_some.mp h
    obtain ⟨rfl, rfl⟩ := Reader.pure_eq_some.mp h
    rw [exact_bool hb]
    rfl
  | 3 =>
    obtain ⟨n, mid', hn, h⟩ := Reader.bind_eq_some.mp h
    obtain ⟨rfl, rfl⟩ := Reader.pure_eq_some.mp h
    rw [exact_i64 hn]
    rfl
  | 4 =>
    obtain ⟨n, mid', hn, h⟩ := Reader.bind_eq_some.mp h
    obtain ⟨rfl, rfl⟩ := Reader.pure_eq_some.mp h
    rw [exact_u64 hn]
    rfl
  | 5 =>
    obtain ⟨t, mid', ht, h⟩ := Reader.bind_eq_some.mp h
    obtain ⟨rfl, rfl⟩ := Reader.pure_eq_some.mp h
    rw [exact_decodeText ht]
    rfl
  | 6 =>
    obtain ⟨t, mid', ht, h⟩ := Reader.bind_eq_some.mp h
    obtain ⟨rfl, rfl⟩ := Reader.pure_eq_some.mp h
    rw [exact_decodeText ht]
    rfl
  | n + 7 => simp [Reader.fail] at h

theorem exact_entry : entry.Exact fun e => (encodeAttribute e).image := by
  intro bs e rest h
  obtain ⟨text, _, htext, h⟩ := Reader.bind_eq_some.mp h
  obtain ⟨key, _, hparse, h⟩ := Reader.bind_eq_some.mp h
  obtain ⟨hkey, rfl⟩ := Reader.ofOption_eq_some.mp hparse
  obtain ⟨v, mid, hv, h⟩ := Reader.bind_eq_some.mp h
  obtain ⟨rfl, rfl⟩ := Reader.pure_eq_some.mp h
  rw [exact_id htext hkey, exact_value _ _ _ hv]
  simp only [encodeAttribute, Script.image_append, List.append_assoc]

theorem exact_state : (state limits).Exact fun s => (encodeState s).image := by
  intro bs s rest h
  obtain ⟨count, _, hcount, h⟩ := Reader.bind_eq_some.mp h
  obtain ⟨_, _, hrequire, h⟩ := Reader.bind_eq_some.mp h
  obtain ⟨-, rfl⟩ := Reader.require_eq_some.mp hrequire
  obtain ⟨rfl, hentries⟩ := sortedMap_exact exact_entry h
  rw [exact_count hcount, hentries]
  simp only [encodeState, Script.image_append, image_putEach, List.append_assoc]

theorem exact_subject : (subject limits).Exact fun e => (encodeSubject e).image := by
  intro bs e rest h
  obtain ⟨text, _, htext, h⟩ := Reader.bind_eq_some.mp h
  obtain ⟨complete, _, hcomplete, h⟩ := Reader.bind_eq_some.mp h
  obtain ⟨id, _, hparse, h⟩ := Reader.bind_eq_some.mp h
  obtain ⟨hid, rfl⟩ := Reader.ofOption_eq_some.mp hparse
  obtain ⟨s, mid, hs, h⟩ := Reader.bind_eq_some.mp h
  obtain ⟨rfl, rfl⟩ := Reader.pure_eq_some.mp h
  rw [exact_id htext hid, exact_bool hcomplete, exact_state limits _ _ _ hs]
  simp only [encodeSubject, Script.image_append, List.append_assoc]

/-- The subjects of a document, behind their number. -/
theorem exact_subjects {bs mid rest : Bytes} {count : Nat} {m : Subjects} (hcount : Read.u32 bs = some (count, mid))
    (h : Reader.sortedMap count (subject limits) mid = some (m, rest)) : bs = (encodeSubjects m).image ++ rest := by
  obtain ⟨rfl, hentries⟩ := sortedMap_exact (exact_subject limits) h
  rw [exact_count hcount, hentries, encodeSubjects, Script.image_append, image_putEach, List.append_assoc]

theorem exact_intent : (intent limits).Exact fun d => (intentScript d).image := by
  intro bs d rest h
  obtain ⟨intentText, _, hintentText, h⟩ := Reader.bind_eq_some.mp h
  obtain ⟨scopeText, _, hscopeText, h⟩ := Reader.bind_eq_some.mp h
  obtain ⟨definitionText, _, hdefinitionText, h⟩ := Reader.bind_eq_some.mp h
  obtain ⟨generation, _, hgeneration, h⟩ := Reader.bind_eq_some.mp h
  obtain ⟨policyVersion, _, hpolicyVersion, h⟩ := Reader.bind_eq_some.mp h
  obtain ⟨evidence, _, hevidence, h⟩ := Reader.bind_eq_some.mp h
  obtain ⟨complete, _, hcomplete, h⟩ := Reader.bind_eq_some.mp h
  obtain ⟨count, _, hcount, h⟩ := Reader.bind_eq_some.mp h
  obtain ⟨_, _, hbound, h⟩ := Reader.bind_eq_some.mp h
  obtain ⟨-, rfl⟩ := Reader.require_eq_some.mp hbound
  obtain ⟨intent, _, hparse, h⟩ := Reader.bind_eq_some.mp h
  obtain ⟨hintent, rfl⟩ := Reader.ofOption_eq_some.mp hparse
  obtain ⟨scope, _, hparse, h⟩ := Reader.bind_eq_some.mp h
  obtain ⟨hscope, rfl⟩ := Reader.ofOption_eq_some.mp hparse
  obtain ⟨definition, _, hparse, h⟩ := Reader.bind_eq_some.mp h
  obtain ⟨hdefinition, rfl⟩ := Reader.ofOption_eq_some.mp hparse
  obtain ⟨subjects, _, hsubjects, h⟩ := Reader.bind_eq_some.mp h
  obtain ⟨digest, _, hdigest, h⟩ := Reader.bind_eq_some.mp h
  obtain ⟨_, _, hsame, h⟩ := Reader.bind_eq_some.mp h
  obtain ⟨-, rfl⟩ := Reader.require_eq_some.mp hsame
  obtain ⟨rfl, rfl⟩ := Reader.pure_eq_some.mp h
  rw [exact_id hintentText hintent, exact_id hscopeText hscope, exact_id hdefinitionText hdefinition,
    exact_u64 hgeneration, exact_u64 hpolicyVersion, exact_evidence hevidence, exact_bool hcomplete,
    exact_subjects limits hcount hsubjects, exact_digest hdigest]
  simp only [intentScript, intentContent, Script.image_append, List.append_assoc]

theorem exact_observation : (observation limits).Exact fun d => (observationScript d).image := by
  intro bs d rest h
  obtain ⟨observationText, _, hobservationText, h⟩ := Reader.bind_eq_some.mp h
  obtain ⟨scopeText, _, hscopeText, h⟩ := Reader.bind_eq_some.mp h
  obtain ⟨reporterText, _, hreporterText, h⟩ := Reader.bind_eq_some.mp h
  obtain ⟨generation, _, hgeneration, h⟩ := Reader.bind_eq_some.mp h
  obtain ⟨evidence, _, hevidence, h⟩ := Reader.bind_eq_some.mp h
  obtain ⟨complete, _, hcomplete, h⟩ := Reader.bind_eq_some.mp h
  obtain ⟨absence, _, habsence, h⟩ := Reader.bind_eq_some.mp h
  obtain ⟨receivedEpoch, _, hreceivedEpoch, h⟩ := Reader.bind_eq_some.mp h
  obtain ⟨receivedUnixMs, _, hreceivedUnixMs, h⟩ := Reader.bind_eq_some.mp h
  obtain ⟨count, _, hcount, h⟩ := Reader.bind_eq_some.mp h
  obtain ⟨_, _, hbound, h⟩ := Reader.bind_eq_some.mp h
  obtain ⟨-, rfl⟩ := Reader.require_eq_some.mp hbound
  obtain ⟨observation, _, hparse, h⟩ := Reader.bind_eq_some.mp h
  obtain ⟨hobservation, rfl⟩ := Reader.ofOption_eq_some.mp hparse
  obtain ⟨scope, _, hparse, h⟩ := Reader.bind_eq_some.mp h
  obtain ⟨hscope, rfl⟩ := Reader.ofOption_eq_some.mp hparse
  obtain ⟨reporter, _, hparse, h⟩ := Reader.bind_eq_some.mp h
  obtain ⟨hreporter, rfl⟩ := Reader.ofOption_eq_some.mp hparse
  obtain ⟨subjects, _, hsubjects, h⟩ := Reader.bind_eq_some.mp h
  obtain ⟨digest, _, hdigest, h⟩ := Reader.bind_eq_some.mp h
  obtain ⟨_, _, hsame, h⟩ := Reader.bind_eq_some.mp h
  obtain ⟨-, rfl⟩ := Reader.require_eq_some.mp hsame
  obtain ⟨rfl, rfl⟩ := Reader.pure_eq_some.mp h
  rw [exact_id hobservationText hobservation, exact_id hscopeText hscope, exact_id hreporterText hreporter,
    exact_u64 hgeneration, exact_evidence hevidence, exact_bool hcomplete, exact_bool habsence,
    exact_u64 hreceivedEpoch, exact_i64 hreceivedUnixMs, exact_subjects limits hcount hsubjects, exact_digest hdigest]
  simp only [observationScript, observationContent, Script.image_append, List.append_assoc]

theorem exact_key : decodeKey.Exact fun k => (encodeKey k).image := by
  intro bs k rest h
  obtain ⟨text, _, htext, h⟩ := Reader.bind_eq_some.mp h
  obtain ⟨hkey, rfl⟩ := Reader.ofOption_eq_some.mp h
  exact exact_id htext hkey

theorem exact_keys {bs rest : Bytes} {l : List AttributeKey} (h : keys limits bs = some (l, rest)) :
    l.Pairwise (· < ·) ∧ bs = (putCount l.length ++ putEach encodeKey l).image ++ rest := by
  obtain ⟨l', _, hl, h⟩ := Reader.bind_eq_some.mp h
  obtain ⟨_, _, hrequire, h⟩ := Reader.bind_eq_some.mp h
  obtain ⟨hsorted, rfl⟩ := Reader.require_eq_some.mp hrequire
  obtain ⟨rfl, rfl⟩ := Reader.pure_eq_some.mp h
  obtain ⟨count, _, hcount, hl⟩ := Reader.bind_eq_some.mp hl
  obtain ⟨_, _, hbound, hl⟩ := Reader.bind_eq_some.mp hl
  obtain ⟨-, rfl⟩ := Reader.require_eq_some.mp hbound
  obtain ⟨hlength, -⟩ := list_sound (P := fun _ => True) (fun _ _ _ _ => trivial) hl
  refine ⟨of_decide_eq_true hsorted, ?_⟩
  rw [hlength, Script.image_append, image_putEach, exact_count hcount, list_exact exact_key hl, List.append_assoc]

/-- A policy whose lists are in order is left alone. -/
theorem canonicalisePolicy_sorted {raw canonical : ReconciliationPolicy}
    (h : canonicalisePolicy raw limits = .ok canonical) (hunmanaged : raw.unmanagedAttributes.Pairwise (· < ·))
    (hobserveOnly : raw.observeOnlyAttributes.Pairwise (· < ·)) : canonical = raw := by
  have hsort : sortAttributeLists raw = raw := by
    rw [sortAttributeLists, sortUnique_of_sorted hunmanaged, sortUnique_of_sorted hobserveOnly]
  unfold canonicalisePolicy at h
  rw [hsort] at h
  split_ifs at h
  exact (Except.ok.inj h).symm

theorem exact_policy : (policy limits).Exact fun p => (policyScript p).image := by
  intro bs p rest h
  obtain ⟨schema, _, hschema, h⟩ := Reader.bind_eq_some.mp h
  obtain ⟨_, _, hversion, h⟩ := Reader.bind_eq_some.mp h
  obtain ⟨hone, rfl⟩ := Reader.require_eq_some.mp hversion
  obtain ⟨idText, _, hidText, h⟩ := Reader.bind_eq_some.mp h
  obtain ⟨version, _, hversion, h⟩ := Reader.bind_eq_some.mp h
  obtain ⟨maxAge, _, hmaxAge, h⟩ := Reader.bind_eq_some.mp h
  obtain ⟨requireEpoch, _, hrequireEpoch, h⟩ := Reader.bind_eq_some.mp h
  obtain ⟨requireCoverage, _, hrequireCoverage, h⟩ := Reader.bind_eq_some.mp h
  obtain ⟨applyMissing, _, happlyMissing, h⟩ := Reader.bind_eq_some.mp h
  obtain ⟨applyMismatched, _, happlyMismatched, h⟩ := Reader.bind_eq_some.mp h
  obtain ⟨withdraw, _, hwithdraw, h⟩ := Reader.bind_eq_some.mp h
  obtain ⟨convergenceProof, _, hconvergenceProof, h⟩ := Reader.bind_eq_some.mp h
  obtain ⟨independent, _, hindependent, h⟩ := Reader.bind_eq_some.mp h
  obtain ⟨id, _, hparse, h⟩ := Reader.bind_eq_some.mp h
  obtain ⟨hid, rfl⟩ := Reader.ofOption_eq_some.mp hparse
  obtain ⟨unmanaged, _, hunmanaged, h⟩ := Reader.bind_eq_some.mp h
  obtain ⟨observeOnly, _, hobserveOnly, h⟩ := Reader.bind_eq_some.mp h
  obtain ⟨canonical, _, hcanonical, h⟩ := Reader.bind_eq_some.mp h
  obtain ⟨hcanonical', rfl⟩ := Reader.ofOption_eq_some.mp hcanonical
  obtain ⟨digest, _, hdigest, h⟩ := Reader.bind_eq_some.mp h
  obtain ⟨_, _, hsame, h⟩ := Reader.bind_eq_some.mp h
  obtain ⟨hdigestOf, rfl⟩ := Reader.require_eq_some.mp hsame
  obtain ⟨rfl, rfl⟩ := Reader.pure_eq_some.mp h
  obtain ⟨hsortedUnmanaged, hunmanaged⟩ := exact_keys limits hunmanaged
  obtain ⟨hsortedObserveOnly, hobserveOnly⟩ := exact_keys limits hobserveOnly
  rw [beq_iff_eq.mp hdigestOf] at hdigest
  rw [exact_u16 hschema, beq_iff_eq.mp hone, exact_id hidText hid, exact_u64 hversion, exact_i64 hmaxAge,
    exact_bool hrequireEpoch, exact_bool hrequireCoverage, exact_bool happlyMissing, exact_bool happlyMismatched,
    exact_bool hwithdraw, exact_bool hconvergenceProof, exact_bool hindependent, hunmanaged, hobserveOnly,
    exact_digest hdigest]
  have hraw := canonicalisePolicy_sorted limits (eq_ok_of_toOption hcanonical') hsortedUnmanaged hsortedObserveOnly
  simp only [policyScript, policyContent, Script.image_append, List.append_assoc, hraw]

/-! ## They read back what is written -/

variable {limits}

theorem reads_bool (b : Bool) : Reads bool (putBool b).image (some b) := by
  cases b with
  | false => exact Reads.bind_end (Reads.byte 0) (Reads.require rfl (Reads.pure _))
  | true => exact Reads.bind_end (Reads.byte 1) (Reads.require rfl (Reads.pure _))

theorem reads_value {v : AttributeValue} (h : v.isValid = true) : Reads value v.encode.image (some v) := by
  unfold AttributeValue.encode
  rw [Script.image_append, image_putLE]
  have hkind : v.kind < 256 ^ 1 := by cases v <;> simp [AttributeValue.kind]
  refine Reads.bind (Reads.le hkind) ?_
  cases v with
  | invalid => simp [AttributeValue.isValid] at h
  | absent => exact Reads.pure _
  | boolean value => exact Reads.bind_end (reads_bool value) (Reads.pure _)
  | integer value => exact Reads.bind_end (reads_i64 value) (Reads.pure _)
  | unsigned value => exact Reads.bind_end (reads_u64 value) (Reads.pure _)
  | text value =>
    exact Reads.bind_end (AttributeValue.reads_decodeText (by simpa [AttributeValue.isValid] using h)) (Reads.pure _)
  | token value =>
    exact Reads.bind_end (AttributeValue.reads_decodeText (by simpa [AttributeValue.isValid] using h)) (Reads.pure _)

theorem reads_state {s : SubjectState} (h : StateOk limits s) (hsize : s.size < 4294967296) :
    Reads (state limits) (encodeState s).image (some s) := by
  unfold encodeState
  rw [Script.image_append, image_putEach]
  refine Reads.bind (reads_count hsize) ?_
  refine Reads.require (by simpa using h.bound) ?_
  refine reads_sortedMap fun e he => ?_
  unfold encodeAttribute
  rw [Script.image_append]
  refine Reads.bind (reads_text e.1) ?_
  refine reads_tryParse (h.keys e he) ?_
  exact Reads.bind_end (reads_value (h.values e he)) (Reads.pure _)

theorem reads_subject {e : SubjectId × SubjectEntry} (hk : e.1.empty = false) (hs : StateOk limits e.2.state)
    (hid : e.2.id = e.1) (hfit : (encodeSubject e).image.length ≤ kMaxCanonicalBytes) :
    Reads (subject limits) (encodeSubject e).image (some e) := by
  have hsize : e.2.state.size < 4294967296 := by
    have := state_size_le e.2.state
    simp only [encodeSubject, Script.image_append, List.length_append, kMaxCanonicalBytes] at hfit
    omega
  simp only [encodeSubject, Script.image_append]
  refine Reads.bind (reads_text e.1) ?_
  refine Reads.bind (reads_bool _) ?_
  refine reads_tryParse hk ?_
  refine Reads.bind_end (reads_state hs hsize) ?_
  obtain ⟨k, i, c, s⟩ := e
  simp only at hid
  subst hid
  exact Reads.pure _

/-- The subjects of a document, behind their number. -/
theorem reads_subjects {m : Subjects} (h : SubjectsOk limits m) (hid : ∀ e ∈ m.entries, e.2.id = e.1)
    (hfit : (encodeSubjects m).image.length ≤ kMaxCanonicalBytes) :
    m.size < 4294967296 ∧
      Reads (Reader.sortedMap m.size (subject limits)) (putEach encodeSubject m.entries).image (some m) := by
  have hcount : m.size < 4294967296 := by
    have := subjects_size_le m
    unfold kMaxCanonicalBytes at hfit
    omega
  refine ⟨hcount, ?_⟩
  rw [image_putEach]
  refine reads_sortedMap fun e he => ?_
  exact reads_subject (h.keys e he) (h.states e he) (hid e he) (le_trans (subject_fits he) hfit)

theorem reads_intent {d : IntentDocument} (h : IntentOk limits d) (hid : ∀ e ∈ d.subjects.entries, e.2.id = e.1)
    (hfit : (intentScript d).image.length ≤ kMaxCanonicalBytes) :
    Reads (intent limits) (intentScript d).image (some d) := by
  have hsub : (encodeSubjects d.subjects).image.length ≤ kMaxCanonicalBytes := by
    simp only [intentScript, intentContent, Script.image_append, List.length_append] at hfit
    omega
  obtain ⟨hcount, hsubjects⟩ := reads_subjects h.subjects hid hsub
  simp only [intentScript, intentContent, encodeSubjects, Script.image_append, List.append_assoc]
  refine Reads.bind (reads_text d.intent) ?_
  refine Reads.bind (reads_text d.scope) ?_
  refine Reads.bind (reads_text d.definition) ?_
  refine Reads.bind (reads_u64 d.generation) ?_
  refine Reads.bind (reads_u64 d.policyVersion) ?_
  refine Reads.bind (reads_enum d.evidence (by decide)) ?_
  refine Reads.bind (reads_bool d.complete) ?_
  refine Reads.bind (reads_count hcount) ?_
  refine Reads.require (by simpa using h.subjects.bound) ?_
  refine reads_tryParse h.intent ?_
  refine reads_tryParse h.scope ?_
  refine reads_tryParse h.definition ?_
  refine Reads.bind hsubjects ?_
  refine Reads.bind_end (reads_digest d.digest) ?_
  refine Reads.require ?_ (Reads.pure d)
  simpa using h.digest

theorem reads_observation {d : ObservationDocument} (h : ObservationOk limits d)
    (hid : ∀ e ∈ d.subjects.entries, e.2.id = e.1)
    (hfit : (observationScript d).image.length ≤ kMaxCanonicalBytes) :
    Reads (observation limits) (observationScript d).image (some d) := by
  have hsub : (encodeSubjects d.subjects).image.length ≤ kMaxCanonicalBytes := by
    simp only [observationScript, observationContent, Script.image_append, List.length_append] at hfit
    omega
  obtain ⟨hcount, hsubjects⟩ := reads_subjects h.subjects hid hsub
  simp only [observationScript, observationContent, encodeSubjects, Script.image_append, List.append_assoc]
  refine Reads.bind (reads_text d.observation) ?_
  refine Reads.bind (reads_text d.scope) ?_
  refine Reads.bind (reads_text d.reporter) ?_
  refine Reads.bind (reads_u64 d.generation) ?_
  refine Reads.bind (reads_enum d.evidence (by decide)) ?_
  refine Reads.bind (reads_bool d.complete) ?_
  refine Reads.bind (reads_bool d.authoritativeAbsence) ?_
  refine Reads.bind (reads_u64 d.receivedEpoch) ?_
  refine Reads.bind (reads_i64 d.receivedUnixMs) ?_
  refine Reads.bind (reads_count hcount) ?_
  refine Reads.require (by simpa using h.subjects.bound) ?_
  refine reads_tryParse h.observation ?_
  refine reads_tryParse h.scope ?_
  refine reads_tryParse h.reporter ?_
  refine Reads.bind hsubjects ?_
  refine Reads.bind_end (reads_digest d.digest) ?_
  refine Reads.require ?_ (Reads.pure d)
  simpa using h.digest

theorem reads_keys {l : List AttributeKey} (hbound : l.length ≤ (attributeListBound limits).toNat)
    (hkeys : ∀ k ∈ l, k.empty = false) (hsorted : l.Pairwise (· < ·)) (hsize : l.length < 4294967296) :
    Reads (keys limits) (putCount l.length ++ putEach encodeKey l).image (some l) :=
  Reads.bind_end (FabricReconciliation.reads_keys hbound hkeys hsize)
    (Reads.require (by simpa using hsorted) (Reads.pure l))

theorem reads_policy {p : ReconciliationPolicy} (h : PolicyOk limits p)
    (hfit : (policyScript p).image.length ≤ kMaxCanonicalBytes) :
    Reads (policy limits) (policyScript p).image (some p) := by
  obtain ⟨hc1, hc2⟩ := policy_counts hfit
  have hk1 := reads_keys h.unmanagedBound h.unmanagedKeys h.unmanagedSorted hc1
  have hk2 := reads_keys h.observeOnlyBound h.observeOnlyKeys h.observeOnlySorted hc2
  rw [Script.image_append] at hk1 hk2
  simp only [policyScript, policyContent, Script.image_append, List.append_assoc]
  refine Reads.bind (reads_u16 (by decide)) ?_
  refine Reads.require (by decide) ?_
  refine Reads.bind (reads_text p.id) ?_
  refine Reads.bind (reads_u64 p.version) ?_
  refine Reads.bind (reads_i64 _) ?_
  refine Reads.bind (reads_bool _) ?_
  refine Reads.bind (reads_bool _) ?_
  refine Reads.bind (reads_bool _) ?_
  refine Reads.bind (reads_bool _) ?_
  refine Reads.bind (reads_bool _) ?_
  refine Reads.bind (reads_bool _) ?_
  refine Reads.bind (reads_bool _) ?_
  refine reads_tryParse h.id ?_
  rw [← List.append_assoc (putCount p.unmanagedAttributes.length).image]
  refine Reads.bind hk1 ?_
  rw [← List.append_assoc (putCount p.observeOnlyAttributes.length).image]
  refine Reads.bind hk2 ?_
  refine Reads.ofOption (a := p) (by rw [canonicalisePolicy_self h]; rfl) ?_
  refine Reads.bind_end (reads_digest _) ?_
  exact Reads.require (by simp) (Reads.pure p)

end Tidy

/-! ## The theorem -/

/-- A decoder and an encoder meet on exactly the bytes that a tidy reader of at most `kMaxCanonicalBytes`
takes. -/
theorem encodes_iff_tidy {α : Type} {lax tidy : Reader α} {script : α → Script} (hrefines : tidy.Refines lax)
    (hexact : tidy.Exact fun a => (script a).image) {bs : Bytes} {a : α} (hread : lax.exactly bs = some a)
    (htotal : (script a).Total) (hnil : lax.exactly [] = none)
    (hback : (script a).image.length ≤ kMaxCanonicalBytes → Reads tidy (script a).image (some a)) :
    encoded (script a) = bs ↔ bs.length ≤ kMaxCanonicalBytes ∧ tidy.exactly bs ≠ none := by
  have hne : bs ≠ [] := by
    rintro rfl
    rw [hnil] at hread
    simp at hread
  constructor
  · intro hsame
    obtain ⟨-, hfit, himage⟩ := encoded_ne_nil (hsame ▸ hne)
    rw [himage] at hsame
    rw [← hsame, (hback hfit).exactly]
    exact ⟨hfit, by simp⟩
  · rintro ⟨hfit, htidy⟩
    obtain ⟨a', ha'⟩ := Option.ne_none_iff_exists'.mp htidy
    rw [Reader.exactly_eq_some] at ha' hread
    -- the two readers yield one value
    have hlax := hrefines bs _ ha'
    rw [hread, Option.some.injEq, Prod.mk.injEq] at hlax
    rw [← hlax.1] at ha'
    have hbytes := hexact bs a [] ha'
    simp only [List.append_nil] at hbytes
    rw [hbytes] at hfit
    rw [encoded, finish_of_fits htotal hfit, hbytes]

/-- **`one_encoding`**: bytes that are accepted are what their value is encoded as if and only if they are
no longer than the ceiling, their booleans are 0 or 1, and their map entries and attribute lists are in
strictly ascending order. -/
theorem one_encoding (limits : RuntimeLimits) (bytes : Bytes) :
    (∀ d, decodeIntentExact bytes limits = some d →
      (encodeIntent d = bytes ↔ bytes.length ≤ kMaxCanonicalBytes ∧ (Tidy.intent limits).exactly bytes ≠ none)) ∧
    (∀ d, decodeObservationExact bytes limits = some d →
      (encodeObservation d = bytes ↔
        bytes.length ≤ kMaxCanonicalBytes ∧ (Tidy.observation limits).exactly bytes ≠ none)) ∧
    ∀ policy, decodePolicyExact bytes limits = some policy →
      (encodePolicy policy = bytes ↔
        bytes.length ≤ kMaxCanonicalBytes ∧ (Tidy.policy limits).exactly bytes ≠ none) := by
  refine ⟨?_, ?_, ?_⟩
  · intro d hread
    obtain ⟨hok, hids⟩ := decodeIntent_sound (Reader.exactly_eq_some.mp hread)
    refine encodes_iff_tidy (Tidy.refines_intent limits) (Tidy.exact_intent limits) hread (total_intentScript hok) rfl
      (Tidy.reads_intent hok ?_)
    rw [← hids]
    exact withKeyIds_id
  · intro d hread
    obtain ⟨hok, hids⟩ := decodeObservation_sound (Reader.exactly_eq_some.mp hread)
    refine encodes_iff_tidy (Tidy.refines_observation limits) (Tidy.exact_observation limits) hread
      (total_observationScript hok) rfl (Tidy.reads_observation hok ?_)
    rw [← hids]
    exact withKeyIds_id
  · intro policy hread
    have hok := decodePolicy_sound (Reader.exactly_eq_some.mp hread)
    exact encodes_iff_tidy (Tidy.refines_policy limits) (Tidy.exact_policy limits) hread (total_policyScript policy) rfl
      (Tidy.reads_policy hok)

/-- The encoding of `tinyIntent` with a 2 where it says that the intent is complete. -/
def loudIntent : Bytes := (encodeIntent tinyIntent).set 32 2

/-- **`two_encodings`**: one byte string is the encoding of the intent, the other is accepted as it too. -/
theorem two_encodings :
    decodeIntentExact loudIntent {} = some tinyIntent ∧ encodeIntent tinyIntent ≠ loudIntent := by
  decide +kernel

end FabricReconciliation
