import FabricReconciliation.Lineage

/-!
# The binary codecs (`document.cpp`, `policy.cpp`, `authority.cpp`, `store.cpp:69-169`, `lineage.cpp:93-220`)

Every durable or wire value is written field by field and read back by a reader that takes exactly what
was written.

* **`codecs_lossless`** — a well-formed value comes back from its encoding, whatever follows it, and from
  no shorter part of it.
-/

namespace FabricReconciliation

open Lib

/-! ## Stability -/

section Stable

-- a decoder is one long chain of reads, and an instance for it is as long
set_option synthInstance.maxSize 1024

variable (limits : RuntimeLimits)

instance stable_u8 : Read.u8.Stable := Reader.stable_le 1
instance stable_u16 : Read.u16.Stable := Reader.stable_le 2
instance stable_u32 : Read.u32.Stable := Reader.stable_le 4

instance stable_u64 : Read.u64.Stable := Reader.stable_bind (Reader.le 8) fun n => Reader.pure (UInt64.ofNat n)

instance stable_i64 : Read.i64.Stable :=
  Reader.stable_bind (Reader.le 8) fun n => Reader.pure (UInt64.ofNat n).toInt64

instance stable_bool : Read.bool.Stable := Reader.stable_bind Reader.byte fun b => Reader.pure (b != 0)
instance stable_bytes : Read.bytes.Stable := Reader.stable_bytes kMaxCanonicalBytes

instance stable_fixed (n : Nat) : (Read.fixed n).Stable :=
  Reader.stable_bind (Reader.raw n) fun bs => Reader.pure (FixedBytes.ofBytes n bs)

instance stable_digest : Read.digest.Stable := stable_fixed 32

instance stable_boot : Read.boot.Stable := by
  unfold Read.boot
  simp only [Reader.bind_eq, Reader.pure_eq]
  infer_instance

instance stable_enum (α : Type) [DecidableEq α] [Enumeration α] : (Read.enum α).Stable := by
  unfold Read.enum
  simp only [Reader.bind_eq]
  infer_instance

instance stable_reason : Read.reason.Stable := by
  unfold Read.reason
  simp only [Reader.bind_eq]
  infer_instance

instance stable_decodeText : AttributeValue.decodeText.Stable := by
  unfold AttributeValue.decodeText
  simp only [Reader.bind_eq, Reader.pure_eq]
  infer_instance

instance stable_decodeValue : AttributeValue.decode.Stable := by
  unfold AttributeValue.decode
  simp only [Reader.bind_eq, Reader.pure_eq]
  have hkind : ∀ kind : Nat, Reader.Stable (match kind with
      | 1 => Reader.pure AttributeValue.absent
      | 2 => Read.bool.bind fun a => Reader.pure (AttributeValue.boolean a)
      | 3 => Read.i64.bind fun a => Reader.pure (AttributeValue.integer a)
      | 4 => Read.u64.bind fun a => Reader.pure (AttributeValue.unsigned a)
      | 5 => AttributeValue.decodeText.bind fun a => Reader.pure (AttributeValue.text a)
      | 6 => AttributeValue.decodeText.bind fun a => Reader.pure (AttributeValue.token a)
      | _ => Reader.fail) := by
    intro kind
    split <;> infer_instance
  infer_instance

instance stable_decodeAttribute : decodeAttribute.Stable := by
  unfold decodeAttribute
  simp only [Reader.bind_eq, Reader.pure_eq]
  infer_instance

instance stable_decodeState : (decodeState limits).Stable := by
  unfold decodeState
  simp only [Reader.bind_eq]
  infer_instance

instance stable_decodeSubject : (decodeSubject limits).Stable := by
  unfold decodeSubject
  simp only [Reader.bind_eq, Reader.pure_eq]
  infer_instance

instance stable_decodeIntent : (decodeIntent limits).Stable := by
  unfold decodeIntent
  simp only [Reader.bind_eq, Reader.pure_eq]
  infer_instance

instance stable_decodeObservation : (decodeObservation limits).Stable := by
  unfold decodeObservation
  simp only [Reader.bind_eq, Reader.pure_eq]
  infer_instance

instance stable_decodeSubmission : (decodeSubmission limits).Stable := by
  unfold decodeSubmission
  simp only [Reader.bind_eq, Reader.pure_eq]
  infer_instance

instance stable_decodeKeys : (decodeKeys limits).Stable := by
  unfold decodeKeys decodeKey
  simp only [Reader.bind_eq]
  infer_instance

instance stable_decodePolicy : (decodePolicy limits).Stable := by
  unfold decodePolicy
  simp only [Reader.bind_eq, Reader.pure_eq]
  infer_instance

instance stable_decodeAuthority : AuthorityVector.decode.Stable := by
  unfold AuthorityVector.decode
  simp only [Reader.bind_eq, Reader.pure_eq]
  infer_instance

instance stable_decodeTransition : decodeTransition.Stable := by
  unfold decodeTransition
  simp only [Reader.bind_eq, Reader.pure_eq]
  infer_instance

instance stable_decodeAttempt : (decodeAttempt limits).Stable := by
  unfold decodeAttempt
  simp only [Reader.bind_eq, Reader.pure_eq]
  infer_instance

instance stable_decodeOutcome : decodeOutcome.Stable := by
  unfold decodeOutcome
  simp only [Reader.bind_eq, Reader.pure_eq]
  infer_instance

instance stable_decodeFence : decodeFence.Stable := by
  unfold decodeFence
  simp only [Reader.bind_eq, Reader.pure_eq]
  infer_instance

end Stable

/-! ## Submissions -/

/-- A validated submission. -/
structure SubmissionOk (limits : RuntimeLimits) (s : ObservationSubmission) : Prop where
  observation : s.observation.empty = false
  scope : s.scope.empty = false
  reporter : s.reporter.empty = false
  subjects : SubjectsOk limits s.subjects

theorem total_submissionScript {limits : RuntimeLimits} {s : ObservationSubmission} (h : SubmissionOk limits s) :
    (submissionScript s).Total := by
  simp [submissionScript, total_encodeSubjects h.subjects]

/-- **`reads_submission`**: a validated submission whose entries carry their keys as ids is read back. -/
theorem reads_submission {limits : RuntimeLimits} {s : ObservationSubmission} (h : SubmissionOk limits s)
    (hid : ∀ e ∈ s.subjects.entries, e.2.id = e.1)
    (hfit : (submissionScript s).image.length ≤ kMaxCanonicalBytes) :
    Reads (decodeSubmission limits) (submissionScript s).image (some s) := by
  have hsub : (encodeSubjects s.subjects).image.length ≤ kMaxCanonicalBytes := by
    simp only [submissionScript, Script.image_append, List.length_append] at hfit
    omega
  have hcount : s.subjects.size < 4294967296 := by
    have := subjects_size_le s.subjects
    unfold kMaxCanonicalBytes at hsub
    omega
  simp only [submissionScript, encodeSubjects, Script.image_append]
  refine Reads.bind (reads_text s.observation) ?_
  refine Reads.bind (reads_text s.scope) ?_
  refine Reads.bind (reads_text s.reporter) ?_
  refine Reads.bind (reads_u64 s.generation) ?_
  refine Reads.bind (Reads.of_eq (Reads.le (v := Enumeration.raw s.evidence) ?_) (image_putLE 1 _).symm rfl) ?_
  · cases s.evidence <;> decide
  refine Reads.bind (reads_bool s.complete) ?_
  refine Reads.bind (reads_bool s.authoritativeAbsence) ?_
  refine Reads.bind (reads_count hcount) ?_
  refine Reads.require (by simpa using h.subjects.bound) ?_
  refine Reads.ofOption (Enumeration.ofRaw_raw s.evidence) ?_
  refine reads_tryParse h.observation ?_
  refine reads_tryParse h.scope ?_
  refine reads_tryParse h.reporter ?_
  exact Reads.bind_end (reads_subjects h.subjects hid hsub) (Reads.pure s)

/-! ## All of them -/

theorem length_putId {tag : IdTag} (id : StringId tag) : (putBytes id.text).image.length ≤ 204 := by
  have hid := id.text_length
  rw [image_putBytes (by omega), length_prefixed]
  omega

theorem length_putBoot (b : BootId) : (putBoot b).image.length = 20 := by
  rw [putBoot, image_putBytes (by rw [b.length_eq]; omega), length_prefixed, b.length_eq]

theorem authority_fits (v : AuthorityVector) : v.encode.image.length ≤ kMaxCanonicalBytes := by
  have h₁ := length_putId v.policyId
  have h₂ := length_putId v.definition
  have h₃ := length_putId v.intent
  have h₄ := length_putId v.observation
  have h₅ := length_putId v.observationReporter
  simp only [AuthorityVector.encode, Script.image_append, List.length_append, length_putBoot, putU64, putI64, putDigest,
    image_putLE, image_putRaw, length_leBytes, FixedBytes.length_eq, kMaxCanonicalBytes]
  by_contra hlarge
  rw [not_le] at hlarge
  omega

theorem outcome_fits (o : ReconciliationOutcome) : (outcomeScript o).image.length ≤ kMaxCanonicalBytes := by
  have h₁ := length_putId o.scope
  have h₂ := length_putId o.subject
  simp only [outcomeScript, Script.image_append, List.length_append, length_putBoot, putU64, putI64, putDigest, putEnum,
    putReason, putU16, putBool, image_putLE, image_putRaw, image_putByte, length_leBytes, FixedBytes.length_eq,
    kMaxCanonicalBytes, List.length_singleton]
  omega

theorem total_fenceScript {f : FenceEntry} (h : FenceOk f) : (fenceScript f).Total := by
  have hdetail := h.detail
  simp only [kMaxIdentityLength] at hdetail
  have hshort : (putBytes f.detail).Total := by
    rw [total_putBytes]
    omega
  simp [fenceScript, hshort]

theorem fence_fits {f : FenceEntry} (h : FenceOk f) : (fenceScript f).image.length ≤ kMaxCanonicalBytes := by
  have hdetail := h.detail
  simp only [kMaxIdentityLength] at hdetail
  have h₁ := length_putId f.id
  have h₂ := length_putId f.scope
  have h₃ := length_putId f.subject
  have h₄ : (putBytes f.detail).image.length = 4 + f.detail.length := by
    rw [image_putBytes (by omega), length_prefixed]
  simp only [fenceScript, Script.image_append, List.length_append, putU64, putI64, putReason, putU16, image_putLE,
    length_leBytes, kMaxCanonicalBytes]
  omega

/-- **`codecs_lossless`**. -/
theorem codecs_lossless (limits : RuntimeLimits) :
    (∀ d, IntentOk limits d → (∀ e ∈ d.subjects.entries, e.2.id = e.1) →
      (intentScript d).image.length ≤ kMaxCanonicalBytes → Lossless (decodeIntent limits) (encodeIntent d) d) ∧
    (∀ d, ObservationOk limits d → (∀ e ∈ d.subjects.entries, e.2.id = e.1) →
      (observationScript d).image.length ≤ kMaxCanonicalBytes →
      Lossless (decodeObservation limits) (encodeObservation d) d) ∧
    (∀ s, SubmissionOk limits s → (∀ e ∈ s.subjects.entries, e.2.id = e.1) →
      (submissionScript s).image.length ≤ kMaxCanonicalBytes →
      Lossless (decodeSubmission limits) (encodeSubmission s) s) ∧
    (∀ policy, PolicyOk limits policy → (policyScript policy).image.length ≤ kMaxCanonicalBytes →
      Lossless (decodePolicy limits) (encodePolicy policy) policy) ∧
    (∀ v : AuthorityVector, Lossless AuthorityVector.decode (encoded v.encode) v) ∧
    (∀ a, AttemptOk limits a → (attemptScript a).image.length ≤ kMaxCanonicalBytes →
      Lossless (decodeAttempt limits) (encodeAttempt a) a) ∧
    (∀ o, OutcomeOk o → Lossless decodeOutcome (encodeOutcome o) o) ∧
    ∀ f, FenceOk f → Lossless decodeFence (encodeFence f) f := by
  refine ⟨?_, ?_, ?_, ?_, ?_, ?_, ?_, ?_⟩
  · intro d hok hid hfit
    rw [encodeIntent, encoded, finish_of_fits (total_intentScript hok) hfit]
    exact (reads_intent_keyed hok hid hfit).lossless
  · intro d hok hid hfit
    rw [encodeObservation, encoded, finish_of_fits (total_observationScript hok) hfit]
    exact (reads_observation_keyed hok hid hfit).lossless
  · intro s hok hid hfit
    rw [encodeSubmission, encoded, finish_of_fits (total_submissionScript hok) hfit]
    exact (reads_submission hok hid hfit).lossless
  · intro policy hok hfit
    rw [encodePolicy, encoded, finish_of_fits (total_policyScript policy) hfit]
    exact (reads_policy hok hfit).lossless
  · intro v
    rw [encoded, finish_of_fits v.total_encode (authority_fits v)]
    exact v.reads_authority.lossless
  · intro a hok hfit
    have hreads : Reads (decodeAttempt limits) _ _ := reads_attempt hfit
    rw [if_pos hok] at hreads
    rw [encodeAttempt, encoded, finish_of_fits (total_attemptScript a) hfit]
    exact hreads.lossless
  · intro o hok
    have hreads := reads_outcome o
    rw [if_pos hok] at hreads
    rw [encodeOutcome, encoded, finish_of_fits (total_outcomeScript o) (outcome_fits o)]
    exact hreads.lossless
  · intro f hok
    have hreads := reads_fence (total_fenceScript hok) (fence_fits hok)
    rw [if_pos hok] at hreads
    rw [encodeFence, encoded, finish_of_fits (total_fenceScript hok) (fence_fits hok)]
    exact hreads.lossless

/-! ### One value of each kind -/

/-- The identity `a`. -/
def tinyId {tag : IdTag} : StringId tag := ⟨[0x61], valid_a⟩

def tinyAuthority : AuthorityVector where
  coordinatorEpoch := 1
  boot := FixedBytes.zero
  policyId := tinyId
  policyVersion := 1
  policyDigest := FixedBytes.zero
  definition := tinyId
  intentGeneration := 1
  intent := tinyId
  intentDigest := FixedBytes.zero
  observation := tinyId
  observationGeneration := 1
  observationReporter := tinyId
  observationDigest := FixedBytes.zero
  observationEpoch := 1
  observationReceivedUnixMs := 0

def tinyPolicy : ReconciliationPolicy := { id := tinyId, version := 1 }

def tinyIntent : IntentDocument :=
  let blank : IntentDocument := ⟨tinyId, tinyId, tinyId, 1, 1, .real, true, OrdMap.empty, FixedBytes.zero⟩
  { blank with digest := computeIntentDigest blank }

def tinyObservation : ObservationDocument :=
  let blank : ObservationDocument := ⟨tinyId, tinyId, tinyId, 1, .real, true, true, 1, 0, OrdMap.empty, FixedBytes.zero⟩
  { blank with digest := computeObservationDigest blank }

def tinySubmission : ObservationSubmission := ⟨tinyId, tinyId, tinyId, 1, .real, true, true, OrdMap.empty⟩

def tinyAttempt : AttemptRecord :=
  ⟨1, FixedBytes.zero, tinyId, tinyId, .applyDesired, 1, FixedBytes.zero, tinyAuthority, .dispatched, 0, []⟩

theorem subjectsOk_empty (limits : RuntimeLimits) : SubjectsOk limits OrdMap.empty :=
  ⟨Nat.zero_le _, by simp [OrdMap.empty], by simp [OrdMap.empty]⟩

/-- The smallest values of each kind. -/
theorem codecs_lossless_tiny :
    Lossless (decodeIntent {}) (encodeIntent tinyIntent) tinyIntent ∧
    Lossless (decodeObservation {}) (encodeObservation tinyObservation) tinyObservation ∧
    Lossless (decodeSubmission {}) (encodeSubmission tinySubmission) tinySubmission ∧
    Lossless (decodePolicy {}) (encodePolicy tinyPolicy) tinyPolicy ∧
    Lossless AuthorityVector.decode (encoded tinyAuthority.encode) tinyAuthority ∧
    Lossless (decodeAttempt {}) (encodeAttempt tinyAttempt) tinyAttempt := by
  obtain ⟨hintent, hobservation, hsubmission, hpolicy, hauthority, hattempt, -, -⟩ := codecs_lossless {}
  have hkeys : ∀ e ∈ (OrdMap.empty : Subjects).entries, e.2.id = e.1 := by simp [OrdMap.empty]
  have hid : ∀ tag, (putBytes (tinyId : StringId tag).text).image.length = 5 := fun _ => rfl
  have hblank : (encodeSubjects OrdMap.empty).image.length = 4 := rfl
  refine ⟨hintent _ ?_ hkeys ?_, hobservation _ ?_ hkeys ?_, hsubmission _ ?_ hkeys ?_, hpolicy _ ?_ ?_, hauthority _,
    hattempt _ ?_ ?_⟩
  · exact ⟨rfl, rfl, rfl, subjectsOk_empty _, (computeIntentDigest_digest _ _).symm⟩
  · simp only [tinyIntent, intentScript, intentContent, Script.image_append, List.length_append, hid, hblank, putU64,
      putEnum, putBool, putDigest, image_putLE, image_putByte, image_putRaw, length_leBytes, FixedBytes.length_eq,
      List.length_singleton]
    decide
  · exact ⟨rfl, rfl, rfl, subjectsOk_empty _, (computeObservationDigest_digest _ _).symm⟩
  · simp only [tinyObservation, observationScript, observationContent, Script.image_append, List.length_append, hid,
      hblank, putU64, putI64, putEnum, putBool, putDigest, image_putLE, image_putByte, image_putRaw, length_leBytes,
      FixedBytes.length_eq, List.length_singleton]
    decide
  · exact ⟨rfl, rfl, rfl, subjectsOk_empty _⟩
  · decide
  · exact ⟨rfl, by decide, Nat.zero_le _, Nat.zero_le _, .nil, .nil, by simp [tinyPolicy], by simp [tinyPolicy]⟩
  · have hcontent : (policyContent tinyPolicy).image.length ≤ 100 := by decide
    rw [policyScript, Script.image_append, List.length_append, putDigest, image_putRaw, FixedBytes.length_eq]
    exact le_trans (Nat.add_le_add_right hcontent 32) (by decide)
  · decide
  · decide +kernel

end FabricReconciliation
