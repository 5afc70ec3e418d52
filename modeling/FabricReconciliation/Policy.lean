import FabricReconciliation.Value

/-!
# Reconciliation policy (`policy.hpp`, `policy.cpp`)

* **`canonicalisePolicy_ok`** — an accepted policy is in canonical form (`PolicyOk`);
* **`canonicalisePolicy_self`** — a canonical policy is left alone;
* **`reads_policy`, `decodePolicy_sound`** — the codec accepts exactly canonical policies.
-/

namespace FabricReconciliation

open Lib

/-- `FreshnessPolicy` (`policy.hpp:28`). -/
structure FreshnessPolicy where
  maxObservationAgeMs : Int64 := 30000
  requireCurrentEpoch : Bool := true
  requireCompleteCoverageForAbsence : Bool := true
deriving DecidableEq

/-- `ReconciliationPolicy` (`policy.hpp:47`). -/
structure ReconciliationPolicy where
  id : PolicyId := StringId.none
  version : PolicyVersion := 0
  freshness : FreshnessPolicy := {}
  permitApplyMissing : Bool := true
  permitApplyMismatched : Bool := true
  permitWithdrawUnexpected : Bool := true
  requireCompleteCoverageForConvergenceProof : Bool := true
  requireIndependentVerification : Bool := true
  unmanagedAttributes : List AttributeKey := []
  observeOnlyAttributes : List AttributeKey := []
deriving DecidableEq

/-- The text `default/fail-closed`. -/
def defaultPolicyId : PolicyId := ⟨ascii "default/fail-closed", .inr (by decide +kernel)⟩

/-- `DefaultPolicy` (`policy.cpp:13`). -/
def defaultPolicy : ReconciliationPolicy where
  id := defaultPolicyId
  version := 1

/-! ## Canonical form -/

/-- `max_attributes_per_subject * 16u`, in `std::size_t`. -/
def attributeListBound (limits : RuntimeLimits) : UInt64 := limits.maxAttributesPerSubject * 16

/-- The `sort_unique` step of `CanonicalisePolicy`, on both lists. -/
def sortAttributeLists (policy : ReconciliationPolicy) : ReconciliationPolicy :=
  { policy with
    unmanagedAttributes := sortUnique policy.unmanagedAttributes
    observeOnlyAttributes := sortUnique policy.observeOnlyAttributes }

/-- `CanonicalisePolicy` (`policy.cpp:32`). -/
def canonicalisePolicy (policy : ReconciliationPolicy) (limits : RuntimeLimits) :
    Except Status ReconciliationPolicy :=
  if policy.id.empty then
    .error ⟨.rejected, .unsupportedInput, "policy id must not be empty"⟩
  else if policy.freshness.maxObservationAgeMs < 0 then
    .error ⟨.rejected, .unsupportedInput, "max_observation_age_ms must not be negative"⟩
  else if (attributeListBound limits).toNat < policy.unmanagedAttributes.length ||
      (attributeListBound limits).toNat < policy.observeOnlyAttributes.length then
    .error ⟨.limitExceeded, .planActionLimitReached,
      "policy attribute lists exceed the configured bound"⟩
  else if (sortAttributeLists policy).unmanagedAttributes.any (·.empty) then
    .error ⟨.rejected, .unsupportedInput, "policy unmanaged attribute key must not be empty"⟩
  else if (sortAttributeLists policy).observeOnlyAttributes.any (·.empty) then
    .error ⟨.rejected, .unsupportedInput, "policy observe-only attribute key must not be empty"⟩
  else .ok (sortAttributeLists policy)

/-- The canonical policies of a configuration. -/
structure PolicyOk (limits : RuntimeLimits) (policy : ReconciliationPolicy) : Prop where
  id : policy.id.empty = false
  age : ¬ policy.freshness.maxObservationAgeMs < 0
  unmanagedBound : policy.unmanagedAttributes.length ≤ (attributeListBound limits).toNat
  observeOnlyBound : policy.observeOnlyAttributes.length ≤ (attributeListBound limits).toNat
  unmanagedSorted : policy.unmanagedAttributes.Pairwise (· < ·)
  observeOnlySorted : policy.observeOnlyAttributes.Pairwise (· < ·)
  unmanagedKeys : ∀ k ∈ policy.unmanagedAttributes, k.empty = false
  observeOnlyKeys : ∀ k ∈ policy.observeOnlyAttributes, k.empty = false

/-- **`canonicalisePolicy_ok`**: what `CanonicalisePolicy` returns is canonical. -/
theorem canonicalisePolicy_ok {policy canonical : ReconciliationPolicy} {limits : RuntimeLimits}
    (h : canonicalisePolicy policy limits = .ok canonical) : PolicyOk limits canonical := by
  unfold canonicalisePolicy at h
  split at h
  · simp at h
  · rename_i hid
    split at h
    · simp at h
    · rename_i hage
      split at h
      · simp at h
      · rename_i hbound
        simp only [Bool.or_eq_true, decide_eq_true_eq, not_or, Nat.not_lt] at hbound
        split at h
        · simp at h
        · rename_i hun
          split at h
          · simp at h
          · rename_i hob
            simp only [Except.ok.injEq] at h
            subst h
            have hl1 := length_sortUnique_le policy.unmanagedAttributes
            have hl2 := length_sortUnique_le policy.observeOnlyAttributes
            exact {
              id := by simpa [sortAttributeLists] using hid
              age := hage
              unmanagedBound := le_trans hl1 hbound.1
              observeOnlyBound := le_trans hl2 hbound.2
              unmanagedSorted := sortUnique_sorted _
              observeOnlySorted := sortUnique_sorted _
              unmanagedKeys := by simpa using hun
              observeOnlyKeys := by simpa using hob }

theorem defaultPolicy_canonical (limits : RuntimeLimits) : PolicyOk limits defaultPolicy :=
  ⟨rfl, by decide, Nat.zero_le _, Nat.zero_le _, .nil, .nil, by simp [defaultPolicy], by simp [defaultPolicy]⟩

/-- **`canonicalisePolicy_self`**: canonical policies are fixed points. -/
theorem canonicalisePolicy_self {policy : ReconciliationPolicy} {limits : RuntimeLimits}
    (h : PolicyOk limits policy) : canonicalisePolicy policy limits = .ok policy := by
  unfold canonicalisePolicy
  rw [if_neg (by simp [h.id]), if_neg h.age, if_neg (by
    have h1 := h.unmanagedBound
    have h2 := h.observeOnlyBound
    simp only [Bool.or_eq_true, decide_eq_true_eq, not_or, Nat.not_lt]
    exact ⟨h1, h2⟩)]
  have hsort : sortAttributeLists policy = policy := by
    unfold sortAttributeLists
    rw [sortUnique_of_sorted h.unmanagedSorted, sortUnique_of_sorted h.observeOnlySorted]
  rw [hsort]
  have h1 : policy.unmanagedAttributes.any (·.empty) = false := by
    simpa using h.unmanagedKeys
  have h2 : policy.observeOnlyAttributes.any (·.empty) = false := by
    simpa using h.observeOnlyKeys
  simp [h1, h2]

/-! ## Codec -/

def encodeKey (key : AttributeKey) : Script := putBytes key.text

/-- Everything `ComputePolicyDigest` and `EncodePolicy` write before the digest. -/
def policyContent (policy : ReconciliationPolicy) : Script :=
  putU16 kCanonicalSchemaVersion ++ (putBytes policy.id.text ++ (putU64 policy.version ++
  (putI64 policy.freshness.maxObservationAgeMs ++ (putBool policy.freshness.requireCurrentEpoch ++
  (putBool policy.freshness.requireCompleteCoverageForAbsence ++ (putBool policy.permitApplyMissing ++
  (putBool policy.permitApplyMismatched ++ (putBool policy.permitWithdrawUnexpected ++
  (putBool policy.requireCompleteCoverageForConvergenceProof ++
  (putBool policy.requireIndependentVerification ++ (putCount policy.unmanagedAttributes.length ++
  (putEach encodeKey policy.unmanagedAttributes ++ (putCount policy.observeOnlyAttributes.length ++
  putEach encodeKey policy.observeOnlyAttributes)))))))))))))

/-- `ComputePolicyDigest` (`policy.cpp:67`). -/
def computePolicyDigest (policy : ReconciliationPolicy) : Digest := digestOf (policyContent policy)

def policyScript (policy : ReconciliationPolicy) : Script :=
  policyContent policy ++ putDigest (computePolicyDigest policy)

/-- `EncodePolicy` (`policy.cpp:91`). -/
def encodePolicy (policy : ReconciliationPolicy) : Bytes := encoded (policyScript policy)

def decodeKey : Reader AttributeKey := do
  let keyText ← Read.bytes
  Reader.ofOption (StringId.tryParse keyText)

/-- A counted attribute list, refused above the policy bound. -/
def decodeKeys (limits : RuntimeLimits) : Reader (List AttributeKey) := do
  let count ← Read.u32
  Reader.require (decide (count ≤ (attributeListBound limits).toNat))
  Reader.list count decodeKey

/-- `DecodePolicy` (`policy.cpp:123`). -/
def decodePolicy (limits : RuntimeLimits) : Reader ReconciliationPolicy := do
  let schema ← Read.u16
  Reader.require (schema == kCanonicalSchemaVersion)
  let idText ← Read.bytes
  let version ← Read.u64
  let maxAge ← Read.i64
  let requireEpoch ← Read.bool
  let requireCoverage ← Read.bool
  let applyMissing ← Read.bool
  let applyMismatched ← Read.bool
  let withdraw ← Read.bool
  let convergenceProof ← Read.bool
  let independent ← Read.bool
  let id ← Reader.ofOption (StringId.tryParse idText)
  let unmanaged ← decodeKeys limits
  let observeOnly ← decodeKeys limits
  let policy ← Reader.ofOption (canonicalisePolicy {
      id := id
      version := version
      freshness := {
        maxObservationAgeMs := maxAge
        requireCurrentEpoch := requireEpoch
        requireCompleteCoverageForAbsence := requireCoverage }
      permitApplyMissing := applyMissing
      permitApplyMismatched := applyMismatched
      permitWithdrawUnexpected := withdraw
      requireCompleteCoverageForConvergenceProof := convergenceProof
      requireIndependentVerification := independent
      unmanagedAttributes := unmanaged
      observeOnlyAttributes := observeOnly } limits).toOption
  let digest ← Read.digest
  Reader.require (digest == computePolicyDigest policy)
  return policy

/-- `DecodePolicyExact` (`policy.cpp:205`). -/
def decodePolicyExact (bytes : Bytes) (limits : RuntimeLimits) : Option ReconciliationPolicy :=
  (decodePolicy limits).exactly bytes

theorem total_encodeKeys (keys : List AttributeKey) : (putEach encodeKey keys).Total := by
  rw [total_putEach]
  exact fun k _ => total_putId k

theorem total_policyScript (policy : ReconciliationPolicy) : (policyScript policy).Total := by
  simp [policyScript, policyContent, total_encodeKeys]

theorem keys_length_le (keys : List AttributeKey) :
    keys.length ≤ (putEach encodeKey keys).image.length :=
  length_le_image_putEach (f := encodeKey) (fun k => image_putBytes_pos k.text (total_putId k)) keys

theorem reads_keys {limits : RuntimeLimits} {keys : List AttributeKey}
    (hbound : keys.length ≤ (attributeListBound limits).toNat) (hkeys : ∀ k ∈ keys, k.empty = false)
    (hsize : keys.length < 4294967296) :
    Reads (decodeKeys limits) (putCount keys.length ++ putEach encodeKey keys).image (some keys) := by
  rw [Script.image_append, image_putEach]
  refine Reads.bind (reads_count hsize) ?_
  refine Reads.require (by simpa using hbound) ?_
  refine reads_list fun k hk => ?_
  exact Reads.bind_end (reads_text k) (Reads.of_eq
    (by rw [StringId.tryParse_text (hkeys k hk)]; exact Reads.pure k) rfl rfl)

theorem policy_counts {policy : ReconciliationPolicy}
    (h : (policyScript policy).image.length ≤ kMaxCanonicalBytes) :
    policy.unmanagedAttributes.length < 4294967296 ∧
      policy.observeOnlyAttributes.length < 4294967296 := by
  have h1 := keys_length_le policy.unmanagedAttributes
  have h2 := keys_length_le policy.observeOnlyAttributes
  simp only [policyScript, policyContent, Script.image_append, List.length_append,
    kMaxCanonicalBytes] at h
  omega

/-- **`reads_policy`**: a canonical policy that fits the ceiling is read back. -/
theorem reads_policy {limits : RuntimeLimits} {policy : ReconciliationPolicy} (h : PolicyOk limits policy)
    (hfit : (policyScript policy).image.length ≤ kMaxCanonicalBytes) :
    Reads (decodePolicy limits) (policyScript policy).image (some policy) := by
  obtain ⟨hc1, hc2⟩ := policy_counts hfit
  have hk1 := reads_keys h.unmanagedBound h.unmanagedKeys hc1
  have hk2 := reads_keys h.observeOnlyBound h.observeOnlyKeys hc2
  rw [Script.image_append] at hk1 hk2
  simp only [policyScript, policyContent, Script.image_append, List.append_assoc]
  refine Reads.bind (reads_u16 (by decide)) ?_
  refine Reads.require (by decide) ?_
  refine Reads.bind (reads_text policy.id) ?_
  refine Reads.bind (reads_u64 policy.version) ?_
  refine Reads.bind (reads_i64 _) ?_
  refine Reads.bind (reads_bool _) ?_
  refine Reads.bind (reads_bool _) ?_
  refine Reads.bind (reads_bool _) ?_
  refine Reads.bind (reads_bool _) ?_
  refine Reads.bind (reads_bool _) ?_
  refine Reads.bind (reads_bool _) ?_
  refine Reads.bind (reads_bool _) ?_
  refine reads_tryParse h.id ?_
  rw [← List.append_assoc (putCount policy.unmanagedAttributes.length).image]
  refine Reads.bind hk1 ?_
  rw [← List.append_assoc (putCount policy.observeOnlyAttributes.length).image]
  refine Reads.bind hk2 ?_
  refine Reads.ofOption (a := policy) (by rw [canonicalisePolicy_self h]; rfl) ?_
  refine Reads.bind_end (reads_digest _) ?_
  exact Reads.require (by simp) (Reads.pure policy)

theorem eq_ok_of_toOption {ε α : Type} {e : Except ε α} {a : α} (h : e.toOption = some a) : e = .ok a := by
  cases e with
  | error x => simp [Except.toOption] at h
  | ok b => simpa [Except.toOption] using h

/-- **`decodePolicy_sound`**: only canonical policies are accepted. -/
theorem decodePolicy_sound {limits : RuntimeLimits} {bs rest : Bytes} {policy : ReconciliationPolicy}
    (h : decodePolicy limits bs = some (policy, rest)) : PolicyOk limits policy := by
  unfold decodePolicy at h
  simp only [Reader.bind_eq, Reader.pure_eq] at h
  iterate 15 obtain ⟨_, _, -, h⟩ := Reader.bind_eq_some.mp h
  obtain ⟨canonical, _, hc, h⟩ := Reader.bind_eq_some.mp h
  obtain ⟨hc, -⟩ := Reader.ofOption_eq_some.mp hc
  obtain ⟨_, _, -, h⟩ := Reader.bind_eq_some.mp h
  obtain ⟨_, _, -, h⟩ := Reader.bind_eq_some.mp h
  obtain ⟨rfl, -⟩ := Reader.pure_eq_some.mp h
  exact canonicalisePolicy_ok (eq_ok_of_toOption hc)

/-! ## Attribute lookups -/

/-- The loop of `std::lower_bound` over `[first, first + len)`; the first argument bounds the
halvings. -/
def lowerBound (keys : List AttributeKey) (key : AttributeKey) : Nat → Nat → Nat → Nat
  | 0, first, _ => first
  | fuel + 1, first, len =>
    if len = 0 then first
    else
      let half := len / 2
      match keys[first + half]? with
      | none => first
      | some middle =>
        if middle < key then lowerBound keys key fuel (first + half + 1) (len - half - 1)
        else lowerBound keys key fuel first half

/-- `std::binary_search`. -/
def binarySearch (keys : List AttributeKey) (key : AttributeKey) : Bool :=
  match keys[lowerBound keys key (keys.length + 1) 0 keys.length]? with
  | none => false
  | some found => !decide (key < found)

/-- `IsAttributeUnmanaged` (`policy.cpp:214`). -/
def isAttributeUnmanaged (policy : ReconciliationPolicy) (key : AttributeKey) : Bool :=
  binarySearch policy.unmanagedAttributes key

/-- `IsAttributeObserveOnly` (`policy.cpp:219`). -/
def isAttributeObserveOnly (policy : ReconciliationPolicy) (key : AttributeKey) : Bool :=
  binarySearch policy.observeOnlyAttributes key

end FabricReconciliation
