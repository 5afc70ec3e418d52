import FabricReconciliation.Canonical
import FabricReconciliation.Value

/-!
# Authority vectors (`authority.hpp`, `authority.cpp`)

* **`assessAuthority_proven`** — authority is proven exactly when every component binds;
* **`reads_authority`** — every authority vector is read back.
-/

namespace FabricReconciliation

open Lib

/-- `AuthorityComponent`, without the unused `None`. -/
inductive AuthorityComponent
  | coordinatorEpoch | bootIdentity | policyId | policyVersion | policyDigest | definition
  | intentGeneration | intentDigest | observationIdentity | observationGeneration
  | observationReporter | observationDigest | observationEpoch | observationFreshness | fence
deriving DecidableEq

/-- `AuthorityMask`. -/
abbrev AuthorityMask := UInt32

/-- `MaskOf`. -/
def maskOf : AuthorityComponent → AuthorityMask
  | .coordinatorEpoch => 0x1
  | .bootIdentity => 0x2
  | .policyId => 0x4
  | .policyVersion => 0x8
  | .policyDigest => 0x10
  | .definition => 0x20
  | .intentGeneration => 0x40
  | .intentDigest => 0x80
  | .observationIdentity => 0x100
  | .observationGeneration => 0x200
  | .observationReporter => 0x400
  | .observationDigest => 0x800
  | .observationEpoch => 0x1000
  | .observationFreshness => 0x2000
  | .fence => 0x4000

/-- `kComponentNames` (`authority.cpp:15`). -/
def kComponentNames : List (AuthorityComponent × String) :=
  [(.coordinatorEpoch, "coordinator-epoch"), (.bootIdentity, "boot-identity"),
   (.policyId, "policy-id"), (.policyVersion, "policy-version"), (.policyDigest, "policy-digest"),
   (.definition, "definition"), (.intentGeneration, "intent-generation"),
   (.intentDigest, "intent-digest"), (.observationIdentity, "observation-identity"),
   (.observationGeneration, "observation-generation"),
   (.observationReporter, "observation-reporter"), (.observationDigest, "observation-digest"),
   (.observationEpoch, "observation-epoch"), (.observationFreshness, "observation-freshness"),
   (.fence, "fence")]

/-- `RenderAuthorityMask` (`authority.cpp:44`). -/
def renderAuthorityMask (mask : AuthorityMask) : Bytes :=
  if mask = 0 then ascii "none"
  else
    let named := kComponentNames.filter fun entry => mask &&& maskOf entry.1 != 0
    (List.intersperse (ascii ",") (named.map fun entry => ascii entry.2)).flatten

/-- `AuthorityVector` (`authority.hpp:65`). -/
structure AuthorityVector where
  coordinatorEpoch : CoordinatorEpoch
  boot : BootId
  policyId : PolicyId
  policyVersion : PolicyVersion
  policyDigest : Digest
  definition : DefinitionId
  intentGeneration : IntentGeneration
  intent : IntentId
  intentDigest : Digest
  observation : ObservationId
  observationGeneration : ObservationGeneration
  observationReporter : ReporterId
  observationDigest : Digest
  observationEpoch : CoordinatorEpoch
  observationReceivedUnixMs : UnixMillis
deriving DecidableEq

namespace AuthorityVector

/-- `AuthorityVector::Encode` (`authority.cpp:61`). -/
def encode (v : AuthorityVector) : Script :=
  putU64 v.coordinatorEpoch ++ (putBoot v.boot ++ (putBytes v.policyId.text ++
  (putU64 v.policyVersion ++ (putDigest v.policyDigest ++ (putBytes v.definition.text ++
  (putU64 v.intentGeneration ++ (putBytes v.intent.text ++ (putDigest v.intentDigest ++
  (putBytes v.observation.text ++ (putU64 v.observationGeneration ++
  (putBytes v.observationReporter.text ++ (putDigest v.observationDigest ++
  (putU64 v.observationEpoch ++ putI64 v.observationReceivedUnixMs)))))))))))))

/-- `AuthorityVector::Decode` (`authority.cpp:80`). -/
def decode : Reader AuthorityVector := do
  let coordinatorEpoch ← Read.u64
  let boot ← Read.boot
  let policyIdText ← Read.bytes
  let policyVersion ← Read.u64
  let policyDigest ← Read.digest
  let definitionText ← Read.bytes
  let intentGeneration ← Read.u64
  let intentText ← Read.bytes
  let intentDigest ← Read.digest
  let observationText ← Read.bytes
  let observationGeneration ← Read.u64
  let reporterText ← Read.bytes
  let observationDigest ← Read.digest
  let observationEpoch ← Read.u64
  let observationReceived ← Read.i64
  -- a component that names no evidence is carried as empty text
  let policyId ← Reader.ofOption (StringId.parseOrEmpty policyIdText)
  let definition ← Reader.ofOption (StringId.parseOrEmpty definitionText)
  let intent ← Reader.ofOption (StringId.parseOrEmpty intentText)
  let observation ← Reader.ofOption (StringId.parseOrEmpty observationText)
  let reporter ← Reader.ofOption (StringId.parseOrEmpty reporterText)
  return {
    coordinatorEpoch := coordinatorEpoch, boot := boot, policyId := policyId
    policyVersion := policyVersion, policyDigest := policyDigest, definition := definition
    intentGeneration := intentGeneration, intent := intent, intentDigest := intentDigest
    observation := observation, observationGeneration := observationGeneration
    observationReporter := reporter, observationDigest := observationDigest
    observationEpoch := observationEpoch, observationReceivedUnixMs := observationReceived }

theorem total_encode (v : AuthorityVector) : v.encode.Total := by simp [encode]

/-- **`reads_authority`**. -/
theorem reads_authority (v : AuthorityVector) : Reads decode v.encode.image (some v) := by
  simp only [encode, Script.image_append]
  refine Reads.bind (reads_u64 _) ?_
  refine Reads.bind (reads_boot _) ?_
  refine Reads.bind (reads_text _) ?_
  refine Reads.bind (reads_u64 _) ?_
  refine Reads.bind (reads_digest _) ?_
  refine Reads.bind (reads_text _) ?_
  refine Reads.bind (reads_u64 _) ?_
  refine Reads.bind (reads_text _) ?_
  refine Reads.bind (reads_digest _) ?_
  refine Reads.bind (reads_text _) ?_
  refine Reads.bind (reads_u64 _) ?_
  refine Reads.bind (reads_text _) ?_
  refine Reads.bind (reads_digest _) ?_
  refine Reads.bind (reads_u64 _) ?_
  refine Reads.bind_end (reads_i64 _) ?_
  refine reads_parseOrEmpty ?_
  refine reads_parseOrEmpty ?_
  refine reads_parseOrEmpty ?_
  refine reads_parseOrEmpty ?_
  refine reads_parseOrEmpty ?_
  exact Reads.pure v

end AuthorityVector

/-! ## Assessment -/

/-- `LiveAuthority` (`authority.hpp:107`). -/
structure LiveAuthority where
  coordinatorEpoch : CoordinatorEpoch
  boot : BootId
  policyId : PolicyId
  policyVersion : PolicyVersion
  policyDigest : Digest

/-- `AuthorityAssessment` (`authority.hpp:98`). -/
structure AuthorityAssessment where
  proven : Bool
  reason : ReasonCode
  failedComponents : AuthorityMask

/-- `mask = Combine(mask, MaskOf(component))` when the component failed. -/
def flag (failed : Bool) (component : AuthorityComponent) : AuthorityMask :=
  if failed then maskOf component else 0

/-- The components that fail to bind. -/
def failedComponents (vector : AuthorityVector) (live : LiveAuthority) (freshnessOk fenceHolds : Bool) :
    AuthorityMask :=
  flag (vector.coordinatorEpoch != live.coordinatorEpoch) .coordinatorEpoch |||
  flag (vector.boot != live.boot) .bootIdentity |||
  flag (vector.policyId.empty || vector.policyId != live.policyId) .policyId |||
  flag (vector.policyVersion != live.policyVersion) .policyVersion |||
  flag (vector.policyDigest != live.policyDigest) .policyDigest |||
  flag vector.definition.empty .definition |||
  flag (vector.intentGeneration == 0) .intentGeneration |||
  flag vector.intent.empty .intentDigest |||
  flag vector.observation.empty .observationIdentity |||
  flag (vector.observationGeneration == 0) .observationGeneration |||
  flag vector.observationReporter.empty .observationReporter |||
  flag (vector.observationEpoch != live.coordinatorEpoch) .observationEpoch |||
  flag (!freshnessOk) .observationFreshness |||
  flag fenceHolds .fence

def hasComponent (mask : AuthorityMask) (component : AuthorityComponent) : Bool :=
  mask &&& maskOf component != 0

/-- The reason for a failed mask, most specific concern first. -/
def assessmentReason (mask : AuthorityMask) (freshnessReason : ReasonCode) : ReasonCode :=
  if hasComponent mask .fence then .scopeFenced
  else if hasComponent mask .observationFreshness then freshnessReason
  else if hasComponent mask .coordinatorEpoch || hasComponent mask .bootIdentity then
    .authorityEpochMismatch
  else if hasComponent mask .policyId || hasComponent mask .policyVersion ||
      hasComponent mask .policyDigest then .authorityPolicyMismatch
  else if hasComponent mask .intentGeneration || hasComponent mask .intentDigest then
    .authorityIntentGenerationMismatch
  else if hasComponent mask .definition then .authorityDefinitionMismatch
  else .authorityObservationGenerationMismatch

/-- `AssessAuthority` (`authority.cpp:175`). -/
def assessAuthority (vector : AuthorityVector) (live : LiveAuthority) (freshnessReason : ReasonCode)
    (freshnessOk fenceHolds : Bool) : AuthorityAssessment :=
  let mask := failedComponents vector live freshnessOk fenceHolds
  { proven := mask == 0
    reason := if mask == 0 then .authorityProven else assessmentReason mask freshnessReason
    failedComponents := mask }

theorem flag_eq_zero {failed : Bool} {component : AuthorityComponent} :
    flag failed component = 0 ↔ failed = false := by
  cases failed with
  | false => simp [flag]
  | true => cases component <;> simp [flag, maskOf]

/-- What a proven assessment establishes. -/
structure Proven (vector : AuthorityVector) (live : LiveAuthority) (freshnessOk fenceHolds : Bool) : Prop where
  coordinatorEpoch : vector.coordinatorEpoch = live.coordinatorEpoch
  boot : vector.boot = live.boot
  policyIdSet : vector.policyId.empty = false
  policyId : vector.policyId = live.policyId
  policyVersion : vector.policyVersion = live.policyVersion
  policyDigest : vector.policyDigest = live.policyDigest
  definition : vector.definition.empty = false
  intentGeneration : vector.intentGeneration ≠ 0
  intent : vector.intent.empty = false
  observation : vector.observation.empty = false
  observationGeneration : vector.observationGeneration ≠ 0
  observationReporter : vector.observationReporter.empty = false
  observationEpoch : vector.observationEpoch = live.coordinatorEpoch
  fresh : freshnessOk = true
  unfenced : fenceHolds = false

/-- **`assessAuthority_proven`**: proven means that every component binds. -/
theorem assessAuthority_proven {vector : AuthorityVector} {live : LiveAuthority}
    {freshnessReason : ReasonCode} {freshnessOk fenceHolds : Bool} :
    (assessAuthority vector live freshnessReason freshnessOk fenceHolds).proven = true ↔
      Proven vector live freshnessOk fenceHolds := by
  simp only [assessAuthority, failedComponents, beq_iff_eq, UInt32.or_eq_zero_iff, flag_eq_zero,
    bne_eq_false_iff_eq, Bool.or_eq_false_iff, Bool.not_eq_false', beq_eq_false_iff_ne]
  constructor
  · rintro ⟨⟨⟨⟨⟨⟨⟨⟨⟨⟨⟨⟨⟨h1, h2⟩, h3, h3'⟩, h4⟩, h5⟩, h6⟩, h7⟩, h8⟩, h9⟩, h10⟩, h11⟩, h12⟩, h13⟩, h14⟩
    exact ⟨h1, h2, h3, h3', h4, h5, h6, h7, h8, h9, h10, h11, h12, h13, h14⟩
  · rintro ⟨h1, h2, h3, h3', h4, h5, h6, h7, h8, h9, h10, h11, h12, h13, h14⟩
    exact ⟨⟨⟨⟨⟨⟨⟨⟨⟨⟨⟨⟨⟨h1, h2⟩, h3, h3'⟩, h4⟩, h5⟩, h6⟩, h7⟩, h8⟩, h9⟩, h10⟩, h11⟩, h12⟩, h13⟩, h14⟩

end FabricReconciliation
