import FabricReconciliation.Identity

/-!
# Status, reason codes and resource limits (`status.hpp`, `limits.hpp`)

Enumerations are inductive types. Their wire value is their position in the source's
declaration (`Enumeration.raw`), and decoding a raw value is a table lookup, so "is the raw
value in range" and "which enumerator is it" are one operation.

`ReasonCode` is the exception: decoders accept every 16-bit value up to
`RestartLeasesNotRestored`, named or not, so a reason code is a number below 804.
-/

namespace FabricReconciliation

/-! ## Enumerations -/

/-- An enumeration whose enumerators are numbered from zero in the order of `table`. -/
class Enumeration (α : Type) [DecidableEq α] where
  table : List α
  complete : ∀ a : α, a ∈ table

namespace Enumeration

variable {α : Type} [DecidableEq α] [Enumeration α]

/-- `static_cast` to the underlying type. -/
def raw (a : α) : Nat := (table (α := α)).idxOf a

/-- The enumerator with a given raw value, when there is one. -/
def ofRaw (n : Nat) : Option α := (table (α := α))[n]?

theorem ofRaw_raw (a : α) : ofRaw (raw a) = some a := by
  unfold ofRaw raw
  exact List.getElem?_idxOf (complete a)

theorem raw_lt (a : α) : raw a < (table (α := α)).length := List.idxOf_lt_length_of_mem (complete a)

end Enumeration

/-! ## Status -/

inductive StatusCode
  | ok | rejected | conflictState | notFound | staleAuthority | limitExceeded | integrityFailure
  | unsupported | indeterminate | preconditionFailed | internalError
deriving DecidableEq

/-- `ReasonCode`: a raw value the decoders accept. -/
structure ReasonCode where
  raw : Fin 804
deriving DecidableEq

namespace ReasonCode

def none : ReasonCode := ⟨0⟩
def classifiedAlreadyConverged : ReasonCode := ⟨100⟩
def classifiedSubjectMissing : ReasonCode := ⟨101⟩
def classifiedSubjectUnexpected : ReasonCode := ⟨102⟩
def classifiedAttributeMismatch : ReasonCode := ⟨103⟩
def classifiedAttributeMissing : ReasonCode := ⟨104⟩
def classifiedAttributeUnexpected : ReasonCode := ⟨105⟩
def classifiedAttributeNotComparable : ReasonCode := ⟨106⟩
def observationExpired : ReasonCode := ⟨200⟩
def observationForeignEpoch : ReasonCode := ⟨201⟩
def observationClockRegression : ReasonCode := ⟨202⟩
def observationGenerationRegressed : ReasonCode := ⟨203⟩
def intentGenerationRegressed : ReasonCode := ⟨204⟩
def duplicateObservationIdentical : ReasonCode := ⟨205⟩
def duplicateIntentIdentical : ReasonCode := ⟨206⟩
def conflictingRepublishers : ReasonCode := ⟨207⟩
def noObservationForScope : ReasonCode := ⟨208⟩
def noIntentForScope : ReasonCode := ⟨209⟩
def observationCoverageIncomplete : ReasonCode := ⟨220⟩
def intentCoverageIncomplete : ReasonCode := ⟨221⟩
def observationCannotAssertAbsence : ReasonCode := ⟨222⟩
def attributeCoverageIncomplete : ReasonCode := ⟨223⟩
def authorityProven : ReasonCode := ⟨300⟩
def authorityEpochMismatch : ReasonCode := ⟨301⟩
def authorityPolicyMismatch : ReasonCode := ⟨303⟩
def authorityIntentGenerationMismatch : ReasonCode := ⟨304⟩
def authorityObservationGenerationMismatch : ReasonCode := ⟨305⟩
def authorityDefinitionMismatch : ReasonCode := ⟨306⟩
def scopeFenced : ReasonCode := ⟨310⟩
def fenceEpochNotNewer : ReasonCode := ⟨312⟩
def attemptInterruptedByRestart : ReasonCode := ⟨313⟩
def attemptFencedByEpochAdvance : ReasonCode := ⟨314⟩
def actionEligible : ReasonCode := ⟨400⟩
def policyForbidsApplyMissing : ReasonCode := ⟨402⟩
def policyForbidsApplyMismatch : ReasonCode := ⟨403⟩
def policyForbidsWithdrawUnexpected : ReasonCode := ⟨404⟩
def driftIsIndeterminate : ReasonCode := ⟨405⟩
def driftIsConflicted : ReasonCode := ⟨406⟩
def subjectKindUnsupported : ReasonCode := ⟨407⟩
def planActionLimitReached : ReasonCode := ⟨408⟩
def planTruncated : ReasonCode := ⟨409⟩
def unsupportedInput : ReasonCode := ⟨410⟩
def journalHeaderInvalid : ReasonCode := ⟨500⟩
def journalRecordDigestMismatch : ReasonCode := ⟨502⟩
def journalSequenceRegression : ReasonCode := ⟨503⟩
def journalTornTailRecovered : ReasonCode := ⟨504⟩
def journalTrailingGarbage : ReasonCode := ⟨505⟩
def journalPayloadLengthInvalid : ReasonCode := ⟨506⟩
def journalRecordTypeUnknown : ReasonCode := ⟨507⟩
def journalEnumInvalid : ReasonCode := ⟨508⟩
def snapshotDigestMismatch : ReasonCode := ⟨509⟩
def snapshotStoreMismatch : ReasonCode := ⟨510⟩
def snapshotAheadOfJournal : ReasonCode := ⟨511⟩
def durableWriteFailed : ReasonCode := ⟨512⟩
def snapshotReplacementFailed : ReasonCode := ⟨513⟩
def frameMagicInvalid : ReasonCode := ⟨600⟩
def frameVersionUnsupported : ReasonCode := ⟨601⟩
def frameTypeUnknown : ReasonCode := ⟨602⟩
def framePayloadTooLarge : ReasonCode := ⟨603⟩
def frameDigestMismatch : ReasonCode := ⟨604⟩
def frameTruncated : ReasonCode := ⟨605⟩
def frameTrailingBytes : ReasonCode := ⟨606⟩
def sessionIdentityMismatch : ReasonCode := ⟨608⟩
def sessionEpochMismatch : ReasonCode := ⟨609⟩
def sessionBootMismatch : ReasonCode := ⟨610⟩
def sessionSequenceRegression : ReasonCode := ⟨611⟩
def sessionClosed : ReasonCode := ⟨613⟩
def attemptIssued : ReasonCode := ⟨700⟩
def attemptAcknowledged : ReasonCode := ⟨701⟩
def attemptApplied : ReasonCode := ⟨702⟩
def attemptVerified : ReasonCode := ⟨703⟩
def attemptFailed : ReasonCode := ⟨704⟩
def attemptAbandoned : ReasonCode := ⟨705⟩
def attemptSuperseded : ReasonCode := ⟨706⟩
def attemptTerminalAlready : ReasonCode := ⟨707⟩
def attemptUnknown : ReasonCode := ⟨708⟩
def attemptTransitionIllegal : ReasonCode := ⟨709⟩
def verificationNotIndependent : ReasonCode := ⟨710⟩
def verificationNotNewer : ReasonCode := ⟨711⟩

instance : Inhabited ReasonCode := ⟨none⟩

/-- Decoding refuses what lies above `RestartLeasesNotRestored`. -/
def ofRaw (n : Nat) : Option ReasonCode := if h : n < 804 then some ⟨⟨n, h⟩⟩ else .none

theorem ofRaw_raw (r : ReasonCode) : ofRaw r.raw.val = some r := by
  simp [ofRaw, r.raw.isLt]

end ReasonCode

/-- `class Status`. -/
structure Status where
  code : StatusCode
  reason : ReasonCode
  detail : String
deriving DecidableEq

namespace Status

def ok : Status := ⟨.ok, .none, ""⟩

/-- `Status::Ok(reason)`. -/
def okWith (reason : ReasonCode) : Status := ⟨.ok, reason, ""⟩

end Status

/-! ## Resource envelope -/

/-- `EvidenceClass` (`limits.hpp:23`). -/
inductive EvidenceClass
  | unknown | real | synthetic | unsupported
deriving DecidableEq

instance : Enumeration EvidenceClass where
  table := [.unknown, .real, .synthetic, .unsupported]
  complete a := by cases a <;> decide

/-- `RuntimeLimits`: every field is a 64-bit `std::size_t`. -/
structure RuntimeLimits where
  maxScopes : UInt64 := 4096
  maxAttributesPerSubject : UInt64 := 256
  maxSubjectsPerDocument : UInt64 := 4000000
  maxJournalPayloadBytes : UInt64 := 8388608
  maxJournalBytes : UInt64 := 536870912
  maxRetainedObservationsPerScope : UInt64 := 8
  maxRetainedAttempts : UInt64 := 16384
  maxRetainedOutcomes : UInt64 := 16384
  maxAttemptTransitions : UInt64 := 16
  maxPlanActions : UInt64 := 262144
  maxExplanationSteps : UInt64 := 32
  maxWirePayloadBytes : UInt64 := 16777216
deriving DecidableEq

end FabricReconciliation
