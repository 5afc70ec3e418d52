import FabricReconciliation.Classifier
import FabricReconciliation.Retries
import FabricReconciliation.Session

/-!
# Ages and stamps (`drift.cpp:266-281`, `engine.cpp:341-365`, `server.cpp:199-218`)

The age of an observation is the difference of two 64-bit readings, taken without a check, and one of the
two is the stamp that came with the submission.

* **`fresh_exact_iff`** — `EvaluateFreshness` is right exactly where the difference is in range;
* **`oldest_is_fresh`** — the oldest stamp there is, recorded and Fresh;
* **`receipt_bound_iff`** — a stored observation is Fresh for no longer than its policy allows after its receipt
  exactly when its stamp is between zero and the clock;
* **`stamped_ahead`** — a reporter that stamps its report a minute ahead.
-/

namespace FabricReconciliation

open Lib

/-! ## The difference -/

section Age

variable {policy : FreshnessPolicy} {d : ObservationDocument} {live : CoordinatorEpoch} {now : UnixMillis}

/-- The age over the integers. -/
def ageOf (d : ObservationDocument) (now : UnixMillis) : ℤ := now.toInt - d.receivedUnixMs.toInt

/-- The observation is of an epoch that the policy accepts. -/
def EpochAccepted (policy : FreshnessPolicy) (d : ObservationDocument) (live : CoordinatorEpoch) : Prop :=
  policy.requireCurrentEpoch = false ∨ d.receivedEpoch = live

/-- The age is one that the policy accepts. -/
def AgeAccepted (policy : FreshnessPolicy) (d : ObservationDocument) (now : UnixMillis) : Prop :=
  policy.maxObservationAgeMs = 0 ∨ 0 ≤ ageOf d now ∧ ageOf d now ≤ policy.maxObservationAgeMs.toInt

/-- The subtraction is reached, and its result is no 64-bit value. -/
def Overflows (policy : FreshnessPolicy) (d : ObservationDocument) (live : CoordinatorEpoch) (now : UnixMillis) : Prop :=
  EpochAccepted policy d live ∧ 0 < policy.maxObservationAgeMs ∧ 2 ^ 63 ≤ ageOf d now

instance : Decidable (EpochAccepted policy d live) := inferInstanceAs (Decidable (_ ∨ _))

instance : Decidable (AgeAccepted policy d now) := inferInstanceAs (Decidable (_ ∨ _))

instance : Decidable (Overflows policy d live now) := inferInstanceAs (Decidable (_ ∧ _))

theorem reading_range (x : UnixMillis) : -2 ^ 63 ≤ x.toInt ∧ x.toInt < 2 ^ 63 :=
  ⟨x.le_toInt, x.toInt_lt⟩

theorem exists_reading {k : ℤ} (hlow : -2 ^ 63 ≤ k) (hhigh : k < 2 ^ 63) : ∃ x : UnixMillis, x.toInt = k :=
  ⟨Int64.ofInt k, Int64.toInt_ofInt_of_le hlow hhigh⟩

/-- Where the difference of two readings is in range, it is their difference. -/
theorem toInt_sub_of_age (h : 0 ≤ ageOf d now) (hrange : ageOf d now < 2 ^ 63) :
    (now - d.receivedUnixMs).toInt = ageOf d now := by
  rw [Int64.toInt_sub, ← ageOf, Int.bmod_eq_of_le] <;> omega

/-- Beyond the range it has wrapped around, and is negative. -/
theorem toInt_sub_of_overflow (h : 2 ^ 63 ≤ ageOf d now) : (now - d.receivedUnixMs).toInt = ageOf d now - 2 ^ 64 := by
  have hnow := reading_range now
  have hreceived := reading_range d.receivedUnixMs
  rw [Int64.toInt_sub, ← ageOf]
  unfold ageOf at h ⊢
  rw [← Int.sub_bmod_right, Int.bmod_eq_of_le] <;> omega

/-- `EvaluateFreshness` over the integers. -/
theorem evaluateFreshness_iff (hcanonical : ¬policy.maxObservationAgeMs < 0) :
    evaluateFreshness d policy live now = .fresh ↔
      EpochAccepted policy d live ∧ (AgeAccepted policy d now ∨ Overflows policy d live now) := by
  have hnonneg : 0 ≤ policy.maxObservationAgeMs.toInt := by
    simpa using Int64.le_iff_toInt_le.mp (Int64.not_lt.mp hcanonical)
  have hmax := (reading_range policy.maxObservationAgeMs).2
  by_cases hepoch : EpochAccepted policy d live
  · have hepochs : (policy.requireCurrentEpoch && d.receivedEpoch != live) = false := by
      rcases hepoch with hany | hsame
      · simp [hany]
      · simp [hsame]
    unfold evaluateFreshness
    rw [if_neg (by simp [hepochs])]
    by_cases hbounded : 0 < policy.maxObservationAgeMs
    · have hpositive : 0 < policy.maxObservationAgeMs.toInt := by simpa using Int64.lt_iff_toInt_lt.mp hbounded
      have hnot : policy.maxObservationAgeMs ≠ 0 := by
        rintro hzero
        simp [hzero] at hbounded
      rw [if_pos hbounded]
      by_cases hbefore : now < d.receivedUnixMs
      · have hnegative : ageOf d now < 0 := by
          have := Int64.lt_iff_toInt_lt.mp hbefore
          unfold ageOf
          omega
        rw [if_pos hbefore]
        simp only [reduceCtorEq, false_iff, AgeAccepted, Overflows, hnot, false_or]
        rintro ⟨-, ⟨hage, -⟩ | ⟨-, -, hage⟩⟩ <;> omega
      · have hage : 0 ≤ ageOf d now := by
          have := Int64.le_iff_toInt_le.mp (Int64.not_lt.mp hbefore)
          unfold ageOf
          omega
        have hverdict : (if policy.maxObservationAgeMs < now - d.receivedUnixMs then FreshnessVerdict.expired else .fresh) =
            .fresh ↔ (now - d.receivedUnixMs).toInt ≤ policy.maxObservationAgeMs.toInt := by
          rw [← Int64.le_iff_toInt_le, ← Int64.not_lt]
          by_cases hold : policy.maxObservationAgeMs < now - d.receivedUnixMs <;> simp [hold]
        rw [if_neg hbefore, hverdict]
        simp only [AgeAccepted, Overflows, hnot, false_or, hepoch, hbounded, true_and]
        by_cases hrange : ageOf d now < 2 ^ 63
        · rw [toInt_sub_of_age hage hrange]
          omega
        · rw [toInt_sub_of_overflow (not_lt.mp hrange)]
          have := reading_range now
          have := reading_range d.receivedUnixMs
          unfold ageOf at *
          omega
    · have hzero : policy.maxObservationAgeMs = 0 := by
        refine Int64.toInt_inj.mp (le_antisymm ?_ hnonneg)
        simpa using Int64.le_iff_toInt_le.mp (Int64.not_lt.mp hbounded)
      rw [if_neg hbounded]
      simp [hepoch, AgeAccepted, hzero]
  · have hepochs : (policy.requireCurrentEpoch && d.receivedEpoch != live) = true := by
      simp only [EpochAccepted, not_or] at hepoch
      simp [hepoch]
    unfold evaluateFreshness
    rw [if_pos hepochs]
    simp [hepoch]

/-- **`fresh_exact_iff`**: `EvaluateFreshness` says Fresh of what is Fresh by the integers, and of nothing else,
exactly when it does not take a difference that is out of range. -/
theorem fresh_exact_iff {limits : RuntimeLimits} {governing : ReconciliationPolicy} (hcanonical : PolicyOk limits governing) :
    (evaluateFreshness d governing.freshness live now = .fresh ↔
        EpochAccepted governing.freshness d live ∧ AgeAccepted governing.freshness d now) ↔
      ¬Overflows governing.freshness d live now := by
  rw [evaluateFreshness_iff hcanonical.age]
  constructor
  · intro hexact hoverflows
    obtain ⟨-, hage⟩ := hexact.mp ⟨hoverflows.1, .inr hoverflows⟩
    obtain ⟨-, hbounded, hout⟩ := hoverflows
    have hmax := (reading_range governing.freshness.maxObservationAgeMs).2
    rcases hage with hzero | hage
    · simp [hzero] at hbounded
    · omega
  · intro hin
    simp [hin]

end Age

/-- A report that is five hundred milliseconds old is Fresh. -/
theorem fresh_exact_iff_default : let d := (sampleReport 1).document 1 1000
    evaluateFreshness d defaultPolicy.freshness 1 1500 = .fresh ∧ EpochAccepted defaultPolicy.freshness d 1 ∧
      AgeAccepted defaultPolicy.freshness d 1500 := by
  intro d
  have hages : EpochAccepted defaultPolicy.freshness d 1 ∧ AgeAccepted defaultPolicy.freshness d 1500 := by decide
  have hrange : ¬Overflows defaultPolicy.freshness d 1 1500 := by decide
  exact ⟨((fresh_exact_iff defaultPolicy_ok).mpr hrange).mpr hages, hages⟩

/-- Reports are taken under the stamps they come with. -/
def sampleStamped (stamp : UnixMillis) : Process := sampleIntended.after (.call (.recordObservationAt (sampleReport 1) stamp) {})

theorem sampleStamped_run (stamp : UnixMillis) : Run {} Process.Orderly (sampleStamped stamp) := by
  rw [sampleStamped]
  exact (sampleIntended_allowed trivial (.inl rfl)).after (.inl rfl) (by simp)

/-- **`oldest_is_fresh`**: a stamp from the beginning of the range is admitted, and is Fresh ever after. -/
theorem oldest_is_fresh : Run {} Process.Orderly (sampleStamped Int64.minValue) ∧
    ∃ e d, sampleStamped Int64.minValue = .up e ∧ d ∈ e.store.state.stream sampleScope ∧
      d.receivedUnixMs = Int64.minValue ∧ evaluateFreshness d e.store.state.policy.freshness e.live.epoch 1 = .fresh ∧
      PolicyOk {} e.store.state.policy ∧ ¬AgeAccepted e.store.state.policy.freshness d 1 := by
  have hruns : ((sampleStamped Int64.minValue).runs fun e => e.store.state.policy = defaultPolicy &&
      (e.store.state.stream sampleScope).any fun d => d.receivedUnixMs = Int64.minValue &&
        evaluateFreshness d e.store.state.policy.freshness e.live.epoch 1 = .fresh &&
        decide (¬AgeAccepted e.store.state.policy.freshness d 1)) = true := by
    rw [sampleStamped, sampleIntended_eq]
    decide +kernel
  obtain ⟨e, he, hfacts⟩ := Process.runs_iff.mp hruns
  simp only [Bool.and_eq_true, decide_eq_true_eq, List.any_eq_true] at hfacts
  obtain ⟨hpolicy, d, hd, ⟨hreceived, hfresh⟩, hage⟩ := hfacts
  exact ⟨sampleStamped_run _, e, d, he, hd, hreceived, hfresh, hpolicy ▸ defaultPolicy_ok, hage⟩

/-! ## The operation of the server -/

/-- `ObservationCommitResult{}`. -/
def ObservationCommitResult.blank : ObservationCommitResult where
  duplicate := false
  stamped :=
    { observation := StringId.none, scope := StringId.none, reporter := StringId.none, generation := 0
      evidence := .unknown, complete := true, authoritativeAbsence := false, receivedEpoch := 0, receivedUnixMs := 0
      subjects := OrdMap.empty, digest := FixedBytes.zero }

/-- The body of a RecordObservation request: the submission's bytes and a stamp. -/
def decodeRecordObservation : Bytes → Option (Bytes × UnixMillis) := Reader.exactly do
  let submissionBytes ← Read.bytes
  let stamp ← Read.i64
  return (submissionBytes, stamp)

/-- `FromStatus` (`server.cpp:49`). -/
def fromStatus (status : Status) (body : Bytes) : Response := { makeError status with body := body }

/-- The RecordObservation operation of `Handle` (`server.cpp:199`), under the server's own limits. -/
def Engine.handleRecordObservation (e : Engine) (serverLimits : RuntimeLimits) (env : CallEnv) (body : Bytes) :
    Response × Engine :=
  match decodeRecordObservation body with
  | none => (makeError ⟨.rejected, .unsupportedInput, "malformed RecordObservation request"⟩, e)
  | some (submissionBytes, stamp) =>
    match (decodeSubmission serverLimits).exactly submissionBytes with
    | none => (makeError ⟨.rejected, .unsupportedInput, "observation payload failed validation"⟩, e)
    | some submission =>
      let done := e.recordObservationAt env submission stamp
      let result := done.2.1.getD .blank
      (fromStatus done.1 (encoded (putBool result.duplicate ++ putBytes (encodeObservation result.stamped))), done.2.2)

/-- The request stores the observation. -/
structure Stores (e : Engine) (serverLimits : RuntimeLimits) (env : CallEnv) (body : Bytes) (d : ObservationDocument) :
    Prop where
  absent : d ∉ e.store.state.stream d.scope
  stored : d ∈ (e.handleRecordObservation serverLimits env body).2.store.state.stream d.scope

/-- The observation is Fresh for no longer than the policy's bound after the clock reading. -/
def FreshWithin (d : ObservationDocument) (clock : UnixMillis) : Prop :=
  ∀ (policy : FreshnessPolicy) (live : CoordinatorEpoch) (now : UnixMillis), 0 < policy.maxObservationAgeMs → clock ≤ now →
    evaluateFreshness d policy live now = .fresh → now.toInt - clock.toInt ≤ policy.maxObservationAgeMs.toInt

/-- The stamp, or the clock where there is none, is not before zero and not after the clock. -/
def StampedInTime (stamp clock : UnixMillis) : Prop := if stamp = 0 then 0 ≤ clock.toInt else 0 ≤ stamp.toInt ∧ stamp ≤ clock

section Receipt

variable {limits serverLimits : RuntimeLimits} {e : Engine} {env : CallEnv} {body submissionBytes : Bytes}
  {stamp clock : UnixMillis} {d : ObservationDocument}

/-- What a request stores is stamped with its stamp, or with the clock. -/
theorem Stores.received (hrun : Run limits Process.Orderly (.up e))
    (hbody : decodeRecordObservation body = some (submissionBytes, stamp)) (h : Stores e serverLimits env body d) :
    d.receivedUnixMs = if stamp = 0 then env.now else stamp := by
  have hstored := h.stored
  unfold Engine.handleRecordObservation at hstored
  rw [hbody] at hstored
  cases hsubmission : (decodeSubmission serverLimits).exactly submissionBytes with
  | none =>
    simp only [hsubmission] at hstored
    exact absurd hstored h.absent
  | some submission =>
    simp only [hsubmission] at hstored
    have hcall : d ∈ (e.call env (.recordObservationAt submission stamp)).2.store.state.stream d.scope := hstored
    rcases call_stream (run_tracked hrun) hcall with hold | ⟨submission', stamp', heq, hrecords⟩
    · exact absurd hold h.absent
    · injection heq with hsubmission' hstamp'
      subst hsubmission' hstamp'
      rw [hrecords.document]
      show (if stamp ≠ 0 then stamp else env.now) = _
      by_cases hzero : stamp = 0 <;> simp [hzero]

/-- How long a stamp keeps an observation Fresh. -/
theorem freshWithin_iff : FreshWithin d clock ↔
    0 ≤ d.receivedUnixMs.toInt ∧ d.receivedUnixMs ≤ clock ∨ 2 ^ 63 - 2 ≤ clock.toInt := by
  have hclock := reading_range clock
  have hreceived := reading_range d.receivedUnixMs
  constructor
  · intro hwithin
    by_contra hnot
    simp only [not_or, not_and, not_le] at hnot
    obtain ⟨hstamp, hbefore⟩ := hnot
    -- a bound of one millisecond is overrun
    have hoverrun : ∀ now : UnixMillis, clock.toInt + 2 ≤ now.toInt →
        ageOf d now = 0 ∨ ageOf d now = 1 ∨ 2 ^ 63 ≤ ageOf d now → False := by
      intro now hlate hage
      have hfresh : evaluateFreshness d ⟨1, false, false⟩ 0 now = .fresh := by
        refine (evaluateFreshness_iff (by decide)).mpr ⟨.inl rfl, ?_⟩
        have hone : (1 : Int64).toInt = 1 := rfl
        rcases hage with hnone | hsome | hover
        · exact .inl (.inr ⟨by omega, by show ageOf d now ≤ (1 : Int64).toInt; omega⟩)
        · exact .inl (.inr ⟨by omega, by show ageOf d now ≤ (1 : Int64).toInt; omega⟩)
        · exact .inr ⟨.inl rfl, by decide, hover⟩
      have hbound := hwithin ⟨1, false, false⟩ 0 now (by decide) (Int64.le_iff_toInt_le.mpr (by omega)) hfresh
      have hone : (1 : Int64).toInt = 1 := rfl
      change now.toInt - clock.toInt ≤ (1 : Int64).toInt at hbound
      omega
    by_cases hsign : 0 ≤ d.receivedUnixMs.toInt
    · have hahead : clock.toInt < d.receivedUnixMs.toInt := Int64.lt_iff_toInt_lt.mp (Int64.not_le.mp (hstamp hsign))
      by_cases hfar : clock.toInt + 2 ≤ d.receivedUnixMs.toInt
      · exact hoverrun d.receivedUnixMs hfar (.inl (by unfold ageOf; omega))
      · obtain ⟨now, hnow⟩ := exists_reading (k := d.receivedUnixMs.toInt + 1) (by omega) (by omega)
        exact hoverrun now (by omega) (.inr (.inl (by unfold ageOf; omega)))
    · obtain ⟨now, hnow⟩ := exists_reading (k := 2 ^ 63 - 1) (by omega) (by omega)
      exact hoverrun now (by omega) (.inr (.inr (by unfold ageOf; omega)))
  · rintro hin policy live now hbounded hafter hfresh
    have hpositive : 0 < policy.maxObservationAgeMs.toInt := by simpa using Int64.lt_iff_toInt_lt.mp hbounded
    have hnow := reading_range now
    have hafter' := Int64.le_iff_toInt_le.mp hafter
    rcases hin with ⟨hsign, hbefore⟩ | hend
    · have hbefore' := Int64.le_iff_toInt_le.mp hbefore
      obtain ⟨-, hage⟩ := (evaluateFreshness_iff (Int64.not_lt.mpr (Int64.le_of_lt hbounded))).mp hfresh
      rcases hage with (hzero | ⟨-, hage⟩) | ⟨-, -, hover⟩
      · simp [hzero] at hbounded
      · unfold ageOf at hage
        omega
      · unfold ageOf at hover
        omega
    · omega

/-- **`receipt_bound_iff`**: what the request stores is Fresh for no longer than the policy's bound after the host
clock's reading exactly when its stamp is in time, or the clock is at the end of its range. -/
theorem receipt_bound_iff (hrun : Run limits Process.Orderly (.up e))
    (hbody : decodeRecordObservation body = some (submissionBytes, stamp)) (hstores : Stores e serverLimits env body d) :
    FreshWithin d env.now ↔ StampedInTime stamp env.now ∨ 2 ^ 63 - 2 ≤ env.now.toInt := by
  rw [freshWithin_iff, hstores.received hrun hbody]
  unfold StampedInTime
  by_cases hzero : stamp = 0
  · simp [hzero]
  · simp [hzero]

end Receipt

instance (e : Engine) (serverLimits : RuntimeLimits) (env : CallEnv) (body : Bytes) (d : ObservationDocument) :
    Decidable (Stores e serverLimits env body d) :=
  decidable_of_iff (d ∉ e.store.state.stream d.scope ∧
      d ∈ (e.handleRecordObservation serverLimits env body).2.store.state.stream d.scope)
    ⟨fun h => ⟨h.1, h.2⟩, fun h => ⟨h.absent, h.stored⟩⟩

/-- A request for the sample report under a stamp. -/
def sampleRequest (stamp : UnixMillis) : Bytes := encoded (putBytes (encodeSubmission (sampleReport 1)) ++ putI64 stamp)

/-- The request is taken by the engine that holds the sample intent, at clock 1. -/
def requestStored (stamp : UnixMillis) : Bool :=
  sampleIntended.runs fun e =>
    decide (decodeRecordObservation (sampleRequest stamp) = some (encodeSubmission (sampleReport 1), stamp)) &&
    ((e.handleRecordObservation {} { now := 1 } (sampleRequest stamp)).2.store.state.stream sampleScope).any fun d =>
      decide (Stores e {} { now := 1 } (sampleRequest stamp) d)

theorem requestStored_iff {stamp : UnixMillis} (h : requestStored stamp = true) :
    ∃ e d, Run {} Process.Orderly (.up e) ∧
      decodeRecordObservation (sampleRequest stamp) = some (encodeSubmission (sampleReport 1), stamp) ∧
      Stores e {} { now := 1 } (sampleRequest stamp) d := by
  obtain ⟨e, he, hfacts⟩ := Process.runs_iff.mp h
  simp only [Bool.and_eq_true, decide_eq_true_eq, List.any_eq_true] at hfacts
  obtain ⟨hbody, d, -, hstores⟩ := hfacts
  have hrun : Run {} Process.Orderly (.up e) := by
    rw [← he]
    exact sampleIntended_allowed trivial (.inl rfl)
  exact ⟨e, d, hrun, hbody, hstores⟩

theorem sample_requests : requestStored 0 = true ∧ requestStored 60000 = true := by
  rw [requestStored, requestStored, sampleIntended_eq]
  decide +kernel

/-- Without a stamp the clock of the host is taken. -/
theorem receipt_bound_iff_unstamped : ∃ e d, Stores e {} { now := 1 } (sampleRequest 0) d ∧ FreshWithin d 1 := by
  obtain ⟨e, d, hrun, hbody, hstores⟩ := requestStored_iff sample_requests.1
  exact ⟨e, d, hstores, (receipt_bound_iff hrun hbody hstores).mpr (.inl (by simp [StampedInTime]))⟩

/-- **`stamped_ahead`**: a report stamped a minute ahead outlives the bound by that minute. -/
theorem stamped_ahead : ∃ e d, Run {} Process.Orderly (.up e) ∧
    decodeRecordObservation (sampleRequest 60000) = some (encodeSubmission (sampleReport 1), 60000) ∧
    Stores e {} { now := 1 } (sampleRequest 60000) d ∧
    evaluateFreshness d { maxObservationAgeMs := 30000, requireCurrentEpoch := false } 1 60000 = .fresh ∧
    ¬(60000 : UnixMillis).toInt - (1 : UnixMillis).toInt ≤ 30000 := by
  obtain ⟨e, d, hrun, hbody, hstores⟩ := requestStored_iff sample_requests.2
  refine ⟨e, d, hrun, hbody, hstores, (evaluateFreshness_iff (by decide)).mpr ⟨.inl rfl, .inl (.inr ?_)⟩, by decide⟩
  unfold ageOf
  rw [hstores.received hrun hbody]
  decide

end FabricReconciliation
