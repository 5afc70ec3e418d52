import FabricReconciliation.Document

/-!
# Drift classification (`drift.hpp`, `drift.cpp`)

The classifier is a pure function of the candidate intents and observations of one scope, the
policy, the live epoch and a clock reading. Candidate lists hold `none` where the source's vectors
may hold a null pointer. The work counters of the report (`subject_visits`,
`attribute_comparisons`) feed nothing but statistics and are left out.
-/

namespace FabricReconciliation

open Lib

/-! ## Vocabulary -/

/-- `DriftClass` (`drift.hpp:33`). -/
inductive DriftClass
  | invalid | alreadyConverged | missing | unexpected | mismatched | staleObservation | staleIntent
  | conflict | unknown | unsupported
deriving DecidableEq

instance : Enumeration DriftClass where
  table := [.invalid, .alreadyConverged, .missing, .unexpected, .mismatched, .staleObservation,
    .staleIntent, .conflict, .unknown, .unsupported]
  complete a := by cases a <;> decide

/-- `AttributeDeltaKind` (`drift.hpp:73`). -/
inductive AttributeDeltaKind
  | invalid | valueMismatch | onlyInIntent | onlyInObservation | notComparable | unmanaged | observeOnly
deriving DecidableEq

/-- `AttributeDelta` (`drift.hpp:87`). -/
structure AttributeDelta where
  key : AttributeKey
  kind : AttributeDeltaKind
  intended : AttributeValue
  observed : AttributeValue
deriving DecidableEq

/-- `DriftRecord` (`drift.hpp:97`). -/
structure DriftRecord where
  scope : ScopeId
  subject : SubjectId
  drift : DriftClass
  reason : ReasonCode
  deltas : List AttributeDelta
  evidence : EvidenceClass
deriving DecidableEq

/-- `FreshnessVerdict` (`drift.hpp:109`). -/
inductive FreshnessVerdict
  | invalid | fresh | expired | foreignEpoch | clockRegression
deriving DecidableEq

namespace FreshnessVerdict

/-- `ToText(FreshnessVerdict)`. -/
def toText : FreshnessVerdict → String
  | invalid => "INVALID"
  | fresh => "FRESH"
  | expired => "EXPIRED"
  | foreignEpoch => "FOREIGN_EPOCH"
  | clockRegression => "CLOCK_REGRESSION"

/-- `ReasonOf(FreshnessVerdict)` (`drift.cpp:262`). -/
def reasonOf : FreshnessVerdict → ReasonCode
  | fresh => .none
  | expired => .observationExpired
  | foreignEpoch => .observationForeignEpoch
  | clockRegression => .observationClockRegression
  | invalid => .noObservationForScope

end FreshnessVerdict

/-- `EvaluateFreshness` (`drift.cpp:273`). -/
def evaluateFreshness (observation : ObservationDocument) (policy : FreshnessPolicy)
    (liveEpoch : CoordinatorEpoch) (nowUnixMs : UnixMillis) : FreshnessVerdict :=
  if policy.requireCurrentEpoch && observation.receivedEpoch != liveEpoch then .foreignEpoch
  else if 0 < policy.maxObservationAgeMs then
    if nowUnixMs < observation.receivedUnixMs then .clockRegression
    else if policy.maxObservationAgeMs < nowUnixMs - observation.receivedUnixMs then .expired
    else .fresh
  else .fresh

/-! ## Selection of the current evidence -/

/-- `IntentSelection` and `ObservationSelection`. -/
structure Selection (α : Type) where
  selected : Option α
  conflicted : Bool
  reason : ReasonCode

/-- Both selection functions: keep the greatest candidate, then refuse to choose when another
candidate of its generation carries other content. -/
def selectCurrent {α : Type} (less : α → α → Bool) (generation : α → UInt64) (digest : α → Digest)
    (noneReason : ReasonCode) (candidates : List (Option α)) : Selection α :=
  let best := candidates.foldl (fun selected candidate =>
    match candidate, selected with
    | none, _ => selected
    | some document, none => some document
    | some document, some current => if less current document then some document else some current) none
  match best with
  | none => ⟨none, false, noneReason⟩
  | some current =>
    if candidates.any fun candidate =>
        match candidate with
        | none => false
        | some document => generation document == generation current && digest document != digest current
    then ⟨none, true, .conflictingRepublishers⟩
    else ⟨some current, false, .none⟩

/-- A fold that keeps one of two candidates ends with one of them. -/
theorem foldl_choice_mem {α : Type} {f : Option α → Option α → Option α}
    (hf : ∀ best candidate d, f best candidate = some d → best = some d ∨ candidate = some d)
    {candidates : List (Option α)} {best : Option α} {d : α} (h : candidates.foldl f best = some d) :
    best = some d ∨ some d ∈ candidates := by
  induction candidates generalizing best with
  | nil => exact .inl h
  | cons candidate rest ih =>
    rcases ih h with hbest | hmem
    · rcases hf best candidate d hbest with hold | hnew
      · exact .inl hold
      · exact .inr (hnew ▸ List.mem_cons_self ..)
    · exact .inr (List.mem_cons_of_mem _ hmem)

/-- A fold that keeps the later one of two candidates ends with the latest. -/
theorem foldl_choice_top {α κ : Type} [Preorder κ] {f : Option α → Option α → Option α} {key : α → κ}
    (hf : ∀ best candidate x, best = some x ∨ candidate = some x →
      ∃ y, f best candidate = some y ∧ key x ≤ key y)
    {candidates : List (Option α)} {best : Option α} {x : α} (h : best = some x ∨ some x ∈ candidates) :
    ∃ y, candidates.foldl f best = some y ∧ key x ≤ key y := by
  induction candidates generalizing best x with
  | nil =>
    rcases h with hbest | hmem
    · exact ⟨x, hbest, le_refl _⟩
    · simp at hmem
  | cons candidate rest ih =>
    rw [List.mem_cons] at h
    by_cases hnow : best = some x ∨ candidate = some x
    · obtain ⟨y, hy, hle⟩ := hf best candidate x hnow
      obtain ⟨z, hz, hle'⟩ := ih (.inl hy)
      exact ⟨z, hz, le_trans hle hle'⟩
    · rcases h with hbest | hfirst | hrest
      · exact absurd (.inl hbest) hnow
      · exact absurd (.inr hfirst.symm) hnow
      · exact ih (.inr hrest)

/-- The step of the selection loop. -/
def chooseLater {α : Type} (less : α → α → Bool) (selected candidate : Option α) : Option α :=
  match candidate, selected with
  | none, _ => selected
  | some document, none => some document
  | some document, some current => if less current document then some document else some current

section Choice

variable {α κ : Type} [Preorder κ] {less : α → α → Bool} {best candidate : Option α} {key : α → κ} {x : α}

theorem chooseLater_cases (h : chooseLater less best candidate = some x) : best = some x ∨ candidate = some x := by
  unfold chooseLater at h
  cases candidate with
  | none => exact .inl h
  | some document =>
    cases best with
    | none => exact .inr h
    | some current =>
      simp only at h
      split at h
      · exact .inr h
      · exact .inl h

theorem chooseLater_top (hless : ∀ a b, less a b = true → key a ≤ key b)
    (hnot : ∀ a b, less a b = false → key b ≤ key a) (h : best = some x ∨ candidate = some x) :
    ∃ y, chooseLater less best candidate = some y ∧ key x ≤ key y := by
  unfold chooseLater
  cases candidate with
  | none => exact ⟨x, by simpa using h, le_refl _⟩
  | some document =>
    cases best with
    | none =>
      have hsame : document = x := by simpa using h
      exact ⟨document, rfl, by rw [hsame]⟩
    | some current =>
      simp only [Option.some.injEq] at h
      cases hcompare : less current document with
      | true =>
        refine ⟨document, by simp [hcompare], ?_⟩
        rcases h with rfl | rfl
        · exact hless _ _ hcompare
        · exact le_refl _
      | false =>
        refine ⟨current, by simp [hcompare], ?_⟩
        rcases h with rfl | rfl
        · exact le_refl _
        · exact hnot _ _ hcompare

variable {generation : α → UInt64} {digest : α → Digest} {noneReason : ReasonCode} {candidates : List (Option α)}
  {d : α}

/-- What is selected is the choice among the candidates. -/
theorem selectCurrent_choice (h : (selectCurrent less generation digest noneReason candidates).selected = some d) :
    candidates.foldl (chooseLater less) none = some d := by
  unfold selectCurrent at h
  simp only at h
  split at h
  · simp at h
  next current hbest =>
    split at h
    · simp at h
    · exact hbest.trans h

theorem selectCurrent_mem (h : (selectCurrent less generation digest noneReason candidates).selected = some d) :
    some d ∈ candidates :=
  (foldl_choice_mem (fun _ _ _ => chooseLater_cases) (selectCurrent_choice h)).resolve_left (by simp)

/-- It is the last candidate by any key that the comparison respects. -/
theorem selectCurrent_last (hless : ∀ a b, less a b = true → key a ≤ key b)
    (hnot : ∀ a b, less a b = false → key b ≤ key a)
    (h : (selectCurrent less generation digest noneReason candidates).selected = some d) :
    ∀ x, some x ∈ candidates → key x ≤ key d := by
  intro x hx
  obtain ⟨y, hy, hle⟩ := foldl_choice_top (fun _ _ _ => chooseLater_top hless hnot) (.inr hx)
  rw [selectCurrent_choice h, Option.some.injEq] at hy
  rw [hy]
  exact hle

end Choice

/-- What a selection by generation answers: nothing, a conflict at the last generation, or its document. -/
theorem selectCurrent_cases {α : Type} {less : α → α → Bool} {generation : α → UInt64}
    (digest : α → Digest) (noneReason : ReasonCode) (candidates : List (Option α))
    (hless : ∀ a b, less a b = true → generation a ≤ generation b)
    (hnot : ∀ a b, less a b = false → generation b ≤ generation a) :
    (∀ x, some x ∉ candidates) ∧
      selectCurrent less generation digest noneReason candidates = ⟨none, false, noneReason⟩ ∨
    ∃ current, some current ∈ candidates ∧ (∀ x, some x ∈ candidates → generation x ≤ generation current) ∧
      ((∃ x, some x ∈ candidates ∧ generation x = generation current ∧ digest x ≠ digest current) ∧
        selectCurrent less generation digest noneReason candidates = ⟨none, true, .conflictingRepublishers⟩ ∨
      (∀ x, some x ∈ candidates → generation x = generation current → digest x = digest current) ∧
        selectCurrent less generation digest noneReason candidates = ⟨some current, false, .none⟩) := by
  have hlater : ∀ x, some x ∈ candidates →
      ∃ y, candidates.foldl (chooseLater less) none = some y ∧ generation x ≤ generation y := fun x hx =>
    foldl_choice_top (fun _ _ _ => chooseLater_top hless hnot) (.inr hx)
  have hfold : (candidates.foldl (fun selected candidate =>
      match candidate, selected with
      | none, _ => selected
      | some document, none => some document
      | some document, some current => if less current document then some document else some current) none) =
      candidates.foldl (chooseLater less) none := rfl
  unfold selectCurrent
  rw [hfold]
  simp only
  cases hbest : candidates.foldl (chooseLater less) none with
  | none =>
    refine .inl ⟨?_, rfl⟩
    intro x hx
    obtain ⟨y, hy, -⟩ := hlater x hx
    rw [hbest] at hy
    simp at hy
  | some current =>
    refine .inr ⟨current, (foldl_choice_mem (fun _ _ _ => chooseLater_cases) hbest).resolve_left (by simp), ?_, ?_⟩
    · intro x hx
      obtain ⟨y, hy, hle⟩ := hlater x hx
      rw [hbest, Option.some.injEq] at hy
      rw [hy]
      exact hle
    · simp only
      split
      next hany =>
        refine .inl ⟨?_, rfl⟩
        obtain ⟨candidate, hin, hdiffers⟩ := List.any_eq_true.mp hany
        cases candidate with
        | none => simp at hdiffers
        | some x => exact ⟨x, hin, by simpa using hdiffers⟩
      next hall =>
        refine .inr ⟨?_, rfl⟩
        intro x hx hgeneration
        by_contra hdigest
        exact hall (List.any_eq_true.mpr ⟨some x, hx, by simpa using ⟨hgeneration, hdigest⟩⟩)

/-- `SelectCurrentIntent` (`drift.cpp:290`). -/
def selectCurrentIntent (candidates : List (Option IntentDocument)) : Selection IntentDocument :=
  selectCurrent (fun a b => decide (a.generation < b.generation)) IntentDocument.generation
    IntentDocument.digest .noIntentForScope candidates

/-- `ObservationKeyLess` (`drift.cpp:14`). -/
def observationKeyLess (lhs rhs : ObservationDocument) : Bool :=
  if lhs.generation ≠ rhs.generation then decide (lhs.generation < rhs.generation)
  else if lhs.receivedUnixMs ≠ rhs.receivedUnixMs then decide (lhs.receivedUnixMs < rhs.receivedUnixMs)
  else decide (lhs.reporter < rhs.reporter)

theorem observationKeyLess_generation (x y : ObservationDocument) :
    (observationKeyLess x y = true → x.generation ≤ y.generation) ∧
      (observationKeyLess x y = false → y.generation ≤ x.generation) := by
  unfold observationKeyLess
  by_cases hsame : x.generation = y.generation
  · rw [hsame]
    exact ⟨fun _ => le_refl _, fun _ => le_refl _⟩
  · rw [if_pos hsame]
    refine ⟨fun h => le_of_lt (of_decide_eq_true h), fun h => ?_⟩
    exact not_lt.mp (of_decide_eq_false h)

/-- `SelectCurrentObservation` (`drift.cpp:321`). -/
def selectCurrentObservation (candidates : List (Option ObservationDocument)) :
    Selection ObservationDocument :=
  selectCurrent observationKeyLess ObservationDocument.generation ObservationDocument.digest
    .noObservationForScope candidates

/-! ## Attribute walk -/

/-- `AttributeWalk` (`drift.cpp:45`). -/
structure AttributeWalk where
  deltas : List AttributeDelta
  coverageGap : Bool
  unsupported : Bool

/-- What one position of the merged attribute walk adds. -/
def walkStep (intentComplete observationComplete : Bool) (policy : ReconciliationPolicy)
    (walk : AttributeWalk) : Join AttributeKey AttributeValue AttributeValue → AttributeWalk
  | .left key intended =>
    if isAttributeUnmanaged policy key then
      { walk with deltas := walk.deltas ++ [⟨key, .unmanaged, intended, .absent⟩] }
    else if observationComplete then
      { walk with deltas := walk.deltas ++ [⟨key, .onlyInIntent, intended, .absent⟩] }
    else { walk with coverageGap := true }
  | .right key observed =>
    if isAttributeUnmanaged policy key then
      { walk with deltas := walk.deltas ++ [⟨key, .unmanaged, .absent, observed⟩] }
    else if intentComplete then
      { walk with deltas := walk.deltas ++ [⟨key, .onlyInObservation, .absent, observed⟩] }
    else { walk with coverageGap := true }
  | .both key intended observed =>
    if isAttributeUnmanaged policy key then
      { walk with deltas := walk.deltas ++ [⟨key, .unmanaged, intended, observed⟩] }
    else if !intended.isValid || !observed.isValid then { walk with unsupported := true }
    else if !intended.comparableWith observed then
      { walk with deltas := walk.deltas ++ [⟨key, .notComparable, intended, observed⟩] }
    else if intended ≠ observed then
      { walk with deltas := walk.deltas ++
          [⟨key, if isAttributeObserveOnly policy key then .observeOnly else .valueMismatch,
            intended, observed⟩] }
    else walk

/-- `WalkAttributes` (`drift.cpp:52`). -/
def walkAttributes (desired observed : SubjectState) (intentComplete observationComplete : Bool)
    (policy : ReconciliationPolicy) : AttributeWalk :=
  (Join.walk desired.entries observed.entries).foldl (walkStep intentComplete observationComplete policy)
    ⟨[], false, false⟩

/-- `HasActionableDelta` (`drift.cpp:136`). -/
def hasActionableDelta (deltas : List AttributeDelta) : Bool := deltas.any fun d => d.kind != .unmanaged

/-- The rank and the reason of one delta in `MismatchReason`; unranked kinds are skipped. -/
def deltaRank : AttributeDeltaKind → Option (Nat × ReasonCode)
  | .notComparable => some (0, .classifiedAttributeNotComparable)
  | .valueMismatch => some (1, .classifiedAttributeMismatch)
  | .observeOnly => some (2, .classifiedAttributeMismatch)
  | .onlyInIntent => some (3, .classifiedAttributeMissing)
  | .onlyInObservation => some (4, .classifiedAttributeUnexpected)
  | .unmanaged => none
  | .invalid => none

/-- `MismatchReason` (`drift.cpp:145`). -/
def mismatchReason (deltas : List AttributeDelta) : ReasonCode :=
  (deltas.foldl (fun (best : Nat × ReasonCode) d =>
    match deltaRank d.kind with
    | none => best
    | some ranked => if ranked.1 < best.1 then ranked else best)
    (99, .classifiedAttributeMismatch)).2

/-! ## Classification of a scope -/

/-- `ScopeEvidenceRef` (`drift.hpp:131`). -/
structure ScopeEvidenceRef where
  hasIntent : Bool := false
  intent : IntentId := StringId.none
  definition : DefinitionId := StringId.none
  intentGeneration : IntentGeneration := 0
  intentDigest : Digest := FixedBytes.zero
  intentComplete : Bool := true
  hasObservation : Bool := false
  observation : ObservationId := StringId.none
  reporter : ReporterId := StringId.none
  observationGeneration : ObservationGeneration := 0
  observationDigest : Digest := FixedBytes.zero
  receivedEpoch : CoordinatorEpoch := 0
  receivedUnixMs : UnixMillis := 0
  observationComplete : Bool := true
  observationAuthoritativeAbsence : Bool := false
  freshness : FreshnessVerdict := .invalid
  evidence : EvidenceClass := .unknown

/-- `ClassificationReport` (`drift.hpp:155`). -/
structure ClassificationReport where
  scope : ScopeId
  evidence : ScopeEvidenceRef
  records : List DriftRecord

/-- `ClassificationInput` (`drift.hpp:206`). A null candidate vector is the empty list. -/
structure ClassificationInput where
  scope : ScopeId
  intents : List (Option IntentDocument)
  observations : List (Option ObservationDocument)
  committedIntentGeneration : IntentGeneration
  hasCommittedIntent : Bool
  policy : Option ReconciliationPolicy
  liveEpoch : CoordinatorEpoch
  nowUnixMs : UnixMillis

/-- The evidence class carried by the records: the observation's, unless it is unknown. -/
def evidenceClassOf (intent : Option IntentDocument) (observation : Option ObservationDocument) :
    EvidenceClass :=
  let fromIntent := match intent with | some d => d.evidence | none => .unknown
  match observation with
  | some d => if d.evidence ≠ .unknown then d.evidence else fromIntent
  | none => fromIntent

/-- The evidence references of a report. -/
def evidenceOf (intent : Option IntentDocument) (observation : Option ObservationDocument)
    (policy : ReconciliationPolicy) (liveEpoch : CoordinatorEpoch) (nowUnixMs : UnixMillis) :
    ScopeEvidenceRef :=
  let base : ScopeEvidenceRef := match intent with
    | none => {}
    | some d => { hasIntent := true, intent := d.intent, definition := d.definition
                  intentGeneration := d.generation, intentDigest := d.digest
                  intentComplete := d.complete }
  let withObservation : ScopeEvidenceRef := match observation with
    | none => base
    | some d => { base with
        hasObservation := true, observation := d.observation, reporter := d.reporter
        observationGeneration := d.generation, observationDigest := d.digest
        receivedEpoch := d.receivedEpoch, receivedUnixMs := d.receivedUnixMs
        observationComplete := d.complete, observationAuthoritativeAbsence := d.authoritativeAbsence
        freshness := evaluateFreshness d policy.freshness liveEpoch nowUnixMs }
  { withObservation with evidence := evidenceClassOf intent observation }

/-- Every subject some candidate names, in order (`std::set<SubjectId>`). -/
def collectSubjects (intents : List (Option IntentDocument))
    (observations : List (Option ObservationDocument)) : List SubjectId :=
  sortUnique (
    (intents.flatMap fun c => match c with
      | none => []
      | some d => d.subjects.entries.map Prod.fst) ++
    (observations.flatMap fun c => match c with
      | none => []
      | some d => d.subjects.entries.map Prod.fst))

/-- `MakeRecord` (`drift.cpp:32`). -/
def makeRecord (scope : ScopeId) (subject : SubjectId) (drift : DriftClass) (reason : ReasonCode)
    (evidence : EvidenceClass) : DriftRecord := ⟨scope, subject, drift, reason, [], evidence⟩

/-- One position of the merged subject walk. -/
def classifySubject (scope : ScopeId) (policy : ReconciliationPolicy) (evidence : EvidenceClass)
    (intent : IntentDocument) (observation : ObservationDocument) :
    Join SubjectId SubjectEntry SubjectEntry → DriftRecord
  | .left subject declared =>
    if !policy.freshness.requireCompleteCoverageForAbsence ||
        (observation.complete && observation.authoritativeAbsence) then
      { makeRecord scope subject .missing .classifiedSubjectMissing evidence with
        deltas := (declared.desired.entries.filter fun a => !isAttributeUnmanaged policy a.1).map
          fun a => ⟨a.1, .onlyInIntent, a.2, .absent⟩ }
    else
      makeRecord scope subject .unknown
        (if !observation.complete then .observationCoverageIncomplete else .observationCannotAssertAbsence)
        evidence
  | .right subject seen =>
    if intent.complete then
      { makeRecord scope subject .unexpected .classifiedSubjectUnexpected evidence with
        deltas := (seen.observed.entries.filter fun a => !isAttributeUnmanaged policy a.1).map
          fun a => ⟨a.1, .onlyInObservation, .absent, a.2⟩ }
    else makeRecord scope subject .unknown .intentCoverageIncomplete evidence
  | .both subject declared seen =>
    let walk := walkAttributes declared.desired seen.observed declared.completeAttributes
      seen.completeAttributes policy
    if walk.unsupported then
      { makeRecord scope subject .unsupported .subjectKindUnsupported evidence with deltas := walk.deltas }
    else if walk.coverageGap then
      { makeRecord scope subject .unknown .attributeCoverageIncomplete evidence with deltas := walk.deltas }
    else if !hasActionableDelta walk.deltas then
      { makeRecord scope subject .alreadyConverged .classifiedAlreadyConverged evidence with
        deltas := walk.deltas }
    else
      { makeRecord scope subject .mismatched (mismatchReason walk.deltas) evidence with
        deltas := walk.deltas }

/-- The records of a scope, given its selected evidence. -/
def classifyRecords (input : ClassificationInput) (policy : ReconciliationPolicy)
    (intentSelection : Selection IntentDocument) (observationSelection : Selection ObservationDocument)
    (evidence : ScopeEvidenceRef) : Except Status (List DriftRecord) :=
  let subjects := collectSubjects input.intents input.observations
  let all (drift : DriftClass) (reason : ReasonCode) : List DriftRecord :=
    subjects.map fun subject => makeRecord input.scope subject drift reason evidence.evidence
  let intentRegressed := input.hasCommittedIntent && match intentSelection.selected with
    | none => false
    | some d => decide (d.generation < input.committedIntentGeneration)
  if intentSelection.conflicted || observationSelection.conflicted then
    .ok (all .conflict
      (if intentSelection.conflicted then intentSelection.reason else observationSelection.reason))
  else if intentRegressed || (!evidence.hasIntent && input.hasCommittedIntent) then
    .ok (all .staleIntent (if intentRegressed then .intentGenerationRegressed else .noIntentForScope))
  else if !evidence.hasIntent then .ok (all .unknown .noIntentForScope)
  else
    match intentSelection.selected with
    | none =>
      .error ⟨.internalError, .driftIsIndeterminate,
        "intent selection is empty after every empty-selection path returned"⟩
    | some intent =>
      if !evidence.hasObservation then
        .ok (intent.subjects.entries.map fun e =>
          makeRecord input.scope e.1 .unknown .noObservationForScope evidence.evidence)
      else if evidence.freshness ≠ .fresh then .ok (all .staleObservation evidence.freshness.reasonOf)
      else
        match observationSelection.selected with
        | none =>
          .error ⟨.internalError, .driftIsIndeterminate,
            "observation selection is empty after the freshness gate"⟩
        | some observation =>
          .ok ((Join.walk intent.subjects.entries observation.subjects.entries).map
            (classifySubject input.scope policy evidence.evidence intent observation))

/-- `ClassifyScope` (`drift.cpp:355`). -/
def classifyScope (input : ClassificationInput) : Except Status ClassificationReport :=
  match input.policy with
  | none =>
    .error ⟨.preconditionFailed, .driftIsIndeterminate, "classification requires an explicit policy"⟩
  | some policy =>
    if input.scope.empty then
      .error ⟨.rejected, .unsupportedInput, "classification requires a non-empty scope"⟩
    else if input.intents.any fun c => match c with | none => false | some d => d.scope != input.scope then
      .error ⟨.rejected, .unsupportedInput, "candidate intent belongs to a different scope"⟩
    else if input.observations.any fun c =>
        match c with | none => false | some d => d.scope != input.scope then
      .error ⟨.rejected, .unsupportedInput, "candidate observation belongs to a different scope"⟩
    else
      let intentSelection := selectCurrentIntent input.intents
      let observationSelection := selectCurrentObservation input.observations
      let evidence := evidenceOf intentSelection.selected observationSelection.selected policy
        input.liveEpoch input.nowUnixMs
      match classifyRecords input policy intentSelection observationSelection evidence with
      | .error status => .error status
      | .ok records => .ok ⟨input.scope, evidence, records⟩

/-- What a report rests on. -/
theorem classifyScope_ok {input : ClassificationInput} {report : ClassificationReport}
    (h : classifyScope input = .ok report) :
    ∃ policy, input.policy = some policy ∧
      report.evidence = evidenceOf (selectCurrentIntent input.intents).selected
        (selectCurrentObservation input.observations).selected policy input.liveEpoch input.nowUnixMs ∧
      classifyRecords input policy (selectCurrentIntent input.intents) (selectCurrentObservation input.observations)
        report.evidence = .ok report.records := by
  unfold classifyScope at h
  split at h
  · simp at h
  next policy hpolicy =>
    split at h
    · simp at h
    split at h
    · simp at h
    split at h
    · simp at h
    simp only at h
    split at h
    · simp at h
    next records hrecords =>
      rw [Except.ok.injEq] at h
      subst h
      exact ⟨policy, hpolicy, rfl, hrecords⟩

end FabricReconciliation
