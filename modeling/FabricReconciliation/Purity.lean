import FabricReconciliation.Persistence
import FabricReconciliation.Streams

/-!
# A plan depends on its evidence alone (`engine.cpp:473-775`, `plan.cpp:10-50`)

`BuildPlanLocked` reads the whole durable state, a random boot identity and the observations in the order
in which they arrived. None of this shows in the plan: the selection is by content, the boot identity is
bound by the authority vector but neither hashed nor explained, and of the fences only what they revoke
counts.

* **`selectCurrent_perm`** — the selected document does not depend on the order of the candidates;
* **`plan_of_evidence`** — engines of any two stores with the same evidence return the same plan, up to
  the boot identity it is bound to.
-/

namespace FabricReconciliation

open Lib

/-! ## Selection and classification -/

/-- Selection by generation is independent of the order when the digest tells the candidates apart. -/
theorem selectCurrent_perm {α : Type} {less : α → α → Bool} {generation : α → UInt64} {digest : α → Digest}
    {noneReason : ReasonCode} {candidates candidates' : List (Option α)}
    (hless : ∀ a b, less a b = true → generation a ≤ generation b)
    (hnot : ∀ a b, less a b = false → generation b ≤ generation a)
    (hdigest : ∀ a b, some a ∈ candidates → some b ∈ candidates → digest a = digest b → a = b)
    (hperm : candidates.Perm candidates') :
    selectCurrent less generation digest noneReason candidates =
      selectCurrent less generation digest noneReason candidates' := by
  rcases selectCurrent_cases digest noneReason candidates hless hnot with
    ⟨hempty, hselect⟩ | ⟨current, hcurrent, htop, hcases⟩
  · rcases selectCurrent_cases digest noneReason candidates' hless hnot with ⟨-, hselect'⟩ | ⟨current', hcurrent', -⟩
    · rw [hselect, hselect']
    · exact absurd (hperm.mem_iff.mpr hcurrent') (hempty current')
  · rcases selectCurrent_cases digest noneReason candidates' hless hnot with
      ⟨hempty', -⟩ | ⟨current', hcurrent', htop', hcases'⟩
    · exact absurd (hperm.mem_iff.mp hcurrent) (hempty' current)
    -- both choices are of the last generation, so they agree or both report a conflict
    have hsame : generation current = generation current' :=
      le_antisymm (htop' current (hperm.mem_iff.mp hcurrent)) (htop current' (hperm.mem_iff.mpr hcurrent'))
    rcases hcases with ⟨⟨x, hx, hgeneration, hdiffers⟩, hselect⟩ | ⟨hall, hselect⟩
    · rcases hcases' with ⟨-, hselect'⟩ | ⟨hall', -⟩
      · rw [hselect, hselect']
      · have hx' := hall' x (hperm.mem_iff.mp hx) (hgeneration.trans hsame)
        have hc' := hall' current (hperm.mem_iff.mp hcurrent) hsame
        exact absurd (hx'.trans hc'.symm) hdiffers
    · rcases hcases' with ⟨⟨x, hx, hgeneration, hdiffers⟩, -⟩ | ⟨-, hselect'⟩
      · have hx' := hall x (hperm.mem_iff.mpr hx) (hgeneration.trans hsame.symm)
        have hc' := hall current' (hperm.mem_iff.mpr hcurrent') hsame.symm
        exact absurd (hx'.trans hc'.symm) hdiffers
      · have hc' := hall current' (hperm.mem_iff.mpr hcurrent') hsame.symm
        rw [hselect, hselect', hdigest current current' hcurrent (hperm.mem_iff.mpr hcurrent') hc'.symm]

section Classification

variable {observations observations' : List (Option ObservationDocument)}

theorem selectCurrentObservation_perm
    (hdigest : ∀ a b, some a ∈ observations → some b ∈ observations → a.digest = b.digest → a = b)
    (hperm : observations.Perm observations') :
    selectCurrentObservation observations = selectCurrentObservation observations' :=
  selectCurrent_perm (fun x y => (observationKeyLess_generation x y).1)
    (fun x y => (observationKeyLess_generation x y).2) hdigest hperm

theorem collectSubjects_perm (intents : List (Option IntentDocument)) (hperm : observations.Perm observations') :
    collectSubjects intents observations = collectSubjects intents observations' := by
  refine sortUnique_congr fun k => ?_
  rw [List.mem_append, List.mem_append, (hperm.flatMap_right _).mem_iff]

/-- The classification of a scope does not depend on the order of its observations. -/
theorem classifyScope_perm {input : ClassificationInput}
    (hdigest : ∀ a b, some a ∈ input.observations → some b ∈ input.observations → a.digest = b.digest → a = b)
    (hperm : input.observations.Perm observations') :
    classifyScope { input with observations := observations' } = classifyScope input := by
  unfold classifyScope
  simp only [← selectCurrentObservation_perm hdigest hperm, ← hperm.any_eq]
  unfold classifyRecords
  simp only [← collectSubjects_perm input.intents hperm]

end Classification

/-- Every record of a report is about the scope. -/
theorem classifyScope_scope {input : ClassificationInput} {report : ClassificationReport}
    (h : classifyScope input = .ok report) : ∀ record ∈ report.records, record.scope = input.scope := by
  obtain ⟨policy, -, -, hrecords⟩ := classifyScope_ok h
  intro record hrecord
  have hall : ∀ (subjects : List SubjectId) drift reason evidence,
      record ∈ (subjects.map fun subject => makeRecord input.scope subject drift reason evidence) →
      record.scope = input.scope := by
    intro subjects drift reason evidence hmem
    obtain ⟨subject, -, rfl⟩ := List.mem_map.mp hmem
    rfl
  unfold classifyRecords at hrecords
  simp only at hrecords
  generalize (input.hasCommittedIntent && _) = regressed at hrecords
  split at hrecords
  · rw [Except.ok.injEq] at hrecords
    exact hall _ _ _ _ (hrecords ▸ hrecord)
  split at hrecords
  · rw [Except.ok.injEq] at hrecords
    exact hall _ _ _ _ (hrecords ▸ hrecord)
  split at hrecords
  · rw [Except.ok.injEq] at hrecords
    exact hall _ _ _ _ (hrecords ▸ hrecord)
  split at hrecords
  · simp at hrecords
  split at hrecords
  · rw [Except.ok.injEq] at hrecords
    rw [← hrecords] at hrecord
    obtain ⟨e, -, rfl⟩ := List.mem_map.mp hrecord
    rfl
  split at hrecords
  · rw [Except.ok.injEq] at hrecords
    exact hall _ _ _ _ (hrecords ▸ hrecord)
  split at hrecords
  · simp at hrecords
  · rw [Except.ok.injEq] at hrecords
    rw [← hrecords] at hrecord
    obtain ⟨place, -, rfl⟩ := List.mem_map.mp hrecord
    cases place with
    | left subject declared => simp only [classifySubject]; split <;> rfl
    | right subject seen => simp only [classifySubject]; split <;> rfl
    | both subject declared seen =>
      simp only [classifySubject]
      split
      · rfl
      split
      · rfl
      split <;> rfl

/-! ## Fences by what they revoke -/

/-- What the fences of a scope revoke: a subject, or all of them, below an epoch. -/
def fenceMarks (s : DurableState) (scope : ScopeId) : Set (SubjectId × CoordinatorEpoch) :=
  { mark | ∃ f ∈ s.fences.values, f.scope = scope ∧ (f.subject, f.fencedBelow) = mark }

theorem fenceHoldsFor_marks {s : DurableState} {scope : ScopeId} {subject : SubjectId} {epoch : CoordinatorEpoch} :
    fenceHoldsFor s scope subject epoch = true ↔
      ∃ mark ∈ fenceMarks s scope, (mark.1.empty = true ∨ mark.1 = subject) ∧ epoch < mark.2 := by
  simp only [fenceHoldsFor, fenceMarks, List.any_eq_true, Bool.and_eq_true, Bool.or_eq_true, decide_eq_true_eq,
    Set.mem_ofPred_eq]
  constructor
  · rintro ⟨f, hf, ⟨hscope, hsubject⟩, hbelow⟩
    exact ⟨_, ⟨f, hf, hscope, rfl⟩, hsubject, hbelow⟩
  · rintro ⟨_, ⟨f, hf, hscope, rfl⟩, hsubject, hbelow⟩
    exact ⟨f, hf, ⟨hscope, hsubject⟩, hbelow⟩

theorem fenceHoldsFor_same {s t : DurableState} {scope : ScopeId} (h : fenceMarks s scope = fenceMarks t scope)
    (subject : SubjectId) (epoch : CoordinatorEpoch) :
    fenceHoldsFor s scope subject epoch = fenceHoldsFor t scope subject epoch := by
  rw [Bool.eq_iff_iff, fenceHoldsFor_marks, fenceHoldsFor_marks, h]

/-! ## Plans without the boot identity -/

def AuthorityVector.unbooted (v : AuthorityVector) : AuthorityVector := { v with boot := FixedBytes.zero }

def Decision.unbooted (d : Decision) : Decision := { d with authority := d.authority.unbooted }

/-- The plan but for the boot identity it is bound to. Identifier, verdict and decisions with their keys
and explanations are the plan's own. -/
def ReconciliationPlan.unbooted (p : ReconciliationPlan) : ReconciliationPlan :=
  { p with boot := FixedBytes.zero, decisions := p.decisions.map Decision.unbooted }

/-- The boot identity is not part of the hashed content. -/
theorem encodePlanContent_unbooted (p : ReconciliationPlan) :
    encodePlanContent p.unbooted = encodePlanContent p := by
  have hdecisions : putEach encodeDecision (p.decisions.map Decision.unbooted) = putEach encodeDecision p.decisions := by
    simp only [putEach, List.flatMap_map]
    rfl
  simp only [encodePlanContent, ReconciliationPlan.unbooted, hdecisions, List.length_map]

theorem sealed_unbooted (p : ReconciliationPlan) : p.sealed.unbooted = p.unbooted.sealed := by
  unfold ReconciliationPlan.sealed
  simp only [encodePlanContent_unbooted]
  rfl

namespace PlanBasis

/-- Bases that differ in the boot identity and in what planning does not read of the state. -/
structure Alike (scope : ScopeId) (b c : PlanBasis) : Prop where
  limits : b.limits = c.limits
  active : b.state.policy = c.state.policy
  fences : fenceMarks b.state scope = fenceMarks c.state scope
  epoch : b.live.epoch = c.live.epoch
  policy : b.policy = c.policy
  evidence : b.evidence = c.evidence
  intent : b.intent = c.intent
  observation : b.observation = c.observation

variable {b c : PlanBasis} {scope : ScopeId}

theorem Alike.authority (h : Alike scope b c) : b.authority.unbooted = c.authority.unbooted := by
  simp only [PlanBasis.authority, buildAuthority, AuthorityVector.unbooted, h.active, h.evidence, h.epoch]

/-- The boot identity always binds: both vectors carry the live one. -/
theorem Alike.assessment (h : Alike scope b c) {record : DriftRecord} (hscope : record.scope = scope) :
    b.assessment record = c.assessment record := by
  have hfence := fenceHoldsFor_same h.fences record.subject b.live.epoch
  unfold PlanBasis.assessment
  rw [hscope, hfence, h.epoch]
  simp only [assessAuthority, failedComponents, PlanBasis.authority, buildAuthority, PlanBasis.liveAuthority,
    PlanBasis.fresh, h.active, h.evidence, h.epoch, h.policy, bne_self_eq_false]

theorem Alike.settled (h : Alike scope b c) {record : DriftRecord} (hscope : record.scope = scope) :
    b.settled record = c.settled record := by
  have hfence := fenceHoldsFor_same h.fences record.subject b.live.epoch
  unfold PlanBasis.settled
  rw [h.assessment hscope, h.limits, h.policy, hscope, hfence, h.epoch]

theorem Alike.decision (h : Alike scope b c) {record : DriftRecord} (hscope : record.scope = scope) :
    (b.decision record).unbooted = (c.decision record).unbooted := by
  have hkey : ∀ (b : PlanBasis) subject action desired observed,
      computeIdempotencyKey scope subject action b.authority desired observed =
        computeIdempotencyKey scope subject action b.authority.unbooted desired observed := fun _ _ _ _ _ => rfl
  simp only [PlanBasis.decision, Decision.unbooted, h.settled hscope, h.authority, hscope, hkey, desired,
    expectedObserved, h.intent, h.observation]

end PlanBasis

/-- The verdict looks at the dispositions of the decisions only. -/
theorem scopeVerdict_unbooted (limits : RuntimeLimits) (evidence : ScopeEvidenceRef) (truncated : Bool)
    (decisions : List Decision) :
    scopeVerdict limits evidence truncated (decisions.map Decision.unbooted) =
      scopeVerdict limits evidence truncated decisions := by
  simp only [scopeVerdict, List.any_map, List.countP_map, List.length_map]
  rfl

/-- Alike bases give the same plan but for the boot identity. -/
theorem assemblePlan_alike {b c : PlanBasis} {scope : ScopeId} (h : b.Alike scope c) {records : List DriftRecord}
    (hscope : ∀ record ∈ records, record.scope = scope) :
    (assemblePlan b scope records).unbooted = (assemblePlan c scope records).unbooted := by
  have hdecisions : ((records.take c.limits.maxPlanActions.toNat).map b.decision).map Decision.unbooted =
      ((records.take c.limits.maxPlanActions.toNat).map c.decision).map Decision.unbooted := by
    rw [List.map_map, List.map_map]
    refine List.map_congr_left ?_
    intro record hrecord
    exact h.decision (hscope record (List.mem_of_mem_take hrecord))
  have hverdict : ∀ truncated,
      scopeVerdict c.limits c.evidence truncated ((records.take c.limits.maxPlanActions.toNat).map b.decision) =
        scopeVerdict c.limits c.evidence truncated ((records.take c.limits.maxPlanActions.toNat).map c.decision) := by
    intro truncated
    rw [← scopeVerdict_unbooted, hdecisions, scopeVerdict_unbooted]
  unfold assemblePlan
  simp only [sealed_unbooted, h.limits, h.evidence, h.epoch, h.policy, hverdict]
  congr 1
  simp only [ReconciliationPlan.unbooted, hdecisions]

/-! ## Engines with the same evidence -/

/-- The bytes `ComputeObservationDigest` hashes. -/
def observationImage (d : ObservationDocument) : Bytes :=
  (fill kMaxCanonicalBytes (putU16 kCanonicalSchemaVersion ++ observationContent d)).1

/-- SHA-256 has no collision among the documents. -/
def Collisionless (documents : List ObservationDocument) : Prop :=
  ∀ a ∈ documents, ∀ b ∈ documents,
    sha256Of (observationImage a) = sha256Of (observationImage b) → observationImage a = observationImage b

instance (documents : List ObservationDocument) : Decidable (Collisionless documents) :=
  inferInstanceAs (Decidable (∀ a ∈ documents, ∀ b ∈ documents,
    sha256Of (observationImage a) = sha256Of (observationImage b) → observationImage a = observationImage b))

/-- What the plan of a scope may depend on is the same in both engines. -/
structure SameEvidence (scope : ScopeId) (e f : Engine) : Prop where
  epoch : e.live.epoch = f.live.epoch
  hasPolicy : e.store.state.hasPolicy = f.store.state.hasPolicy
  policy : e.store.state.policy = f.store.state.policy
  intent : e.store.state.intents.find? scope = f.store.state.intents.find? scope
  observations : (e.store.state.stream scope).Perm (f.store.state.stream scope)
  fences : fenceMarks e.store.state scope = fenceMarks f.store.state scope

section Engines

variable {limits : RuntimeLimits} {e f : Engine} {scope : ScopeId}

/-- The hashed bytes of a stored observation are its content, and determine it. -/
theorem observationImage_injective {a b : ObservationDocument} (ha : ObservationOk limits a)
    (hb : ObservationOk limits b) (hka : a.withKeyIds = a) (hkb : b.withKeyIds = b) (hfa : encodeObservation a ≠ [])
    (hfb : encodeObservation b ≠ []) (h : observationImage a = observationImage b) : a = b := by
  have himage : ∀ {d : ObservationDocument}, encodeObservation d ≠ [] →
      observationImage d = (putU16 kCanonicalSchemaVersion).image ++ (observationContent d).image := by
    intro d hd
    obtain ⟨htotal, hfit, -⟩ := encoded_ne_nil hd
    have hversion : (putU16 kCanonicalSchemaVersion).image.length = 2 := rfl
    have hdigest : (putDigest d.digest).image.length = 32 := by simp [putDigest]
    simp only [observationScript, Script.image_append, List.length_append, hdigest] at hfit
    rw [observationScript, Script.total_append] at htotal
    unfold observationImage
    rw [fill_eq (by simpa using htotal.1) (by rw [Script.image_append, List.length_append, hversion]; omega),
      Script.image_append]
  rw [himage hfa, himage hfb, List.append_cancel_left_eq] at h
  have hdigest : a.digest = b.digest := by
    rw [ha.digest, hb.digest]
    show sha256Of (observationImage a) = sha256Of (observationImage b)
    rw [himage hfa, himage hfb, h]
  have hencoded : encodeObservation a = encodeObservation b := by
    rw [encodeObservation, encodeObservation, (encoded_ne_nil hfa).2.2, (encoded_ne_nil hfb).2.2, observationScript,
      observationScript, Script.image_append, Script.image_append, h, hdigest]
  have hread := decodeObservationExact_encoded ha hka hfa
  rw [hencoded, decodeObservationExact_encoded hb hkb hfb] at hread
  exact (Option.some.inj hread).symm

/-- In a reachable engine the digest tells the observations of a scope apart. -/
theorem stream_digest (h : Tracked limits (.up e)) (hsha : Collisionless (e.store.state.stream scope))
    {a b : ObservationDocument} (ha : a ∈ e.store.state.stream scope) (hb : b ∈ e.store.state.stream scope)
    (hdigest : a.digest = b.digest) : a = b := by
  have hstored : ∀ d ∈ e.store.state.stream scope,
      ObservationOk limits d ∧ d.withKeyIds = d ∧ encodeObservation d ≠ [] := by
    intro d hd
    unfold DurableState.stream at hd
    cases hfind : e.store.state.observations.find? scope with
    | none => simp [hfind] at hd
    | some documents =>
      have hmem : d ∈ documents := by simpa [hfind] using hd
      have hentry := OrdMap.find?_eq_some_iff.mp hfind
      obtain ⟨hok, hkeys, -⟩ := h.consistent.tables.observations _ hentry d hmem
      exact ⟨hok, hkeys, h.stamped.entries.observations _ hentry d hmem⟩
  obtain ⟨hok, hkeys, hfits⟩ := hstored a ha
  obtain ⟨hok', hkeys', hfits'⟩ := hstored b hb
  refine observationImage_injective hok hok' hkeys hkeys' hfits hfits' (hsha a ha b hb ?_)
  rw [hok.digest, hok'.digest] at hdigest
  exact hdigest

/-- **`plan_of_evidence`**: engines of any two stores that hold the same evidence about a scope answer a
plan request at the same clock reading alike, whatever else they hold and in whatever order the
observations arrived. -/
theorem plan_of_evidence (he : Run limits (fun _ _ => True) (.up e)) (hf : Run limits (fun _ _ => True) (.up f))
    {request : PlanRequest} (hsame : SameEvidence request.scope e f)
    (hsha : Collisionless (e.store.state.stream request.scope)) {env env' : CallEnv} (hclock : env.now = env'.now) :
    (e.plan env request).map ReconciliationPlan.unbooted = (f.plan env' request).map ReconciliationPlan.unbooted := by
  have htracked := run_tracked he
  have hlimits : e.options.limits = f.options.limits :=
    htracked.consistent.options.trans (run_tracked hf).consistent.options.symm
  have hperm : (observationCandidates e.store.state request.scope).Perm
      (observationCandidates f.store.state request.scope) := hsame.observations.map some
  have hdigest : ∀ a b, some a ∈ observationCandidates e.store.state request.scope →
      some b ∈ observationCandidates e.store.state request.scope → a.digest = b.digest → a = b := by
    intro a b ha hb
    refine stream_digest htracked hsha ?_ ?_
    · simpa [observationCandidates, DurableState.stream] using ha
    · simpa [observationCandidates, DurableState.stream] using hb
  have hselected := selectCurrentObservation_perm hdigest hperm
  have hinput : ∀ policy now,
      classifyScope (classificationInput f.store.state f.live request.scope policy now) =
        classifyScope (classificationInput e.store.state e.live request.scope policy now) := by
    intro policy now
    have hcandidates : intentCandidates f.store.state request.scope = intentCandidates e.store.state request.scope := by
      rw [intentCandidates, intentCandidates, hsame.intent]
    rw [← @classifyScope_perm _ (classificationInput e.store.state e.live request.scope policy now) hdigest hperm]
    simp only [classificationInput, hcandidates, hsame.intent, hsame.epoch]
  unfold Engine.plan buildPlan
  rw [hsame.hasPolicy, hsame.policy, hclock]
  split
  · rfl
  split
  · rfl
  simp only
  rw [hinput]
  cases hreport : classifyScope (classificationInput e.store.state e.live request.scope
      (request.policy.getD f.store.state.policy)
      (if request.nowUnixMs ≠ 0 then request.nowUnixMs else env'.now)) with
  | error status => rfl
  | ok report =>
    refine congrArg Except.ok (assemblePlan_alike ?_ (classifyScope_scope hreport))
    exact ⟨hlimits, hsame.policy, hsame.fences, hsame.epoch, rfl, rfl, hsame.intent, congrArg Selection.selected hselected⟩

/-- A later report of another reporter. -/
def secondReport : ObservationSubmission := { sampleReport 2 with reporter := ⟨[0x71], valid_q⟩ }

theorem secondReport_fits : (Event.observationCommit (secondReport.document 1 2)).Fits {} :=
  (brief_observation (d := secondReport.document 1 2) (by decide) (by decide)).fits (sample_ample 16)

/-- The second reporter looks. -/
theorem sampleWith_seen {es : List Event} (hes : es.all Event.aboutAttempt = true) {n : Nat} (hcount : es.length + 1 = n)
    (hroom : UInt64.ofNat (4 + n) - 2 < 8192) :
    (Process.up (sampleWith es)).step (.call (.recordObservationAt secondReport 2) {}) =
      (Status.ok, .up (sampleWith (es ++ [.observationCommit (secondReport.document 1 2)]))) := by
  obtain ⟨sequence, attempts, next, outcomes, htables⟩ := tablesAfter_attempts hes
  have hdone : (sampleWith es).recordObservationAt {} secondReport 2 = (Status.ok, some ⟨false, secondReport.document 1 2⟩,
      sampleWith (es ++ [.observationCommit (secondReport.document 1 2)])) := by
    unfold sampleWith
    rw [← List.append_assoc, told_append (sampleEvents.take 4 ++ es)]
    apply recordObservationAt_on rfl
    · rfl
    · rfl
    · rw [show tablesAfter ({ } : EngineOptions).limits ({ } : DurableStore.OpenEnv).fresh (sampleEvents.take 4 ++ es) = _
        from htables]
      rfl
    · simp
    · exact secondReport_fits
    · exact sampleWith_undue hcount hroom
  simp only [Process.step, Engine.call, hdone]

/-- Both reports, the second one last. -/
def sampleInOrder : Process := sampleObserved.after (.call (.recordObservationAt secondReport 2) {})

/-- Both reports, the second one first. -/
def sampleReversed : Process :=
  (sampleIntended.after (.call (.recordObservationAt secondReport 2) {})).after
    (.call (.recordObservationAt (sampleReport 1) 1) {})

/-- The records of the two reports, the second one first. -/
def reversedEvents : List Event :=
  sampleEvents.take 3 ++ [.observationCommit (secondReport.document 1 2)] ++ [.observationCommit stampedReport]

theorem sampleInOrder_eq : sampleInOrder = .up (sampleWith [.observationCommit (secondReport.document 1 2)]) := by
  have hseen := @sampleWith_seen [] rfl 1 rfl (by decide)
  rw [sampleInOrder, sampleObserved_eq]
  exact congrArg Prod.snd hseen

theorem sampleReversed_eq : sampleReversed =
    .up (Engine.on {} {} ⟨1, FixedBytes.zero⟩ 2 (told reversedEvents) reversedEvents) := by
  have hsecond : (sampleEngine 16 3).recordObservationAt {} secondReport 2 =
      (Status.ok, some ⟨false, secondReport.document 1 2⟩, Engine.on {} {} ⟨1, FixedBytes.zero⟩ 2
        (told (sampleEvents.take 3 ++ [.observationCommit (secondReport.document 1 2)]))
        (sampleEvents.take 3 ++ [.observationCommit (secondReport.document 1 2)])) := by
    apply recordObservationAt_on rfl
    · rfl
    · rfl
    · rfl
    · simp
    · exact secondReport_fits
    · exact .inr (show (2 : UInt64) < 8192 by decide)
  have hfirst : (Engine.on {} {} ⟨1, FixedBytes.zero⟩ 2
      (told (sampleEvents.take 3 ++ [.observationCommit (secondReport.document 1 2)]))
      (sampleEvents.take 3 ++ [.observationCommit (secondReport.document 1 2)])).recordObservationAt {} (sampleReport 1) 1 =
        (Status.ok, some ⟨false, stampedReport⟩,
          Engine.on {} {} ⟨1, FixedBytes.zero⟩ 2 (told reversedEvents) reversedEvents) := by
    apply recordObservationAt_on rfl
    · rfl
    · rfl
    · rfl
    · simp
    · exact (sampleEvents_brief (.observationCommit stampedReport) (by simp [sampleEvents])).fits (sample_ample 16)
    · exact .inr (show (3 : UInt64) < 8192 by decide)
  have hafter : (Process.up (sampleEngine 16 3)).after (.call (.recordObservationAt secondReport 2) {}) =
      .up (Engine.on {} {} ⟨1, FixedBytes.zero⟩ 2
        (told (sampleEvents.take 3 ++ [.observationCommit (secondReport.document 1 2)]))
        (sampleEvents.take 3 ++ [.observationCommit (secondReport.document 1 2)])) := by
    simp only [Process.after, Process.step, Engine.call, hsecond]
  rw [sampleReversed, sampleIntended_eq, hafter]
  simp only [Process.after, Process.step, Engine.call, hfirst]

theorem inOrder_stream : (sampleWith [.observationCommit (secondReport.document 1 2)]).store.state.stream sampleScope =
    [stampedReport.withKeyIds, (secondReport.document 1 2).withKeyIds] := by
  have hkept : (sampleWith [.observationCommit (secondReport.document 1 2)]).store.state.observations.find? sampleScope =
      some (keepLast 8 (keepLast 8 [stampedReport.withKeyIds] ++ [(secondReport.document 1 2).withKeyIds])) := rfl
  rw [DurableState.stream, hkept, keepLast_of_le (by decide), keepLast_of_le (by decide)]
  rfl

theorem reversed_stream : (Engine.on {} {} ⟨1, FixedBytes.zero⟩ 2 (told reversedEvents) reversedEvents).store.state.stream
    sampleScope = [(secondReport.document 1 2).withKeyIds, stampedReport.withKeyIds] := by
  have hkept : (Engine.on {} {} ⟨1, FixedBytes.zero⟩ 2 (told reversedEvents)
      reversedEvents).store.state.observations.find? sampleScope =
        some (keepLast 8 (keepLast 8 [(secondReport.document 1 2).withKeyIds] ++ [stampedReport.withKeyIds])) := rfl
  rw [DurableState.stream, hkept, keepLast_of_le (by decide), keepLast_of_le (by decide)]
  rfl

theorem reports_collisionless : Collisionless [stampedReport.withKeyIds, (secondReport.document 1 2).withKeyIds] := by
  have hne : sha256Of (observationImage stampedReport.withKeyIds) ≠
      sha256Of (observationImage (secondReport.document 1 2).withKeyIds) := by
    decide +kernel
  intro a ha b hb heq
  simp only [List.mem_cons, List.not_mem_nil, or_false] at ha hb
  rcases ha with rfl | rfl <;> rcases hb with rfl | rfl
  · rfl
  · exact absurd heq hne
  · exact absurd heq.symm hne
  · rfl

/-- The two orders lead to the same plan of the sample scope at every clock reading. -/
theorem plan_of_evidence_either_order :
    ∃ e f, sampleInOrder = .up e ∧ sampleReversed = .up f ∧
      e.store.state.stream sampleScope ≠ f.store.state.stream sampleScope ∧
      ∀ now, (e.plan { now := now } ⟨sampleScope, none, 0⟩).map ReconciliationPlan.unbooted =
        (f.plan { now := now } ⟨sampleScope, none, 0⟩).map ReconciliationPlan.unbooted := by
  have hintended : Run {} (fun _ _ => True) sampleIntended := sampleIntended_allowed trivial trivial
  have hin : Run {} (fun _ _ => True) sampleInOrder := by
    rw [sampleInOrder]
    exact (sampleObserved_allowed trivial trivial trivial).after trivial (by simp)
  have hreversed : Run {} (fun _ _ => True) sampleReversed := by
    rw [sampleReversed]
    have hsecond := hintended.after (a := .call (.recordObservationAt secondReport 2) {}) trivial (by simp)
    exact hsecond.after trivial (by simp)
  rw [sampleInOrder_eq] at hin
  rw [sampleReversed_eq] at hreversed
  refine ⟨_, _, sampleInOrder_eq, sampleReversed_eq, ?_, fun now => ?_⟩
  · rw [inOrder_stream, reversed_stream]
    intro hsame
    have hreporter := congrArg ObservationDocument.reporter (List.cons.inj hsame).1
    exact absurd hreporter (by decide)
  · have hsame : SameEvidence sampleScope (sampleWith [.observationCommit (secondReport.document 1 2)])
        (Engine.on {} {} ⟨1, FixedBytes.zero⟩ 2 (told reversedEvents) reversedEvents) := by
      have hpolicy : (sampleWith [.observationCommit (secondReport.document 1 2)]).store.state.policy = defaultPolicy := rfl
      have hintent : (sampleWith [.observationCommit (secondReport.document 1 2)]).store.state.intents.find?
          sampleScope = some committedIntent.withKeyIds := rfl
      have hfences : (sampleWith [.observationCommit (secondReport.document 1 2)]).store.state.fences.values = [] := rfl
      have hfences' : (Engine.on {} {} ⟨1, FixedBytes.zero⟩ 2 (told reversedEvents)
          reversedEvents).store.state.fences.values = [] := rfl
      refine ⟨rfl, rfl, ?_, ?_, ?_, ?_⟩
      · rw [hpolicy]
        rfl
      · rw [hintent]
        rfl
      · rw [inOrder_stream, reversed_stream]
        exact List.Perm.swap _ _ _
      · rw [fenceMarks, fenceMarks, hfences, hfences']
    exact @plan_of_evidence {} _ _ hin hreversed ⟨sampleScope, none, 0⟩ hsame (inOrder_stream ▸ reports_collisionless)
      { now := now } { now := now } rfl

end Engines

end FabricReconciliation
