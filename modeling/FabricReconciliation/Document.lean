import FabricReconciliation.Policy

/-!
# Intent and observation documents (`document.hpp`, `document.cpp`)

`SubjectIntent` and `SubjectObservation` have one shape, so one codec serves both. The subject
map is keyed by the identity that is encoded; an entry also carries its own `id`, which only the
decoder sets. A caller may hand in a document whose entries carry other ids: what is stored then
is `withKeyIds`, the same document with each entry's id set to its key.

* **`reads_intent`, `reads_observation`** — a validated document with its computed digest is read
  back, up to `withKeyIds`;
* **`decodeIntent_sound`, `decodeObservation_sound`** — what is accepted is valid, carries its
  computed digest and is already in `withKeyIds` form.
-/

namespace FabricReconciliation

open Lib

/-! ## Subjects -/

/-- `SubjectIntent` and `SubjectObservation`: identity, attribute coverage, attributes. -/
structure SubjectEntry where
  id : SubjectId
  completeAttributes : Bool
  state : SubjectState
deriving DecidableEq

abbrev SubjectIntent := SubjectEntry
abbrev SubjectObservation := SubjectEntry

/-- `SubjectIntent::desired`. -/
def SubjectEntry.desired (e : SubjectIntent) : SubjectState := e.state

/-- `SubjectObservation::observed`. -/
def SubjectEntry.observed (e : SubjectObservation) : SubjectState := e.state

abbrev Subjects := OrdMap SubjectId SubjectEntry

def encodeSubject (e : SubjectId × SubjectEntry) : Script :=
  putBytes e.1.text ++ (putBool e.2.completeAttributes ++ encodeState e.2.state)

def decodeSubject (limits : RuntimeLimits) : Reader (SubjectId × SubjectEntry) := do
  let subjectText ← Read.bytes
  let attributesComplete ← Read.bool
  let subject ← Reader.ofOption (StringId.tryParse subjectText)
  let state ← decodeState limits
  return (subject, ⟨subject, attributesComplete, state⟩)

/-- Each entry's id set to its key, as the decoders build entries. -/
def Subjects.withKeyIds (m : Subjects) : Subjects := m.mapWithKey fun k e => { e with id := k }

/-- The subject loop shared by `ValidateIntent`, `ValidateObservation` and `ValidateSubmission`;
`what` is the noun of the message. -/
def validateSubjects (m : Subjects) (limits : RuntimeLimits) (what : String) : Status :=
  if limits.maxSubjectsPerDocument.toNat < m.size then
    ⟨.limitExceeded, .planActionLimitReached,
      what ++ " declares more subjects than the configured bound"⟩
  else go m.entries
where
  go : List (SubjectId × SubjectEntry) → Status
    | [] => Status.ok
    | e :: rest =>
      if e.1.empty then
        ⟨.rejected, .unsupportedInput, what ++ " carries an empty subject identity"⟩
      else if (validateState e.2.state limits (what ++ " subject")).code = .ok then go rest
      else validateState e.2.state limits (what ++ " subject")

/-- What the subject loop accepts. -/
structure SubjectsOk (limits : RuntimeLimits) (m : Subjects) : Prop where
  bound : m.size ≤ limits.maxSubjectsPerDocument.toNat
  keys : ∀ e ∈ m.entries, e.1.empty = false
  states : ∀ e ∈ m.entries, StateOk limits e.2.state

theorem validateSubjects_go_ok {limits : RuntimeLimits} {what : String} :
    ∀ {l : List (SubjectId × SubjectEntry)}, (validateSubjects.go limits what l).code = .ok →
      ∀ e ∈ l, e.1.empty = false ∧ StateOk limits e.2.state
  | [], _ => by simp
  | e :: rest, h => by
    unfold validateSubjects.go at h
    split at h
    · simp at h
    · rename_i hk
      split at h
      · rename_i hs
        intro x hx
        rcases List.mem_cons.mp hx with rfl | hx
        · exact ⟨by simpa using hk, validateState_ok hs⟩
        · exact validateSubjects_go_ok h x hx
      · rename_i hs
        exact absurd h hs

theorem validateSubjects_ok {m : Subjects} {limits : RuntimeLimits} {what : String}
    (h : (validateSubjects m limits what).code = .ok) : SubjectsOk limits m := by
  unfold validateSubjects at h
  split at h
  · simp at h
  · rename_i hb
    have hall := validateSubjects_go_ok h
    exact ⟨by omega, fun e he => (hall e he).1, fun e he => (hall e he).2⟩

@[simp] theorem withKeyIds_withKeyIds (m : Subjects) :
    Subjects.withKeyIds (Subjects.withKeyIds m) = Subjects.withKeyIds m := by
  ext1
  simp [Subjects.withKeyIds, OrdMap.mapWithKey]

theorem withKeyIds_eq_self {m : Subjects} (h : ∀ e ∈ m.entries, e.2.id = e.1) :
    Subjects.withKeyIds m = m := by
  ext1
  have hmap : m.entries.map (fun e => (e.1, { e.2 with id := e.1 })) = m.entries.map id := by
    refine List.map_congr_left fun e he => ?_
    have := h e he
    obtain ⟨k, v⟩ := e
    simp only at this
    simp [← this]
  simpa [Subjects.withKeyIds, OrdMap.mapWithKey] using hmap

theorem withKeyIds_id {m : Subjects} : ∀ e ∈ (Subjects.withKeyIds m).entries, e.2.id = e.1 := by
  intro e he
  simp only [Subjects.withKeyIds, OrdMap.mapWithKey, List.mem_map] at he
  obtain ⟨x, -, rfl⟩ := he
  rfl

theorem SubjectsOk.withKeyIds {limits : RuntimeLimits} {m : Subjects} (h : SubjectsOk limits m) :
    SubjectsOk limits (Subjects.withKeyIds m) := by
  have hmem : ∀ e ∈ (Subjects.withKeyIds m).entries, ∃ x ∈ m.entries, e.1 = x.1 ∧ e.2.state = x.2.state := by
    intro e he
    simp only [Subjects.withKeyIds, OrdMap.mapWithKey, List.mem_map] at he
    obtain ⟨x, hx, rfl⟩ := he
    exact ⟨x, hx, rfl, rfl⟩
  refine ⟨by simpa [Subjects.withKeyIds] using h.bound, fun e he => ?_, fun e he => ?_⟩
  · obtain ⟨x, hx, hk, -⟩ := hmem e he
    exact hk ▸ h.keys x hx
  · obtain ⟨x, hx, -, hs⟩ := hmem e he
    exact hs ▸ h.states x hx

/-- `subjects.size()` and the subject entries, as every document writes them. -/
def encodeSubjects (m : Subjects) : Script := putCount m.size ++ putEach encodeSubject m.entries

@[simp] theorem encodeSubjects_withKeyIds (m : Subjects) :
    encodeSubjects (Subjects.withKeyIds m) = encodeSubjects m := by
  have hsize : (Subjects.withKeyIds m).size = m.size := by simp [Subjects.withKeyIds]
  unfold encodeSubjects
  rw [hsize]
  simp only [putEach, Subjects.withKeyIds, OrdMap.mapWithKey, List.flatMap_map]
  rfl

theorem total_encodeSubjects {limits : RuntimeLimits} {m : Subjects} (h : SubjectsOk limits m) :
    (encodeSubjects m).Total := by
  simp only [encodeSubjects, Script.total_append, total_putCount, true_and, total_putEach]
  intro e he
  simp [encodeSubject, total_encodeState (h.states e he)]

theorem reads_subject {limits : RuntimeLimits} {e : SubjectId × SubjectEntry} (hk : e.1.empty = false)
    (hs : StateOk limits e.2.state) (hid : e.2.id = e.1)
    (hfit : (encodeSubject e).image.length ≤ kMaxCanonicalBytes) :
    Reads (decodeSubject limits) (encodeSubject e).image (some e) := by
  have hsize : e.2.state.size < 4294967296 := by
    have := state_size_le e.2.state
    simp only [encodeSubject, Script.image_append, List.length_append, kMaxCanonicalBytes] at hfit
    omega
  simp only [encodeSubject, Script.image_append]
  refine Reads.bind (reads_text e.1) ?_
  refine Reads.bind (reads_bool _) ?_
  refine reads_tryParse hk ?_
  refine Reads.bind_end (reads_state hs hsize) ?_
  obtain ⟨k, i, c, s⟩ := e
  simp only at hid
  subst hid
  exact Reads.pure _

theorem subject_fits {m : Subjects} {e : SubjectId × SubjectEntry} (he : e ∈ m.entries) :
    (encodeSubject e).image.length ≤ (encodeSubjects m).image.length := by
  have h := image_le_putEach (f := encodeSubject) he
  simp only [encodeSubjects, Script.image_append, List.length_append]
  omega

theorem subjects_size_le (m : Subjects) : m.size ≤ (encodeSubjects m).image.length := by
  have h := length_le_image_putEach (f := encodeSubject) (fun e => by
    have := image_putBytes_pos e.1.text (total_putId e.1)
    simp only [encodeSubject, Script.image_append, List.length_append]
    omega) m.entries
  simp only [encodeSubjects, Script.image_append, List.length_append]
  exact le_trans h (by omega)

/-- Reading back the subjects of a valid document. -/
theorem reads_subjects {limits : RuntimeLimits} {m : Subjects} (h : SubjectsOk limits m)
    (hid : ∀ e ∈ m.entries, e.2.id = e.1) (hfit : (encodeSubjects m).image.length ≤ kMaxCanonicalBytes) :
    Reads (Reader.map m.size (decodeSubject limits)) (putEach encodeSubject m.entries).image (some m) := by
  rw [image_putEach]
  refine reads_map fun e he => ?_
  exact reads_subject (h.keys e he) (h.states e he) (hid e he) (le_trans (subject_fits he) hfit)

theorem decodeSubject_sound {limits : RuntimeLimits} {bs rest : Bytes} {e : SubjectId × SubjectEntry}
    (h : decodeSubject limits bs = some (e, rest)) :
    e.1.empty = false ∧ StateOk limits e.2.state ∧ e.2.id = e.1 := by
  obtain ⟨text, _, -, h⟩ := Reader.bind_eq_some.mp h
  obtain ⟨complete, _, -, h⟩ := Reader.bind_eq_some.mp h
  obtain ⟨subject, _, hs, h⟩ := Reader.bind_eq_some.mp h
  obtain ⟨hs, -⟩ := Reader.ofOption_eq_some.mp hs
  obtain ⟨state, _, hst, h⟩ := Reader.bind_eq_some.mp h
  obtain ⟨rfl, -⟩ := Reader.pure_eq_some.mp h
  exact ⟨(StringId.tryParse_eq_some hs).2, decodeState_sound hst, rfl⟩

theorem decodeSubjects_sound {limits : RuntimeLimits} {n : Nat} {bs rest : Bytes} {m : Subjects}
    (hn : n ≤ limits.maxSubjectsPerDocument.toNat)
    (h : Reader.map n (decodeSubject limits) bs = some (m, rest)) :
    SubjectsOk limits m ∧ ∀ e ∈ m.entries, e.2.id = e.1 := by
  obtain ⟨hsize, hall⟩ := map_sound (P := fun e : SubjectId × SubjectEntry =>
    e.1.empty = false ∧ StateOk limits e.2.state ∧ e.2.id = e.1) (fun bs e rest he => decodeSubject_sound he) h
  exact ⟨⟨hsize ▸ hn, fun e he => (hall e he).1, fun e he => (hall e he).2.1⟩, fun e he => (hall e he).2.2⟩

/-! ## Intents -/

/-- `IntentDocument` (`document.hpp:54`). -/
structure IntentDocument where
  intent : IntentId
  scope : ScopeId
  definition : DefinitionId
  generation : IntentGeneration
  policyVersion : PolicyVersion
  evidence : EvidenceClass
  complete : Bool
  subjects : Subjects
  digest : Digest
deriving DecidableEq

/-- The fields every encoding of an intent starts with. -/
def intentContent (d : IntentDocument) : Script :=
  putBytes d.intent.text ++ (putBytes d.scope.text ++ (putBytes d.definition.text ++
  (putU64 d.generation ++ (putU64 d.policyVersion ++ (putEnum d.evidence ++ (putBool d.complete ++
  encodeSubjects d.subjects))))))

/-- `ComputeIntentDigest` (`document.cpp:68`). -/
def computeIntentDigest (d : IntentDocument) : Digest :=
  digestOf (putU16 kCanonicalSchemaVersion ++ intentContent d)

/-- `ValidateIntent` (`document.cpp:110`). -/
def validateIntent (d : IntentDocument) (limits : RuntimeLimits) : Status :=
  if d.intent.empty || d.scope.empty || d.definition.empty then
    ⟨.rejected, .unsupportedInput, "intent requires non-empty intent, scope and definition identities"⟩
  else validateSubjects d.subjects limits "intent"

def intentScript (d : IntentDocument) : Script := intentContent d ++ putDigest d.digest

/-- `EncodeIntent` (`document.cpp:174`). -/
def encodeIntent (d : IntentDocument) : Bytes := encoded (intentScript d)

/-- `DecodeIntent` (`document.cpp:240`). -/
def decodeIntent (limits : RuntimeLimits) : Reader IntentDocument := do
  let intentText ← Read.bytes
  let scopeText ← Read.bytes
  let definitionText ← Read.bytes
  let generation ← Read.u64
  let policyVersion ← Read.u64
  let evidence ← Read.enum EvidenceClass
  let complete ← Read.bool
  let count ← Read.u32
  Reader.require (decide (count ≤ limits.maxSubjectsPerDocument.toNat))
  let intent ← Reader.ofOption (StringId.tryParse intentText)
  let scope ← Reader.ofOption (StringId.tryParse scopeText)
  let definition ← Reader.ofOption (StringId.tryParse definitionText)
  let subjects ← Reader.map count (decodeSubject limits)
  let digest ← Read.digest
  let document : IntentDocument := {
    intent := intent, scope := scope, definition := definition, generation := generation
    policyVersion := policyVersion, evidence := evidence, complete := complete, subjects := subjects
    digest := digest }
  Reader.require (digest == computeIntentDigest document)
  return document

/-- `DecodeIntentExact` (`document.cpp:440`). -/
def decodeIntentExact (bytes : Bytes) (limits : RuntimeLimits) : Option IntentDocument :=
  (decodeIntent limits).exactly bytes

/-- A validated intent document carrying its digest. -/
structure IntentOk (limits : RuntimeLimits) (d : IntentDocument) : Prop where
  intent : d.intent.empty = false
  scope : d.scope.empty = false
  definition : d.definition.empty = false
  subjects : SubjectsOk limits d.subjects
  digest : d.digest = computeIntentDigest d

def IntentDocument.withKeyIds (d : IntentDocument) : IntentDocument :=
  { d with subjects := Subjects.withKeyIds d.subjects }

theorem validateIntent_ok {d : IntentDocument} {limits : RuntimeLimits}
    (h : (validateIntent d limits).code = .ok) :
    d.intent.empty = false ∧ d.scope.empty = false ∧ d.definition.empty = false ∧
      SubjectsOk limits d.subjects := by
  unfold validateIntent at h
  split at h
  · simp at h
  · rename_i hid
    simp only [Bool.or_eq_true, not_or, Bool.not_eq_true] at hid
    exact ⟨hid.1.1, hid.1.2, hid.2, validateSubjects_ok h⟩

@[simp] theorem intentContent_withKeyIds (d : IntentDocument) :
    intentContent d.withKeyIds = intentContent d := by
  simp [intentContent, IntentDocument.withKeyIds]

@[simp] theorem computeIntentDigest_withKeyIds (d : IntentDocument) :
    computeIntentDigest d.withKeyIds = computeIntentDigest d := by
  simp [computeIntentDigest]

/-- The digest does not depend on the digest field. -/
theorem computeIntentDigest_digest (d : IntentDocument) (x : Digest) :
    computeIntentDigest { d with digest := x } = computeIntentDigest d := rfl

theorem intentScript_withKeyIds (d : IntentDocument) : intentScript d.withKeyIds = intentScript d := by
  simp [intentScript, IntentDocument.withKeyIds, intentContent]

theorem IntentOk.withKeyIds {limits : RuntimeLimits} {d : IntentDocument} (h : IntentOk limits d) :
    IntentOk limits d.withKeyIds where
  intent := h.intent
  scope := h.scope
  definition := h.definition
  subjects := h.subjects.withKeyIds
  digest := by
    rw [computeIntentDigest_withKeyIds]
    exact h.digest

theorem total_intentScript {limits : RuntimeLimits} {d : IntentDocument} (h : IntentOk limits d) :
    (intentScript d).Total := by
  simp [intentScript, intentContent, total_encodeSubjects h.subjects]

/-- Reading back an intent whose entries carry their keys as ids. -/
theorem reads_intent_keyed {limits : RuntimeLimits} {d : IntentDocument} (h : IntentOk limits d)
    (hid : ∀ e ∈ d.subjects.entries, e.2.id = e.1)
    (hfit : (intentScript d).image.length ≤ kMaxCanonicalBytes) :
    Reads (decodeIntent limits) (intentScript d).image (some d) := by
  have hsub : (encodeSubjects d.subjects).image.length ≤ kMaxCanonicalBytes := by
    simp only [intentScript, intentContent, Script.image_append, List.length_append] at hfit
    omega
  have hcount : d.subjects.size < 4294967296 := by
    have := subjects_size_le d.subjects
    unfold kMaxCanonicalBytes at hsub
    omega
  simp only [intentScript, intentContent, encodeSubjects, Script.image_append, List.append_assoc]
  refine Reads.bind (reads_text d.intent) ?_
  refine Reads.bind (reads_text d.scope) ?_
  refine Reads.bind (reads_text d.definition) ?_
  refine Reads.bind (reads_u64 d.generation) ?_
  refine Reads.bind (reads_u64 d.policyVersion) ?_
  refine Reads.bind (reads_enum d.evidence (by decide)) ?_
  refine Reads.bind (reads_bool d.complete) ?_
  refine Reads.bind (reads_count hcount) ?_
  refine Reads.require (by simpa using h.subjects.bound) ?_
  refine reads_tryParse h.intent ?_
  refine reads_tryParse h.scope ?_
  refine reads_tryParse h.definition ?_
  refine Reads.bind (reads_subjects h.subjects hid hsub) ?_
  refine Reads.bind_end (reads_digest d.digest) ?_
  refine Reads.require ?_ (Reads.pure d)
  simpa using h.digest

/-- **`reads_intent`**: a validated intent is read back with its entry ids set to their keys. -/
theorem reads_intent {limits : RuntimeLimits} {d : IntentDocument} (h : IntentOk limits d)
    (hfit : (intentScript d).image.length ≤ kMaxCanonicalBytes) :
    Reads (decodeIntent limits) (intentScript d).image (some d.withKeyIds) := by
  rw [← intentScript_withKeyIds] at hfit ⊢
  exact reads_intent_keyed h.withKeyIds withKeyIds_id hfit

/-- **`decodeIntent_sound`**: an accepted intent is valid and in `withKeyIds` form. -/
theorem decodeIntent_sound {limits : RuntimeLimits} {bs rest : Bytes} {d : IntentDocument}
    (h : decodeIntent limits bs = some (d, rest)) : IntentOk limits d ∧ d.withKeyIds = d := by
  unfold decodeIntent at h
  simp only [Reader.bind_eq, Reader.pure_eq] at h
  iterate 8 obtain ⟨_, _, -, h⟩ := Reader.bind_eq_some.mp h
  obtain ⟨_, _, hcount, h⟩ := Reader.bind_eq_some.mp h
  obtain ⟨hcount, -⟩ := Reader.require_eq_some.mp hcount
  obtain ⟨intent, _, hi, h⟩ := Reader.bind_eq_some.mp h
  obtain ⟨hi, -⟩ := Reader.ofOption_eq_some.mp hi
  obtain ⟨scope, _, hs, h⟩ := Reader.bind_eq_some.mp h
  obtain ⟨hs, -⟩ := Reader.ofOption_eq_some.mp hs
  obtain ⟨definition, _, hd, h⟩ := Reader.bind_eq_some.mp h
  obtain ⟨hd, -⟩ := Reader.ofOption_eq_some.mp hd
  obtain ⟨subjects, _, hsub, h⟩ := Reader.bind_eq_some.mp h
  obtain ⟨hok, hids⟩ := decodeSubjects_sound (by simpa using hcount) hsub
  obtain ⟨digest, _, -, h⟩ := Reader.bind_eq_some.mp h
  obtain ⟨_, _, hdig, h⟩ := Reader.bind_eq_some.mp h
  obtain ⟨hdig, -⟩ := Reader.require_eq_some.mp hdig
  obtain ⟨rfl, -⟩ := Reader.pure_eq_some.mp h
  refine ⟨⟨(StringId.tryParse_eq_some hi).2, (StringId.tryParse_eq_some hs).2,
    (StringId.tryParse_eq_some hd).2, hok, by simpa using hdig⟩, ?_⟩
  simp [IntentDocument.withKeyIds, withKeyIds_eq_self hids]

/-! ## Observations -/

/-- `ObservationSubmission` (`document.hpp:79`). -/
structure ObservationSubmission where
  observation : ObservationId
  scope : ScopeId
  reporter : ReporterId
  generation : ObservationGeneration
  evidence : EvidenceClass
  complete : Bool
  authoritativeAbsence : Bool
  subjects : Subjects
deriving DecidableEq

/-- `ObservationDocument` (`document.hpp:97`). -/
structure ObservationDocument where
  observation : ObservationId
  scope : ScopeId
  reporter : ReporterId
  generation : ObservationGeneration
  evidence : EvidenceClass
  complete : Bool
  authoritativeAbsence : Bool
  receivedEpoch : CoordinatorEpoch
  receivedUnixMs : UnixMillis
  subjects : Subjects
  digest : Digest
deriving DecidableEq

def observationContent (d : ObservationDocument) : Script :=
  putBytes d.observation.text ++ (putBytes d.scope.text ++ (putBytes d.reporter.text ++
  (putU64 d.generation ++ (putEnum d.evidence ++ (putBool d.complete ++
  (putBool d.authoritativeAbsence ++ (putU64 d.receivedEpoch ++ (putI64 d.receivedUnixMs ++
  encodeSubjects d.subjects))))))))

/-- `ComputeObservationDigest` (`document.cpp:88`). -/
def computeObservationDigest (d : ObservationDocument) : Digest :=
  digestOf (putU16 kCanonicalSchemaVersion ++ observationContent d)

/-- `ValidateSubmission` (`document.cpp:152`). -/
def validateSubmission (s : ObservationSubmission) (limits : RuntimeLimits) : Status :=
  if s.observation.empty || s.scope.empty || s.reporter.empty then
    ⟨.rejected, .unsupportedInput,
      "observation requires non-empty observation, scope and reporter identities"⟩
  else validateSubjects s.subjects limits "observation"

def observationScript (d : ObservationDocument) : Script := observationContent d ++ putDigest d.digest

/-- `EncodeObservation` (`document.cpp:196`). -/
def encodeObservation (d : ObservationDocument) : Bytes := encoded (observationScript d)

/-- `DecodeObservation` (`document.cpp:309`). -/
def decodeObservation (limits : RuntimeLimits) : Reader ObservationDocument := do
  let observationText ← Read.bytes
  let scopeText ← Read.bytes
  let reporterText ← Read.bytes
  let generation ← Read.u64
  let evidence ← Read.enum EvidenceClass
  let complete ← Read.bool
  let authoritativeAbsence ← Read.bool
  let receivedEpoch ← Read.u64
  let receivedUnixMs ← Read.i64
  let count ← Read.u32
  Reader.require (decide (count ≤ limits.maxSubjectsPerDocument.toNat))
  let observation ← Reader.ofOption (StringId.tryParse observationText)
  let scope ← Reader.ofOption (StringId.tryParse scopeText)
  let reporter ← Reader.ofOption (StringId.tryParse reporterText)
  let subjects ← Reader.map count (decodeSubject limits)
  let digest ← Read.digest
  let document : ObservationDocument := {
    observation := observation, scope := scope, reporter := reporter, generation := generation
    evidence := evidence, complete := complete, authoritativeAbsence := authoritativeAbsence
    receivedEpoch := receivedEpoch, receivedUnixMs := receivedUnixMs, subjects := subjects
    digest := digest }
  Reader.require (digest == computeObservationDigest document)
  return document

def submissionScript (s : ObservationSubmission) : Script :=
  putBytes s.observation.text ++ (putBytes s.scope.text ++ (putBytes s.reporter.text ++
  (putU64 s.generation ++ (putEnum s.evidence ++ (putBool s.complete ++ (putBool s.authoritativeAbsence ++
  encodeSubjects s.subjects))))))

/-- `EncodeSubmission` (`document.cpp:222`). -/
def encodeSubmission (s : ObservationSubmission) : Bytes := encoded (submissionScript s)

/-- `DecodeSubmission` (`document.cpp:387`). -/
def decodeSubmission (limits : RuntimeLimits) : Reader ObservationSubmission := do
  let observationText ← Read.bytes
  let scopeText ← Read.bytes
  let reporterText ← Read.bytes
  let generation ← Read.u64
  let evidence ← Read.u8
  let complete ← Read.bool
  let authoritativeAbsence ← Read.bool
  let count ← Read.u32
  Reader.require (decide (count ≤ limits.maxSubjectsPerDocument.toNat))
  let evidence ← Reader.ofOption (Enumeration.ofRaw evidence)
  let observation ← Reader.ofOption (StringId.tryParse observationText)
  let scope ← Reader.ofOption (StringId.tryParse scopeText)
  let reporter ← Reader.ofOption (StringId.tryParse reporterText)
  let subjects ← Reader.map count (decodeSubject limits)
  return {
    observation := observation, scope := scope, reporter := reporter, generation := generation
    evidence := evidence, complete := complete, authoritativeAbsence := authoritativeAbsence
    subjects := subjects }

/-- `DecodeObservationExact` (`document.cpp:449`). -/
def decodeObservationExact (bytes : Bytes) (limits : RuntimeLimits) : Option ObservationDocument :=
  (decodeObservation limits).exactly bytes

/-- A validated observation document carrying its digest. -/
structure ObservationOk (limits : RuntimeLimits) (d : ObservationDocument) : Prop where
  observation : d.observation.empty = false
  scope : d.scope.empty = false
  reporter : d.reporter.empty = false
  subjects : SubjectsOk limits d.subjects
  digest : d.digest = computeObservationDigest d

def ObservationDocument.withKeyIds (d : ObservationDocument) : ObservationDocument :=
  { d with subjects := Subjects.withKeyIds d.subjects }

theorem validateSubmission_ok {s : ObservationSubmission} {limits : RuntimeLimits}
    (h : (validateSubmission s limits).code = .ok) :
    s.observation.empty = false ∧ s.scope.empty = false ∧ s.reporter.empty = false ∧
      SubjectsOk limits s.subjects := by
  unfold validateSubmission at h
  split at h
  · simp at h
  · rename_i hid
    simp only [Bool.or_eq_true, not_or, Bool.not_eq_true] at hid
    exact ⟨hid.1.1, hid.1.2, hid.2, validateSubjects_ok h⟩

@[simp] theorem observationContent_withKeyIds (d : ObservationDocument) :
    observationContent d.withKeyIds = observationContent d := by
  simp [observationContent, ObservationDocument.withKeyIds]

@[simp] theorem computeObservationDigest_withKeyIds (d : ObservationDocument) :
    computeObservationDigest d.withKeyIds = computeObservationDigest d := by
  simp [computeObservationDigest]

theorem computeObservationDigest_digest (d : ObservationDocument) (x : Digest) :
    computeObservationDigest { d with digest := x } = computeObservationDigest d := rfl

theorem observationScript_withKeyIds (d : ObservationDocument) :
    observationScript d.withKeyIds = observationScript d := by
  simp [observationScript, ObservationDocument.withKeyIds, observationContent]

theorem ObservationOk.withKeyIds {limits : RuntimeLimits} {d : ObservationDocument}
    (h : ObservationOk limits d) : ObservationOk limits d.withKeyIds where
  observation := h.observation
  scope := h.scope
  reporter := h.reporter
  subjects := h.subjects.withKeyIds
  digest := by
    rw [computeObservationDigest_withKeyIds]
    exact h.digest

theorem total_observationScript {limits : RuntimeLimits} {d : ObservationDocument}
    (h : ObservationOk limits d) : (observationScript d).Total := by
  simp [observationScript, observationContent, total_encodeSubjects h.subjects]

/-- Reading back an observation whose entries carry their keys as ids. -/
theorem reads_observation_keyed {limits : RuntimeLimits} {d : ObservationDocument}
    (h : ObservationOk limits d) (hid : ∀ e ∈ d.subjects.entries, e.2.id = e.1)
    (hfit : (observationScript d).image.length ≤ kMaxCanonicalBytes) :
    Reads (decodeObservation limits) (observationScript d).image (some d) := by
  have hsub : (encodeSubjects d.subjects).image.length ≤ kMaxCanonicalBytes := by
    simp only [observationScript, observationContent, Script.image_append, List.length_append] at hfit
    omega
  have hcount : d.subjects.size < 4294967296 := by
    have := subjects_size_le d.subjects
    unfold kMaxCanonicalBytes at hsub
    omega
  simp only [observationScript, observationContent, encodeSubjects, Script.image_append, List.append_assoc]
  refine Reads.bind (reads_text d.observation) ?_
  refine Reads.bind (reads_text d.scope) ?_
  refine Reads.bind (reads_text d.reporter) ?_
  refine Reads.bind (reads_u64 d.generation) ?_
  refine Reads.bind (reads_enum d.evidence (by decide)) ?_
  refine Reads.bind (reads_bool d.complete) ?_
  refine Reads.bind (reads_bool d.authoritativeAbsence) ?_
  refine Reads.bind (reads_u64 d.receivedEpoch) ?_
  refine Reads.bind (reads_i64 d.receivedUnixMs) ?_
  refine Reads.bind (reads_count hcount) ?_
  refine Reads.require (by simpa using h.subjects.bound) ?_
  refine reads_tryParse h.observation ?_
  refine reads_tryParse h.scope ?_
  refine reads_tryParse h.reporter ?_
  refine Reads.bind (reads_subjects h.subjects hid hsub) ?_
  refine Reads.bind_end (reads_digest d.digest) ?_
  refine Reads.require ?_ (Reads.pure d)
  simpa using h.digest

/-- **`reads_observation`**: a validated observation is read back with its entry ids set to their
keys. -/
theorem reads_observation {limits : RuntimeLimits} {d : ObservationDocument} (h : ObservationOk limits d)
    (hfit : (observationScript d).image.length ≤ kMaxCanonicalBytes) :
    Reads (decodeObservation limits) (observationScript d).image (some d.withKeyIds) := by
  rw [← observationScript_withKeyIds] at hfit ⊢
  exact reads_observation_keyed h.withKeyIds withKeyIds_id hfit

/-- **`decodeObservation_sound`**: an accepted observation is valid and in `withKeyIds` form. -/
theorem decodeObservation_sound {limits : RuntimeLimits} {bs rest : Bytes} {d : ObservationDocument}
    (h : decodeObservation limits bs = some (d, rest)) : ObservationOk limits d ∧ d.withKeyIds = d := by
  unfold decodeObservation at h
  simp only [Reader.bind_eq, Reader.pure_eq] at h
  iterate 10 obtain ⟨_, _, -, h⟩ := Reader.bind_eq_some.mp h
  obtain ⟨_, _, hcount, h⟩ := Reader.bind_eq_some.mp h
  obtain ⟨hcount, -⟩ := Reader.require_eq_some.mp hcount
  obtain ⟨observation, _, ho, h⟩ := Reader.bind_eq_some.mp h
  obtain ⟨ho, -⟩ := Reader.ofOption_eq_some.mp ho
  obtain ⟨scope, _, hs, h⟩ := Reader.bind_eq_some.mp h
  obtain ⟨hs, -⟩ := Reader.ofOption_eq_some.mp hs
  obtain ⟨reporter, _, hr, h⟩ := Reader.bind_eq_some.mp h
  obtain ⟨hr, -⟩ := Reader.ofOption_eq_some.mp hr
  obtain ⟨subjects, _, hsub, h⟩ := Reader.bind_eq_some.mp h
  obtain ⟨hok, hids⟩ := decodeSubjects_sound (by simpa using hcount) hsub
  obtain ⟨digest, _, -, h⟩ := Reader.bind_eq_some.mp h
  obtain ⟨_, _, hdig, h⟩ := Reader.bind_eq_some.mp h
  obtain ⟨hdig, -⟩ := Reader.require_eq_some.mp hdig
  obtain ⟨rfl, -⟩ := Reader.pure_eq_some.mp h
  refine ⟨⟨(StringId.tryParse_eq_some ho).2, (StringId.tryParse_eq_some hs).2,
    (StringId.tryParse_eq_some hr).2, hok, by simpa using hdig⟩, ?_⟩
  simp [ObservationDocument.withKeyIds, withKeyIds_eq_self hids]

end FabricReconciliation
