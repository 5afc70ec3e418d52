import FabricReconciliation.Codecs
import FabricReconciliation.Evidence
import FabricReconciliation.Lib.Ceiling
import FabricReconciliation.Publishing

/-!
# What a key binds (`plan.cpp:103-121`, `plan.hpp:149-190`, `engine.cpp:825-907`)

The planner computes the key of an action from the desired and the observed state of its subject.
`Dispatch` builds the action intents anew, in two places, and fills in `expected_observed` in neither.

* **`keyImage_inj`** — what is hashed determines every field of the key and the digests of both states;
* **`key_identifies`** — keys of two different actions, or of one on different evidence, are different;
* **`dispatchLoop_answers`** — each intent is that of an attempt with the key of the decision it answers;
* **`bound_iff`** — the intents of a dispatch carry what their keys bind exactly when the plan has seen no
  attribute of any subject acted on;
* **`unbound_intent`** — a subject that is seen with the wrong value is acted on under a key that its own intent
  does not hash to.
-/

namespace FabricReconciliation

open Lib

/-! ## The hashed bytes -/

/-- Two different texts that SHA-256 does not tell apart. -/
def Collides (x y : Bytes) : Prop := x ≠ y ∧ sha256Of x = sha256Of y

instance (x y : Bytes) : Decidable (Collides x y) := inferInstanceAs (Decidable (_ ∧ _))

theorem sha256Of_eq_iff {x y : Bytes} : sha256Of x = sha256Of y ↔ x = y ∨ Collides x y := by
  constructor
  · intro h
    by_cases hsame : x = y
    · exact .inl hsame
    · exact .inr ⟨hsame, h⟩
  · rintro (rfl | hcollides)
    · rfl
    · exact hcollides.2

/-- What `DigestOfState` hashes. -/
def stateImage (state : SubjectState) : Bytes := (fill kMaxCanonicalBytes (encodeState state)).1

/-- What `ComputeIdempotencyKey` hashes. -/
def keyImage (scope : ScopeId) (subject : SubjectId) (action : ActionKind) (authority : AuthorityVector)
    (desired expectedObserved : SubjectState) : Bytes :=
  (fill kMaxCanonicalBytes (idempotencyScript scope subject action authority desired expectedObserved)).1

theorem stateImage_empty : stateImage OrdMap.empty = [0, 0, 0, 0] := by decide

/-- A state with attributes is longer than the count that begins it. -/
theorem stateImage_eq_empty {state : SubjectState} : stateImage state = stateImage OrdMap.empty ↔ state = OrdMap.empty := by
  constructor
  · intro h
    cases hentries : state.entries with
    | nil => exact OrdMap.ext hentries
    | cons entry rest =>
      -- the count and the length of the first key are written in any case
      have hkey : ¬0xffffffff < entry.1.text.length := by
        have := entry.1.text_length
        omega
      rw [stateImage_empty, stateImage, encodeState, hentries] at h
      simp [putCount, putLE, leBytes, putEach, encodeAttribute, putBytes, hkey, fill, kMaxCanonicalBytes] at h
  · rintro rfl
    rfl

/-- What the key is computed from: of the authority only the two documents and the definition. -/
structure SameKeyed (a b : AuthorityVector) : Prop where
  intentGeneration : a.intentGeneration = b.intentGeneration
  intentDigest : a.intentDigest = b.intentDigest
  observationGeneration : a.observationGeneration = b.observationGeneration
  observationDigest : a.observationDigest = b.observationDigest
  definition : a.definition = b.definition

instance (a b : AuthorityVector) : Decidable (SameKeyed a b) :=
  decidable_of_iff (a.intentGeneration = b.intentGeneration ∧ a.intentDigest = b.intentDigest ∧
      a.observationGeneration = b.observationGeneration ∧ a.observationDigest = b.observationDigest ∧
      a.definition = b.definition)
    ⟨fun ⟨h1, h2, h3, h4, h5⟩ => ⟨h1, h2, h3, h4, h5⟩, fun h =>
      ⟨h.intentGeneration, h.intentDigest, h.observationGeneration, h.observationDigest, h.definition⟩⟩

section Image

variable {scope scope' : ScopeId} {subject subject' : SubjectId} {action action' : ActionKind}
  {authority authority' : AuthorityVector} {desired desired' observed observed' : SubjectState}

/-- The key's writer never fails and stays far below its ceiling. -/
theorem keyImage_eq : keyImage scope subject action authority desired observed =
    (idempotencyScript scope subject action authority desired observed).image := by
  have htotal : (idempotencyScript scope subject action authority desired observed).Total := by
    simp [idempotencyScript]
  have hlength : (idempotencyScript scope subject action authority desired observed).image.length ≤ kMaxCanonicalBytes := by
    have h₁ := length_putId scope
    have h₂ := length_putId subject
    have h₃ := length_putId authority.definition
    simp only [idempotencyScript, Script.image_append, List.length_append]
    simp only [putU16, putU64, putEnum, putDigest, image_putLE, image_putRaw, length_leBytes, FixedBytes.length_eq,
      kMaxCanonicalBytes]
    omega
  rw [keyImage, fill_eq htotal hlength]

/-- **`keyImage_inj`**. -/
theorem keyImage_inj : keyImage scope subject action authority desired observed =
      keyImage scope' subject' action' authority' desired' observed' ↔
    scope = scope' ∧ subject = subject' ∧ action = action' ∧ SameKeyed authority authority' ∧
      digestOfState desired = digestOfState desired' ∧ digestOfState observed = digestOfState observed' := by
  constructor
  · intro h
    simp only [keyImage_eq, idempotencyScript, Script.image_append] at h
    obtain ⟨-, h⟩ := Reads.split (reads_u16 (by decide)) (reads_u16 (by decide)) h
    obtain ⟨hscope, h⟩ := Reads.split (reads_text scope) (reads_text scope') h
    obtain ⟨hsubject, h⟩ := Reads.split (reads_text subject) (reads_text subject') h
    obtain ⟨haction, h⟩ := Reads.split (reads_enum action (by decide)) (reads_enum action' (by decide)) h
    obtain ⟨hintent, h⟩ := Reads.split (reads_u64 _) (reads_u64 _) h
    obtain ⟨hintentDigest, h⟩ := Reads.split (reads_digest _) (reads_digest _) h
    obtain ⟨hobservation, h⟩ := Reads.split (reads_u64 _) (reads_u64 _) h
    obtain ⟨hobservationDigest, h⟩ := Reads.split (reads_digest _) (reads_digest _) h
    obtain ⟨hdefinition, h⟩ := Reads.split (reads_text authority.definition) (reads_text authority'.definition) h
    obtain ⟨hdesired, h⟩ := Reads.split (reads_digest _) (reads_digest _) h
    obtain ⟨hobserved, -⟩ := Reads.split (reads_digest _) (reads_digest _) (congrArg (· ++ ([] : Bytes)) h)
    exact ⟨StringId.ext hscope, StringId.ext hsubject, haction,
      ⟨hintent, hintentDigest, hobservation, hobservationDigest, StringId.ext hdefinition⟩, hdesired, hobserved⟩
  · rintro ⟨rfl, rfl, rfl, hkeyed, hdesired, hobserved⟩
    rw [keyImage, keyImage, idempotencyScript, idempotencyScript, hkeyed.intentGeneration, hkeyed.intentDigest,
      hkeyed.observationGeneration, hkeyed.observationDigest, hkeyed.definition, hdesired, hobserved]

theorem key_congr (h : SameKeyed authority authority') :
    computeIdempotencyKey scope subject action authority desired observed =
      computeIdempotencyKey scope subject action authority' desired observed := by
  have hsame : keyImage scope subject action authority desired observed =
      keyImage scope subject action authority' desired observed := keyImage_inj.mpr ⟨rfl, rfl, rfl, h, rfl, rfl⟩
  exact congrArg sha256Of hsame

/-- The bound on the attributes is all that the validity of a state takes from the limits. -/
theorem StateOk.mono {limits limits' : RuntimeLimits} {state : SubjectState} (h : StateOk limits state)
    (hle : limits.maxAttributesPerSubject ≤ limits'.maxAttributesPerSubject) : StateOk limits' state :=
  ⟨le_trans h.bound (UInt64.le_iff_toNat_le.mp hle), h.keys, h.values⟩

/-- What is hashed of a valid state that fits the ceiling determines it. -/
theorem stateImage_inj {limits limits' : RuntimeLimits} {state state' : SubjectState} (h : StateOk limits state)
    (h' : StateOk limits' state') (hfits : (encodeState state).image.length ≤ kMaxCanonicalBytes)
    (hfits' : (encodeState state').image.length ≤ kMaxCanonicalBytes) (heq : stateImage state = stateImage state') :
    state = state' := by
  -- both are read back under the larger of the two bounds
  obtain ⟨common, hcommon, hcommon'⟩ : ∃ common, StateOk common state ∧ StateOk common state' := by
    rcases le_total limits.maxAttributesPerSubject limits'.maxAttributesPerSubject with hle | hle
    · exact ⟨limits', h.mono hle, h'⟩
    · exact ⟨limits, h, h'.mono hle⟩
  have hsize := state_size_le state
  have hsize' := state_size_le state'
  unfold kMaxCanonicalBytes at hfits hfits'
  rw [stateImage, stateImage, fill_eq (total_encodeState h) hfits, fill_eq (total_encodeState h') hfits'] at heq
  exact (Reads.split (reads_state hcommon (by omega)) (reads_state hcommon' (by omega))
    (congrArg (· ++ ([] : Bytes)) heq)).1

/-- **`key_identifies`**: equal keys are keys of the same action on the same evidence, unless SHA-256 collides on
what was hashed. -/
theorem key_identifies {limits limits' : RuntimeLimits} (hdesired : StateOk limits desired) (hobserved : StateOk limits observed)
    (hdesired' : StateOk limits' desired') (hobserved' : StateOk limits' observed')
    (hfits : ∀ state ∈ [desired, observed, desired', observed'], (encodeState state).image.length ≤ kMaxCanonicalBytes)
    (hkeys : ¬Collides (keyImage scope subject action authority desired observed)
      (keyImage scope' subject' action' authority' desired' observed'))
    (hstates : ¬Collides (stateImage desired) (stateImage desired') ∧ ¬Collides (stateImage observed) (stateImage observed'))
    (heq : computeIdempotencyKey scope subject action authority desired observed =
      computeIdempotencyKey scope' subject' action' authority' desired' observed') :
    scope = scope' ∧ subject = subject' ∧ action = action' ∧ SameKeyed authority authority' ∧ desired = desired' ∧
      observed = observed' := by
  have himage := (sha256Of_eq_iff.mp heq).resolve_right hkeys
  obtain ⟨hscope, hsubject, haction, hkeyed, hdigest, hdigest'⟩ := keyImage_inj.mp himage
  refine ⟨hscope, hsubject, haction, hkeyed, ?_, ?_⟩
  · exact stateImage_inj hdesired hdesired' (hfits _ (by simp)) (hfits _ (by simp))
      ((sha256Of_eq_iff.mp hdigest).resolve_right hstates.1)
  · exact stateImage_inj hobserved hobserved' (hfits _ (by simp)) (hfits _ (by simp))
      ((sha256Of_eq_iff.mp hdigest').resolve_right hstates.2)

end Image

/-- `k` is set, and set the other way. -/
def sampleSetting (value : Bool) : SubjectState := OrdMap.empty.insert sampleKey (.boolean value)

theorem sampleSetting_ok (value : Bool) : StateOk {} (sampleSetting value) := by
  cases value <;> constructor <;> decide

/-- Two settings of one attribute give two keys. -/
theorem key_identifies_settings :
    computeIdempotencyKey sampleScope sampleSubject .applyDesired sampleAuthority (sampleSetting true) (sampleSetting false) ≠
      computeIdempotencyKey sampleScope sampleSubject .applyDesired sampleAuthority (sampleSetting true) OrdMap.empty := by
  intro heq
  have hempty : StateOk {} (OrdMap.empty : SubjectState) := by constructor <;> decide
  have hsame := key_identifies (sampleSetting_ok true) (sampleSetting_ok false) (sampleSetting_ok true) hempty
    (by decide) (by decide +kernel) (by decide +kernel) heq
  exact absurd hsame.2.2.2.2.2 (by decide)

/-! ## What `Dispatch` answers with -/

/-- A target that recomputes the key of the intent from what the intent carries gets the key it carries. -/
def ActionIntent.Bound (a : ActionIntent) : Prop :=
  computeIdempotencyKey a.scope a.subject a.action a.authority a.desired a.expectedObserved = a.idempotencyKey

instance (a : ActionIntent) : Decidable a.Bound := by
  unfold ActionIntent.Bound
  infer_instance

/-- The decisions that the loop of `Dispatch` answers, each with the attempt it answers with. -/
def answersOf (live : Incarnation) (now : UnixMillis) : List Decision → DurableStore → List (Decision × AttemptRecord)
  | [], _ => []
  | d :: rest, s =>
    if d.disposition ≠ .actionable then answersOf live now rest s
    else if fenceHoldsFor s.state d.scope d.subject live.epoch then answersOf live now rest s
    else match Engine.reusable s.state live.epoch d.idempotencyKey with
      | some existing => (d, existing) :: answersOf live now rest s
      | none =>
        let attempt := Engine.newAttempt live now s.state.nextAttempt d
        (d, attempt) :: answersOf live now rest (s.issueAttempt attempt).2

/-- What a dispatch of the plan answers. -/
def Engine.answers (e : Engine) (env : CallEnv) (plan : ReconciliationPlan) : List (Decision × AttemptRecord) :=
  answersOf e.live env.now plan.decisions (e.under env).store

section Loop

variable {live : Incarnation} {now : UnixMillis} {intent : IntentDocument}

/-- **`dispatchLoop_answers`**: the intents are those of the answering attempts. -/
theorem dispatchLoop_answers {decisions : List Decision} {s : DurableStore} {result final : DispatchResult}
    (h : (Engine.dispatchLoop live now intent decisions s result).1 = .ok final) :
    final.intents = result.intents ++ (answersOf live now decisions s).map fun x => Engine.actionIntent intent x.2 := by
  induction decisions generalizing s result with
  | nil =>
    simp only [Engine.dispatchLoop, Except.ok.injEq] at h
    simp [answersOf, h]
  | cons d rest ih =>
    unfold Engine.dispatchLoop at h
    unfold answersOf
    by_cases hact : d.disposition ≠ .actionable
    · rw [if_pos hact] at h ⊢
      exact ih h
    rw [if_neg hact] at h ⊢
    cases hfence : fenceHoldsFor s.state d.scope d.subject live.epoch with
    | true =>
      rw [if_pos hfence] at h
      have hintents := ih h
      rw [if_pos rfl]
      exact hintents
    | false =>
      rw [if_neg (by simp [hfence])] at h
      rw [if_neg (by simp)]
      cases hreuse : Engine.reusable s.state live.epoch d.idempotencyKey with
      | some existing =>
        simp only [hreuse] at h
        rw [ih h, List.map_cons, List.append_assoc, List.singleton_append]
      | none =>
        simp only [hreuse] at h
        by_cases hs : (s.issueAttempt (Engine.newAttempt live now s.state.nextAttempt d)).1.code ≠ .ok
        · rw [if_pos hs] at h
          simp at h
        · rw [if_neg hs] at h
          rw [ih h, List.map_cons, List.append_assoc, List.singleton_append]

/-- An answer is to an actionable decision, under the key of the decision. -/
theorem answersOf_key {decisions : List Decision} {s : DurableStore} {x : Decision × AttemptRecord}
    (h : x ∈ answersOf live now decisions s) :
    x.1 ∈ decisions ∧ x.1.disposition = .actionable ∧ x.2.idempotencyKey = x.1.idempotencyKey := by
  induction decisions generalizing s with
  | nil => simp [answersOf] at h
  | cons d rest ih =>
    have hrest : ∀ {s}, x ∈ answersOf live now rest s →
        x.1 ∈ d :: rest ∧ x.1.disposition = .actionable ∧ x.2.idempotencyKey = x.1.idempotencyKey := by
      intro s hx
      obtain ⟨hmem, hkey⟩ := ih hx
      exact ⟨List.mem_cons_of_mem d hmem, hkey⟩
    unfold answersOf at h
    by_cases hact : d.disposition ≠ .actionable
    · rw [if_pos hact] at h
      exact hrest h
    rw [if_neg hact] at h
    cases hfence : fenceHoldsFor s.state d.scope d.subject live.epoch with
    | true =>
      rw [if_pos hfence] at h
      exact hrest h
    | false =>
      rw [if_neg (by simp [hfence])] at h
      cases hreuse : Engine.reusable s.state live.epoch d.idempotencyKey with
      | some existing =>
        simp only [hreuse] at h
        rcases List.mem_cons.mp h with rfl | hx
        · have hkey := List.find?_some hreuse
          simp only [Bool.and_eq_true, decide_eq_true_eq] at hkey
          exact ⟨List.mem_cons_self, not_not.mp hact, hkey.1.1⟩
        · exact hrest hx
      | none =>
        simp only [hreuse] at h
        rcases List.mem_cons.mp h with rfl | hx
        · exact ⟨List.mem_cons_self, not_not.mp hact, rfl⟩
        · exact hrest hx

end Loop

/-! ## The intents and their keys -/

/-- What the intent declares for the subject. -/
def IntentDocument.declares (d : IntentDocument) (subject : SubjectId) : SubjectState :=
  match d.subjects.find? subject with
  | none => OrdMap.empty
  | some declared => declared.desired

/-- What the selected observation of the scope shows of the subject. -/
def DurableState.shows (s : DurableState) (scope : ScopeId) (subject : SubjectId) : SubjectState :=
  match (s.selection scope).selected with
  | none => OrdMap.empty
  | some d => match d.subjects.find? subject with
    | none => OrdMap.empty
    | some seen => seen.observed

/-- The attempt is for what the decision decides. -/
structure AttemptRecord.Names (a : AttemptRecord) (d : Decision) : Prop where
  scope : a.scope = d.scope
  subject : a.subject = d.subject
  action : a.action = d.action
  authority : SameKeyed a.authority d.authority

instance (a : AttemptRecord) (d : Decision) : Decidable (a.Names d) :=
  decidable_of_iff (a.scope = d.scope ∧ a.subject = d.subject ∧ a.action = d.action ∧ SameKeyed a.authority d.authority)
    ⟨fun ⟨h1, h2, h3, h4⟩ => ⟨h1, h2, h3, h4⟩, fun h => ⟨h.scope, h.subject, h.action, h.authority⟩⟩

/-- No attribute of the subject is seen. -/
def Unseen (state : SubjectState) : Prop :=
  state = OrdMap.empty ∨ Collides (stateImage state) (stateImage OrdMap.empty)

/-- The key of the decision and that of the intent it is answered with are the hashes of different bytes, and equal. -/
def KeysCollide (intent : IntentDocument) (shown : SubjectState) (d : Decision) (a : AttemptRecord) : Prop :=
  Collides (keyImage a.scope a.subject a.action a.authority (intent.declares a.subject) OrdMap.empty)
    (keyImage d.scope d.subject d.action d.authority (intent.declares d.subject) shown)

section Answers

variable {limits : RuntimeLimits} {planner e : Engine} {env env' : CallEnv} {request : PlanRequest}
  {plan : ReconciliationPlan} {intent : IntentDocument} {result : DispatchResult} {d : Decision} {a : AttemptRecord}

theorem digestOfState_empty {state : SubjectState} :
    digestOfState OrdMap.empty = digestOfState state ↔ Unseen state := by
  rw [eq_comm]
  refine sha256Of_eq_iff.trans (or_congr_left ?_)
  exact stateImage_eq_empty

/-- The intent of an attempt against the decision whose key the attempt has. -/
theorem bound_answer {shown : SubjectState} (hkey : a.idempotencyKey = d.idempotencyKey)
    (hd : d.idempotencyKey = computeIdempotencyKey d.scope d.subject d.action d.authority (intent.declares d.subject) shown) :
    (Engine.actionIntent intent a).Bound ↔ a.Names d ∧ Unseen shown ∨ KeysCollide intent shown d a := by
  have hbound : (Engine.actionIntent intent a).Bound ↔
      sha256Of (keyImage a.scope a.subject a.action a.authority (intent.declares a.subject) OrdMap.empty) =
        sha256Of (keyImage d.scope d.subject d.action d.authority (intent.declares d.subject) shown) := by
    rw [show sha256Of (keyImage d.scope d.subject d.action d.authority (intent.declares d.subject) shown) =
      a.idempotencyKey from (hkey.trans hd).symm]
    rfl
  rw [hbound, sha256Of_eq_iff, keyImage_inj, digestOfState_empty]
  refine or_congr_left ?_
  constructor
  · rintro ⟨hscope, hsubject, haction, hkeyed, -, hunseen⟩
    exact ⟨⟨hscope, hsubject, haction, hkeyed⟩, hunseen⟩
  · rintro ⟨hnames, hunseen⟩
    exact ⟨hnames.scope, hnames.subject, hnames.action, hnames.authority, by rw [hnames.subject], hunseen⟩

/-- An actionable decision: its key is that of the committed intent's state and of what the observation shows. -/
theorem planned_key (hplan : planner.plan env request = .ok plan) (hd : d ∈ plan.decisions)
    (hactionable : d.disposition = .actionable) :
    ∃ committed, planner.store.state.intents.find? plan.scope = some committed ∧
      plan.intentGeneration = committed.generation ∧
      d.idempotencyKey = computeIdempotencyKey d.scope d.subject d.action d.authority (committed.declares d.subject)
        (planner.store.state.shows plan.scope d.subject) := by
  obtain ⟨report, hreport, rfl⟩ := plan_report hplan
  rw [assemblePlan_decisions] at hd
  obtain ⟨record, hrecord, rfl⟩ := List.mem_map.mp hd
  obtain ⟨hpermitted, -⟩ := PlanBasis.decision_actionable.mp hactionable
  obtain ⟨committed, observation, hcompares, -⟩ := permitted_merges hreport (List.mem_of_mem_take hrecord) hpermitted
  have hevidence := hcompares.evidence hreport
  refine ⟨committed, hcompares.committed, ?_, ?_⟩
  · show report.evidence.intentGeneration = _
    rw [hevidence]
    rfl
  · have hdesired : (request.basis planner report.evidence).desired record.subject = committed.declares record.subject := by
      unfold PlanBasis.desired
      rw [show (request.basis planner report.evidence).intent = some committed from hcompares.committed]
      rfl
    show computeIdempotencyKey _ _ _ _ _ _ = _
    rw [hdesired]
    rfl

/-- **`bound_iff`**: the intents of a dispatch carry what their keys bind exactly when no answered decision has an
attribute of its subject in view, and each is answered by an attempt for the same thing. -/
theorem bound_iff (hrun : Run limits Process.Orderly (.up planner)) (hplan : planner.plan env request = .ok plan)
    (hlater : Later limits Process.Orderly (.up planner) (.up e)) (hok : (e.dispatch env' plan).1 = .ok result) :
    (∀ a ∈ result.intents, a.Bound) ↔ ∀ x ∈ e.answers env' plan,
      x.2.Names x.1 ∧ Unseen (planner.store.state.shows plan.scope x.1.subject) ∨
        ∃ intent, e.store.state.intents.find? plan.scope = some intent ∧
          KeysCollide intent (planner.store.state.shows plan.scope x.1.subject) x.1 x.2 := by
  unfold Engine.dispatch at hok
  cases hgate : e.admitPlan plan with
  | error status =>
    rw [hgate] at hok
    simp at hok
  | ok intent =>
    have hadmitted := admitPlan_ok hgate
    have hintents : result.intents = (e.answers env' plan).map fun x => Engine.actionIntent intent x.2 := by
      rw [hgate] at hok
      rcases hloop : Engine.dispatchLoop e.live env'.now intent plan.decisions (e.under env').store {} with ⟨answer, s⟩
      simp only [hloop] at hok
      cases answer with
      | error status => simp at hok
      | ok final =>
        simp only [Except.ok.injEq] at hok
        subst hok
        have hanswers := dispatchLoop_answers (congrArg Prod.fst hloop)
        rw [hanswers, List.nil_append, Engine.answers]
    rw [hintents, List.forall_mem_map]
    refine forall₂_congr fun x hx => ?_
    obtain ⟨hmem, hactionable, hkey⟩ := answersOf_key hx
    obtain ⟨committed, hcommitted, hgeneration, hplanned⟩ := planned_key hplan hmem hactionable
    -- the generation is the plan's, so it is still the intent that was planned on
    have hsame : intent = committed := by
      obtain ⟨d', hd', hcase⟩ := (later_newer hrun hlater).intents plan.scope committed hcommitted
      have hlast : d' = intent := Option.some.inj (hd'.symm.trans hadmitted.committed)
      rw [hlast] at hcase
      refine hcase.resolve_right fun hlt => ?_
      rw [hadmitted.intent.1, hgeneration] at hlt
      exact lt_irrefl _ hlt
    subst hsame
    rw [bound_answer hkey hplanned]
    refine or_congr_right ?_
    constructor
    · intro hcollide
      exact ⟨intent, hadmitted.committed, hcollide⟩
    · rintro ⟨other, hother, hcollide⟩
      rw [hadmitted.committed, Option.some.injEq] at hother
      exact hother ▸ hcollide

end Answers

/-- The subject is to have `k`, and is seen without it being set. -/
def sampleWrongValue : ObservationSubmission :=
  { sampleReport 1 with
    subjects := OrdMap.empty.insert sampleSubject ⟨sampleSubject, true, OrdMap.empty.insert sampleKey (.boolean false)⟩ }

def sampleMismatched : Process :=
  (sampleStart.after (.call (.commitIntent sampleWithKey) {})).after (.call (.recordObservationAt sampleWrongValue 1) {})

/-- The missing subject is acted on; nothing of it is seen. -/
theorem SamplePlanned.answers {plan : ReconciliationPlan} {d : Decision} (h : SamplePlanned plan d) :
    (sampleEngine 16 4).answers {} plan = [(d, plannedAttempt d 0)] := by
  have hopen : fenceHoldsFor ((sampleEngine 16 4).under {}).store.state d.scope d.subject (sampleEngine 16 4).live.epoch =
      false := rfl
  have hnew : Engine.reusable ((sampleEngine 16 4).under {}).store.state (sampleEngine 16 4).live.epoch
      d.idempotencyKey = none := rfl
  unfold Engine.answers
  rw [h.decisions, answersOf, if_neg (by simp [h.disposition]), if_neg (by simp [hopen]), hnew]
  rfl

/-- The intent for the missing subject carries what its key binds. -/
theorem bound_iff_missing : ∃ e plan result, sampleObserved = .up e ∧ e.plan {} ⟨sampleScope, none, 1⟩ = .ok plan ∧
    (e.dispatch {} plan).1 = .ok result ∧ result.intents ≠ [] ∧ ∀ a ∈ result.intents, a.Bound := by
  obtain ⟨plan, d, h⟩ := sample_planned
  have hresult := congrArg Prod.fst (h.dispatched (show ({} : CallEnv).faults = [] from rfl))
  refine ⟨sampleEngine 16 4, plan, _, sampleObserved_eq, h.made, hresult, by simp, ?_⟩
  refine (bound_iff sampleEngine_run h.made .refl hresult).mpr fun x hx => ?_
  rw [h.answers, List.mem_singleton] at hx
  subst hx
  have hempty : (sampleEngine 16 4).store.state.shows sampleScope d.subject = OrdMap.empty := by
    unfold DurableState.shows DurableState.selection
    rw [sample_selected]
    rfl
  rw [h.targets, hempty]
  exact .inl ⟨⟨rfl, rfl, rfl, ⟨rfl, rfl, rfl, rfl, rfl⟩⟩, .inl rfl⟩

/-- What the actions for the subject with the wrong value rest on. -/
def mismatchedAuthority : AuthorityVector :=
  buildAuthority {} ⟨1, FixedBytes.zero⟩ (evidenceOf (some keyedIntent.withKeyIds)
    (some (sampleWrongValue.document 1 1).withKeyIds) defaultPolicy 1 1)

theorem mismatched_key :
    computeIdempotencyKey sampleScope sampleSubject .applyDesired mismatchedAuthority (sampleSetting true) OrdMap.empty ≠
      computeIdempotencyKey sampleScope sampleSubject .applyDesired mismatchedAuthority (sampleSetting true)
        (sampleSetting false) := by
  decide +kernel

theorem sampleMismatched_eq : sampleMismatched = .up (keyedEngine (sampleEvents.take 2) sampleWrongValue) := by
  rw [sampleMismatched, sampleStart_eq]
  apply keyed_recorded
  · rfl
  · rfl
  · rfl
  · rfl
  · decide
  · exact .inr (show (1 : UInt64) < 8192 by decide)
  · exact .inr (show (2 : UInt64) < 8192 by decide)

theorem sampleMismatched_run : Run {} Process.Orderly sampleMismatched := by
  rw [sampleMismatched]
  have hstart : Run {} Process.Orderly sampleStart := sampleStart_allowed trivial
  have hintended := hstart.after (a := .call (.commitIntent sampleWithKey) {}) (.inl rfl) (by simp)
  exact hintended.after (.inl rfl) (by simp)

/-- How the subject with the wrong value is classified. -/
def mismatchedRecord : DriftRecord :=
  classifySubject sampleScope defaultPolicy
    (evidenceClassOf (some keyedIntent.withKeyIds) (some (sampleWrongValue.document 1 1).withKeyIds))
    keyedIntent.withKeyIds (sampleWrongValue.document 1 1).withKeyIds
    (.both sampleSubject ⟨sampleSubject, true, sampleSetting true⟩ ⟨sampleSubject, true, sampleSetting false⟩)

/-- The wrong value is acted on. -/
theorem mismatched_planned : ∃ plan d,
    (keyedEngine (sampleEvents.take 2) sampleWrongValue).plan {} ⟨sampleScope, none, 1⟩ = .ok plan ∧
    plan.scope = sampleScope ∧ plan.decisions = [d] ∧ d.disposition = .actionable ∧ d.scope = sampleScope ∧
    d.subject = sampleSubject ∧ d.action = .applyDesired ∧ SameKeyed d.authority mismatchedAuthority := by
  have hrun := sampleMismatched_run
  rw [sampleMismatched_eq] at hrun
  have hfresh : evaluateFreshness (sampleWrongValue.document 1 1).withKeyIds defaultPolicy.freshness 1 1 = .fresh := by
    decide
  obtain ⟨b, hevidence, hplan⟩ := @keyed_plans (sampleEvents.take 2) sampleWrongValue rfl rfl rfl hfresh
  have hdeclared : keyedIntent.withKeyIds.subjects.find? sampleSubject = some ⟨sampleSubject, true, sampleSetting true⟩ :=
    rfl
  have hseen : (sampleWrongValue.document 1 1).withKeyIds.subjects.find? sampleSubject =
      some ⟨sampleSubject, true, sampleSetting false⟩ := rfl
  have hwalk : (Join.walk keyedIntent.withKeyIds.subjects.entries
      (sampleWrongValue.document 1 1).withKeyIds.subjects.entries).map (classifySubject sampleScope
        (tablesAfter {} FixedBytes.zero (sampleEvents.take 2)).policy
        (evidenceClassOf (some keyedIntent.withKeyIds) (some (sampleWrongValue.document 1 1).withKeyIds))
        keyedIntent.withKeyIds (sampleWrongValue.document 1 1).withKeyIds) = [mismatchedRecord] := rfl
  rw [hwalk] at hplan
  -- the subject differs, and nothing protects it
  have hacts : ¬ ∀ d ∈ (assemblePlan b sampleScope [mismatchedRecord]).decisions,
      d.subject = sampleSubject → d.disposition ≠ .actionable := by
    have hgoverning : PlanRequest.governing ⟨sampleScope, none, 1⟩
        (keyedEngine (sampleEvents.take 2) sampleWrongValue).store.state = defaultPolicy := rfl
    have hcanonical : PolicyOk {} defaultPolicy := defaultPolicy_canonical _
    have hmanaged : sampleKey ∉ defaultPolicy.unmanagedAttributes := by simp [defaultPolicy]
    rw [← hgoverning] at hcanonical hmanaged
    rw [differing_idle_iff (run_tracked hrun).consistent hcanonical hplan keyed_committed (keyed_selected rfl rfl)
      hdeclared hseen hmanaged (by decide)]
    rintro (⟨key, intended, observed, hobserve, -⟩ | hineligible)
    · cases hobserve
    · refine hineligible ⟨hfresh, rfl, ?_, rfl, rfl, rfl, by decide, by decide, rfl, rfl, by decide⟩
      rintro ⟨key, -, ⟨-, -, hpartial⟩ | ⟨-, -, hpartial⟩⟩ <;> cases hpartial
  push Not at hacts
  obtain ⟨d, hd, -, hactionable⟩ := hacts
  rw [assemblePlan_decisions] at hd
  obtain ⟨record, hrecord, rfl⟩ := List.mem_map.mp hd
  rw [List.mem_singleton.mp (List.mem_of_mem_take hrecord)] at hactionable
  have hroom : [mismatchedRecord].take b.limits.maxPlanActions.toNat = [mismatchedRecord] := by
    apply List.take_of_length_le
    by_contra hnone
    rw [List.length_singleton, not_le, Nat.lt_one_iff] at hnone
    simp [hnone] at hrecord
  refine ⟨_, b.decision mismatchedRecord, hplan, rfl, ?_, hactionable, rfl, rfl,
    PlanBasis.mismatched_action (by decide) hactionable, ?_⟩
  · rw [assemblePlan_decisions, hroom, List.map_singleton]
  · show SameKeyed (buildAuthority b.state b.live b.evidence) mismatchedAuthority
    rw [hevidence]
    exact ⟨rfl, rfl, rfl, rfl, rfl⟩

/-- **`unbound_intent`**: the intent for the subject with the wrong value hashes to another key than its own. -/
theorem unbound_intent : ∃ e plan result, Run {} Process.Orderly (.up e) ∧
    e.plan {} ⟨sampleScope, none, 1⟩ = .ok plan ∧ (e.dispatch {} plan).1 = .ok result ∧
    ∃ a ∈ result.intents, ¬a.Bound := by
  obtain ⟨plan, d, hplan, htargets, hdecisions, hactionable, hscope, hsubject, haction, hkeyed⟩ := mismatched_planned
  have hrun := sampleMismatched_run
  rw [sampleMismatched_eq] at hrun
  have hadmitted := admitPlan_planned hplan rfl rfl keyed_committed (keyed_selected rfl rfl)
  have hnamed : d.scope.empty = false ∧ d.subject.empty = false := by
    rw [hscope, hsubject]
    exact ⟨rfl, rfl⟩
  have hdispatched : (keyedEngine (sampleEvents.take 2) sampleWrongValue).dispatch {} plan =
      (.ok ⟨[Engine.actionIntent keyedIntent.withKeyIds (plannedAttempt d 0)], 0, 0⟩,
        Engine.on {} {} ⟨1, FixedBytes.zero⟩ 2
          (told (keyedEvents (sampleEvents.take 2) sampleWrongValue) ++ told [.attemptIssued (plannedAttempt d 0)])
          (keyedEvents (sampleEvents.take 2) sampleWrongValue ++ [.attemptIssued (plannedAttempt d 0)])) := by
    apply dispatch_recorded rfl hadmitted hdecisions hactionable
    · rfl
    · rfl
    · rfl
    · exact newAttempt_ok (by decide) hnamed _ _ _
    · exact newAttempt_fits _ _ _
    · exact .inr (show (3 : UInt64) < 8192 by decide)
  refine ⟨_, plan, _, hrun, hplan, congrArg Prod.fst hdispatched, _, List.mem_singleton_self _, ?_⟩
  obtain ⟨committed, hcommitted, -, hkey⟩ := planned_key hplan (hdecisions ▸ List.mem_singleton_self d) hactionable
  rw [htargets, hscope, hsubject, haction, key_congr hkeyed] at hkey
  rw [htargets, keyed_committed] at hcommitted
  have hshown : (keyedEngine (sampleEvents.take 2) sampleWrongValue).store.state.shows sampleScope sampleSubject =
      sampleSetting false := by
    unfold DurableState.shows
    rw [keyed_selected rfl rfl]
    rfl
  rw [hshown, ← Option.some.inj hcommitted] at hkey
  intro hbound
  have hbound : computeIdempotencyKey d.scope d.subject d.action d.authority
      (keyedIntent.withKeyIds.declares d.subject) OrdMap.empty = d.idempotencyKey := hbound
  rw [hkey, hscope, hsubject, haction, key_congr hkeyed] at hbound
  exact mismatched_key hbound

end FabricReconciliation
