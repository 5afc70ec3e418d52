import FabricReconciliation.Handling
import FabricReconciliation.Keys
import FabricReconciliation.Lib.Separated

/-!
# What a plan identifier identifies (`plan.cpp:10-50`, `plan.cpp:153-158`, `server.cpp:278-292`)

The identifier of a plan is the digest of its content in hexadecimal. A caller that has seen a plan may name it in a
Dispatch request, which plans anew and compares the identifiers.

* **`content_iff`** — within the ceiling of the writer, the bytes of two plans are the same exactly when the plans show
  the same content, decision by decision;
* **`plan_id_iff`** — so are their identifiers, unless SHA-256 collides on these bytes;
* **`plan_id_blind`** — of a plan that outgrows the ceiling, the identifier shows only the decisions in front;
* **`pinned_dispatch`** — a Dispatch request that names the plan its caller has seen is refused unless the plan still
  shows the same content, and no dispatch of what it goes on with acts on anything that the caller has not seen.
-/

namespace FabricReconciliation

open Lib

/-! ## Hexadecimal -/

theorem hexDigit_inj : ∀ a b : Fin 16, hexDigit a.val = hexDigit b.val → a = b := by decide

theorem toHex_inj {a b : Bytes} (h : toHex a = toHex b) : a = b := by
  induction a generalizing b with
  | nil =>
    cases b with
    | nil => rfl
    | cons y b => simp [toHex] at h
  | cons x a ih =>
    cases b with
    | nil => simp [toHex] at h
    | cons y b =>
      simp only [toHex, List.flatMap_cons, List.cons_append, List.nil_append, List.cons.injEq] at h
      obtain ⟨hhigh, hlow, hrest⟩ := h
      have hx := x.toNat_lt
      have hy := y.toNat_lt
      have hhigh' := congrArg Fin.val (hexDigit_inj ⟨x.toNat / 16, by omega⟩ ⟨y.toNat / 16, by omega⟩ hhigh)
      have hlow' := congrArg Fin.val (hexDigit_inj ⟨x.toNat % 16, by omega⟩ ⟨y.toNat % 16, by omega⟩ hlow)
      have hsame : x = y := by
        apply UInt8.toNat_inj.mp
        dsimp only at hhigh' hlow'
        omega
      rw [hsame, ih hrest]

theorem length_toHex (a : Bytes) : (toHex a).length = 2 * a.length := by
  induction a with
  | nil => rfl
  | cons x a ih =>
    rw [show toHex (x :: a) = hexDigit (x.toNat / 16) :: hexDigit (x.toNat % 16) :: toHex a from rfl]
    simp only [List.length_cons, ih]
    omega

/-! ## Content -/

/-- Two decisions that show the same: everything but the authority and the bound of the explanation. -/
structure SameShown (d d' : Decision) : Prop where
  scope : d.scope = d'.scope
  subject : d.subject = d'.subject
  drift : d.drift = d'.drift
  reason : d.reason = d'.reason
  action : d.action = d'.action
  disposition : d.disposition = d'.disposition
  idempotencyKey : d.idempotencyKey = d'.idempotencyKey
  evidence : d.evidence = d'.evidence
  explained : d.explanation.steps = d'.explanation.steps

/-- Two plans with the same content. -/
structure SamePlanContent (p q : ReconciliationPlan) : Prop where
  scope : p.scope = q.scope
  definition : p.definition = q.definition
  epoch : p.epoch = q.epoch
  policyDigest : p.policyDigest = q.policyDigest
  policyVersion : p.policyVersion = q.policyVersion
  intent : p.intent = q.intent
  intentGeneration : p.intentGeneration = q.intentGeneration
  intentDigest : p.intentDigest = q.intentDigest
  observation : p.observation = q.observation
  observationGeneration : p.observationGeneration = q.observationGeneration
  reporter : p.reporter = q.reporter
  observationDigest : p.observationDigest = q.observationDigest
  verdict : p.verdict = q.verdict
  evidence : p.evidence = q.evidence
  truncated : p.truncated = q.truncated
  scopeReason : p.scopeReason = q.scopeReason
  explained : p.scopeExplanation.steps = q.scopeExplanation.steps
  decisions : List.Forall₂ SameShown p.decisions q.decisions

/-! ## Telling contents apart -/

/-- The script is written in full under the ceiling. -/
abbrev Whole (sc : Script) : Prop := sc.Fits kMaxCanonicalBytes

def encodeStep (step : ExplanationStep) : Script := putReason step.code ++ putBytes step.detail

theorem separates_step : Separates (fun step => Whole (encodeStep step)) encodeStep Eq := by
  intro a b rest rest' ha hb heq
  simp only [encodeStep, Script.image_append, List.append_assoc] at heq
  obtain ⟨hcode, heq⟩ := Reads.split (reads_reason a.code) (reads_reason b.code) heq
  obtain ⟨hdetail, hrest⟩ := Reads.split (reads_bytes ha.right.bytes.2) (reads_bytes hb.right.bytes.2) heq
  refine ⟨?_, hrest⟩
  cases a
  cases b
  cases hcode
  cases hdetail
  rfl

/-- A list behind its count that fits is shorter than the count can tell. -/
theorem reads_putCount {α : Type} {f : α → Script} {l : List α} (h : ∀ a, 1 ≤ (f a).image.length)
    (hfits : Whole (putEach f l)) : Reads Read.u32 (putCount l.length).image (some l.length) := by
  have hlength := length_le_image_putEach h l
  have hbound := hfits.2
  exact reads_count (by unfold kMaxCanonicalBytes at hbound; omega)

theorem encodeStep_pos (step : ExplanationStep) : 1 ≤ (encodeStep step).image.length := by
  simp only [encodeStep, putReason, putU16, Script.image_append, List.length_append, image_putLE, length_leBytes]
  omega

theorem separates_explanation : Separates (fun e => Whole (encodeExplanation e)) encodeExplanation
    fun e e' => e.steps = e'.steps := by
  intro a b rest rest' ha hb heq
  have hcount : ∀ {e : Explanation}, Whole (encodeExplanation e) → Whole (putEach encodeStep e.steps) :=
    fun h => h.right
  rw [show encodeExplanation a = putCount a.steps.length ++ putEach encodeStep a.steps from rfl,
    show encodeExplanation b = putCount b.steps.length ++ putEach encodeStep b.steps from rfl] at heq
  simp only [Script.image_append, List.append_assoc] at heq
  obtain ⟨hsteps, hrest⟩ := separates_step.counted (reads_putCount encodeStep_pos (hcount ha))
    (reads_putCount encodeStep_pos (hcount hb)) (fun step hstep => (hcount ha).item hstep)
    (fun step hstep => (hcount hb).item hstep) heq
  exact ⟨List.forall₂_eq_eq_eq ▸ hsteps, hrest⟩

theorem encodeDecision_pos (d : Decision) : 1 ≤ (encodeDecision d).image.length := by
  have hid := d.scope.text_length
  simp only [encodeDecision, Script.image_append, List.length_append]
  rw [image_putBytes (by omega), length_prefixed]
  omega

theorem separates_decision : Separates (fun d => Whole (encodeDecision d)) encodeDecision SameShown := by
  intro a b rest rest' ha hb heq
  have hlast : ∀ {d : Decision}, Whole (encodeDecision d) → Whole (encodeExplanation d.explanation) :=
    fun h => h.right.right.right.right.right.right.right.right
  simp only [encodeDecision, Script.image_append, List.append_assoc] at heq
  obtain ⟨hscope, heq⟩ := Reads.split (reads_text a.scope) (reads_text b.scope) heq
  obtain ⟨hsubject, heq⟩ := Reads.split (reads_text a.subject) (reads_text b.subject) heq
  obtain ⟨hdrift, heq⟩ := Reads.split (reads_enum a.drift (by decide)) (reads_enum b.drift (by decide)) heq
  obtain ⟨hreason, heq⟩ := Reads.split (reads_reason a.reason) (reads_reason b.reason) heq
  obtain ⟨haction, heq⟩ := Reads.split (reads_enum a.action (by decide)) (reads_enum b.action (by decide)) heq
  obtain ⟨hdisposition, heq⟩ := Reads.split (reads_enum a.disposition (by decide))
    (reads_enum b.disposition (by decide)) heq
  obtain ⟨hkey, heq⟩ := Reads.split (reads_digest _) (reads_digest _) heq
  obtain ⟨hevidence, heq⟩ := Reads.split (reads_enum a.evidence (by decide)) (reads_enum b.evidence (by decide)) heq
  obtain ⟨hsteps, heq⟩ := separates_explanation (hlast ha) (hlast hb) heq
  exact ⟨⟨StringId.ext hscope, StringId.ext hsubject, hdrift, hreason, haction, hdisposition, hkey, hevidence, hsteps⟩,
    heq⟩

section Content

variable {p q : ReconciliationPlan}

/-- The explanation and the decisions are written last. -/
theorem whole_tail (h : Whole (encodePlanContent p)) :
    Whole (encodeExplanation p.scopeExplanation) ∧ Whole (putEach encodeDecision p.decisions) := by
  have htail : Whole (encodeExplanation p.scopeExplanation ++ (putCount p.decisions.length ++
      putEach encodeDecision p.decisions)) :=
    h.right.right.right.right.right.right.right.right.right.right.right.right.right.right.right.right.right
  exact ⟨htail.left, htail.right.right⟩

theorem content_of_image (hp : Whole (encodePlanContent p)) (hq : Whole (encodePlanContent q))
    (heq : (encodePlanContent p).image = (encodePlanContent q).image) : SamePlanContent p q := by
  obtain ⟨hexplained, hdecisions⟩ := whole_tail hp
  obtain ⟨hexplained', hdecisions'⟩ := whole_tail hq
  simp only [encodePlanContent, Script.image_append] at heq
  obtain ⟨-, heq⟩ := Reads.split (reads_u16 (by decide)) (reads_u16 (by decide)) heq
  obtain ⟨hscope, heq⟩ := Reads.split (reads_text p.scope) (reads_text q.scope) heq
  obtain ⟨hdefinition, heq⟩ := Reads.split (reads_text p.definition) (reads_text q.definition) heq
  obtain ⟨hepoch, heq⟩ := Reads.split (reads_u64 _) (reads_u64 _) heq
  obtain ⟨hpolicy, heq⟩ := Reads.split (reads_digest _) (reads_digest _) heq
  obtain ⟨hversion, heq⟩ := Reads.split (reads_u64 _) (reads_u64 _) heq
  obtain ⟨hintent, heq⟩ := Reads.split (reads_text p.intent) (reads_text q.intent) heq
  obtain ⟨hgeneration, heq⟩ := Reads.split (reads_u64 _) (reads_u64 _) heq
  obtain ⟨hdigest, heq⟩ := Reads.split (reads_digest _) (reads_digest _) heq
  obtain ⟨hobservation, heq⟩ := Reads.split (reads_text p.observation) (reads_text q.observation) heq
  obtain ⟨hgeneration', heq⟩ := Reads.split (reads_u64 _) (reads_u64 _) heq
  obtain ⟨hreporter, heq⟩ := Reads.split (reads_text p.reporter) (reads_text q.reporter) heq
  obtain ⟨hdigest', heq⟩ := Reads.split (reads_digest _) (reads_digest _) heq
  obtain ⟨hverdict, heq⟩ := Reads.split (reads_enum p.verdict (by decide)) (reads_enum q.verdict (by decide)) heq
  obtain ⟨hevidence, heq⟩ := Reads.split (reads_enum p.evidence (by decide)) (reads_enum q.evidence (by decide)) heq
  obtain ⟨htruncated, heq⟩ := Reads.split (reads_bool p.truncated) (reads_bool q.truncated) heq
  obtain ⟨hreason, heq⟩ := Reads.split (reads_reason p.scopeReason) (reads_reason q.scopeReason) heq
  obtain ⟨hsteps, heq⟩ := separates_explanation hexplained hexplained' heq
  have hend : (putCount p.decisions.length).image ++ ((putEach encodeDecision p.decisions).image ++ []) =
      (putCount q.decisions.length).image ++ ((putEach encodeDecision q.decisions).image ++ []) := by
    simpa only [List.append_nil] using heq
  obtain ⟨hshown, -⟩ := separates_decision.counted (reads_putCount encodeDecision_pos hdecisions)
    (reads_putCount encodeDecision_pos hdecisions') (fun d hd => hdecisions.item hd)
    (fun d hd => hdecisions'.item hd) hend
  exact ⟨StringId.ext hscope, StringId.ext hdefinition, hepoch, hpolicy, hversion, StringId.ext hintent, hgeneration,
    hdigest, StringId.ext hobservation, hgeneration', StringId.ext hreporter, hdigest', hverdict, hevidence, htruncated,
    hreason, hsteps, hshown⟩

theorem SameShown.encoded {d d' : Decision} (h : SameShown d d') : encodeDecision d = encodeDecision d' := by
  unfold encodeDecision encodeExplanation
  rw [h.scope, h.subject, h.drift, h.reason, h.action, h.disposition, h.idempotencyKey, h.evidence, h.explained]

theorem SamePlanContent.script (h : SamePlanContent p q) : encodePlanContent p = encodePlanContent q := by
  have hdecisions : ∀ {l l' : List Decision}, List.Forall₂ SameShown l l' →
      putEach encodeDecision l = putEach encodeDecision l' := by
    intro l l' hall
    induction hall with
    | nil => rfl
    | cons hd _ ih => rw [putEach_cons, putEach_cons, hd.encoded, ih]
  unfold encodePlanContent encodeExplanation
  rw [h.scope, h.definition, h.epoch, h.policyDigest, h.policyVersion, h.intent, h.intentGeneration, h.intentDigest,
    h.observation, h.observationGeneration, h.reporter, h.observationDigest, h.verdict, h.evidence, h.truncated,
    h.scopeReason, h.explained, h.decisions.length_eq, hdecisions h.decisions]

/-- **`content_iff`**. -/
theorem content_iff (hp : Whole (encodePlanContent p)) (hq : Whole (encodePlanContent q)) :
    (encodePlanContent p).image = (encodePlanContent q).image ↔ SamePlanContent p q :=
  ⟨content_of_image hp hq, fun h => by rw [h.script]⟩

/-- What the identifier of a plan hashes. -/
def planImage (plan : ReconciliationPlan) : Bytes := (fill kMaxCanonicalBytes (encodePlanContent plan)).1

theorem planImage_eq (h : Whole (encodePlanContent p)) : planImage p = (encodePlanContent p).image := by
  rw [planImage, fill_eq h.1 h.2]

/-- The identifier is no part of the content. -/
theorem encodePlanContent_sealed (unsealed : ReconciliationPlan) :
    encodePlanContent unsealed.sealed = encodePlanContent unsealed := rfl

theorem sealed_planId (unsealed : ReconciliationPlan) :
    unsealed.sealed.planId = toHex (digestOf (encodePlanContent unsealed)).bytes := rfl

/-- A plan carries the identifier of its own content. -/
theorem plan_sealed {e : Engine} {env : CallEnv} {request : PlanRequest} (h : e.plan env request = .ok p) :
    p.planId = toHex (sha256Of (planImage p)).bytes := by
  obtain ⟨report, -, rfl⟩ := plan_report h
  obtain ⟨unsealed, hsealed⟩ : ∃ unsealed : ReconciliationPlan,
      assemblePlan (request.basis e report.evidence) request.scope report.records = unsealed.sealed := ⟨_, rfl⟩
  rw [hsealed, sealed_planId, planImage, encodePlanContent_sealed, digestOf]

end Content

section Identity

variable {e f : Engine} {env env' : CallEnv} {request request' : PlanRequest} {p q : ReconciliationPlan}

/-- **`plan_id_iff`**: two plans that fit have the same identifier exactly when they have the same content, unless
SHA-256 collides. -/
theorem plan_id_iff (hp : e.plan env request = .ok p) (hq : f.plan env' request' = .ok q)
    (hfits : Whole (encodePlanContent p)) (hfits' : Whole (encodePlanContent q)) :
    p.planId = q.planId ↔ SamePlanContent p q ∨ Collides (planImage p) (planImage q) := by
  have hids : p.planId = q.planId ↔ sha256Of (planImage p) = sha256Of (planImage q) := by
    rw [plan_sealed hp, plan_sealed hq]
    exact ⟨fun h => FixedBytes.ext (toHex_inj h), fun h => by rw [h]⟩
  rw [hids, sha256Of_eq_iff, planImage_eq hfits, planImage_eq hfits', content_iff hfits hfits']

/-! ## Beyond the ceiling -/

/-- What is written before the decisions. -/
def planHead (plan : ReconciliationPlan) (count : Nat) : Script :=
  putU16 kCanonicalSchemaVersion ++ putBytes plan.scope.text ++ putBytes plan.definition.text ++ putU64 plan.epoch ++
  putDigest plan.policyDigest ++ putU64 plan.policyVersion ++ putBytes plan.intent.text ++
  putU64 plan.intentGeneration ++ putDigest plan.intentDigest ++ putBytes plan.observation.text ++
  putU64 plan.observationGeneration ++ putBytes plan.reporter.text ++ putDigest plan.observationDigest ++
  putEnum plan.verdict ++ putEnum plan.evidence ++ putBool plan.truncated ++ putReason plan.scopeReason ++
  encodeExplanation plan.scopeExplanation ++ putCount count

theorem content_head (plan : ReconciliationPlan) : encodePlanContent plan =
    planHead plan plan.decisions.length ++ putEach encodeDecision plan.decisions := by
  unfold encodePlanContent planHead
  simp only [List.append_assoc]

/-- **`plan_id_blind`**: behind decisions that do not fit, no decision makes a difference but by being counted. -/
theorem plan_id_blind {front rest rest' : List Decision} (hlength : rest.length = rest'.length)
    (hfull : (fill kMaxCanonicalBytes (planHead p (front.length + rest.length) ++ putEach encodeDecision front)).2 =
      false) :
    ({ p with decisions := front ++ rest } : ReconciliationPlan).sealed.planId =
      ({ p with decisions := front ++ rest' } : ReconciliationPlan).sealed.planId := by
  have hcut : ∀ tail : List Decision, tail.length = rest.length →
      digestOf (encodePlanContent { p with decisions := front ++ tail }) =
        digestOf (planHead p (front.length + rest.length) ++ putEach encodeDecision front) := by
    intro tail htail
    have hsplit : putEach encodeDecision (front ++ tail) =
        putEach encodeDecision front ++ putEach encodeDecision tail := by
      simp [putEach]
    have hhead : planHead { p with decisions := front ++ tail } (front ++ tail).length =
        planHead p (front.length + rest.length) := by
      rw [List.length_append, htail]
      rfl
    rw [content_head, hhead, hsplit, ← List.append_assoc, digestOf, digestOf, fill_append_full _ hfull]
  rw [sealed_planId, sealed_planId, hcut rest rfl, hcut rest' hlength.symm]

end Identity

/-! ## Naming the plan that was seen -/

section Pinned

variable {limits : RuntimeLimits} {texts : Renderers} {observer e : Engine} {env env' : CallEnv} {clientBoot : BootId}
  {request : Request} {seenRequest : PlanRequest} {scope : ScopeId} {now : UnixMillis}
  {seen plan : ReconciliationPlan}

theorem planId_ne_nil (h : e.plan env seenRequest = .ok plan) : plan.planId ≠ [] := by
  intro hempty
  have hlength := length_toHex (sha256Of (planImage plan)).bytes
  rw [← plan_sealed h, hempty, FixedBytes.length_eq] at hlength
  simp at hlength

/-- What is shown of a decision that is acted on was seen. -/
theorem SamePlanContent.actionable (h : SamePlanContent seen plan) {d : Decision} (hd : d ∈ plan.decisions)
    (hactionable : d.disposition = .actionable) :
    ∃ d' ∈ seen.decisions, d'.disposition = .actionable ∧ SameShown d' d := by
  obtain ⟨i, hi, rfl⟩ := List.getElem_of_mem hd
  have hlength := h.decisions.length_eq
  have hshown : SameShown (seen.decisions[i]) (plan.decisions[i]) := h.decisions.get (by omega) hi
  exact ⟨seen.decisions[i], List.getElem_mem _, hshown.disposition.trans hactionable, hshown⟩

/-- A dispatch acts on decisions of its plan. -/
theorem dispatch_keys {result : DispatchResult} (hok : (e.dispatch env plan).1 = .ok result) {i : ActionIntent}
    (hi : i ∈ result.intents) :
    ∃ d ∈ plan.decisions, d.disposition = .actionable ∧ i.idempotencyKey = d.idempotencyKey := by
  obtain ⟨committed, t, -, hloop, -⟩ := dispatch_loop hok
  rw [dispatchLoop_answers (congrArg Prod.fst hloop), List.nil_append] at hi
  obtain ⟨x, hx, rfl⟩ := List.mem_map.mp hi
  obtain ⟨hmem, hactionable, hkey⟩ := answersOf_key hx
  exact ⟨x.1, hmem, hactionable, hkey⟩

/-- **`pinned_dispatch`**. -/
theorem pinned_dispatch (hseen : observer.plan env' seenRequest = .ok seen)
    (hplan : e.plan env ⟨scope, none, now⟩ = .ok plan) (hadmits : e.refuses clientBoot request = none)
    (hread : readCommand limits request.operation request.body = .ok (.dispatch scope now seen.planId))
    (hfits : Whole (encodePlanContent seen)) (hfits' : Whole (encodePlanContent plan))
    (hhash : ¬Collides (planImage seen) (planImage plan)) :
    (SamePlanContent seen plan → e.handle texts limits clientBoot request env = (.holding plan, e) ∧
      ∀ (later : Engine) (env'' : CallEnv) (result : DispatchResult), (later.dispatch env'' plan).1 = .ok result →
        ∀ i ∈ result.intents, ∃ d ∈ seen.decisions, d.disposition = .actionable ∧ i.idempotencyKey = d.idempotencyKey) ∧
    (¬SamePlanContent seen plan → ∃ response, response.code = .staleAuthority ∧
      e.handle texts limits clientBoot request env = (.answered response, e)) := by
  have hsame : seen.planId = plan.planId ↔ SamePlanContent seen plan := by
    rw [plan_id_iff hseen hplan hfits hfits']
    exact or_iff_left hhash
  have hhandle : e.handle texts limits clientBoot request env =
      e.perform texts env (.dispatch scope now seen.planId) := by
    unfold Engine.handle
    rw [hadmits, hread]
  constructor
  · intro hcontent
    refine ⟨?_, ?_⟩
    · rw [hhandle]
      simp [Engine.perform, hplan, hsame.mpr hcontent]
    · intro later env'' result hok i hi
      obtain ⟨d, hd, hactionable, hkey⟩ := dispatch_keys hok hi
      obtain ⟨d', hd', hactionable', hshown⟩ := hcontent.actionable hd hactionable
      exact ⟨d', hd', hactionable', hkey.trans hshown.idempotencyKey.symm⟩
  · intro hcontent
    have hother : seen.planId ≠ plan.planId := fun h => hcontent (hsame.mp h)
    rw [hhandle]
    simp only [Engine.perform, hplan, if_pos (show seen.planId ≠ [] ∧ seen.planId ≠ plan.planId from
      ⟨planId_ne_nil hseen, hother⟩)]
    exact ⟨_, rfl, rfl⟩

end Pinned

/-! ## The sample -/

/-- Another dispatch between two plans of the sample leaves what they hash as it was. -/
theorem sample_plans : ∃ seen plan, (sampleEngine 16 4).plan {} ⟨sampleScope, none, 1⟩ = .ok seen ∧
    (sampleEngine 16 5).plan {} ⟨sampleScope, none, 1⟩ = .ok plan ∧ Whole (encodePlanContent seen) ∧
    Whole (encodePlanContent plan) ∧ planImage seen = planImage plan ∧ SamePlanContent seen plan := by
  obtain ⟨plan, d, h⟩ := sample_planned
  obtain ⟨htotal, hlength, -⟩ := encoded_ne_nil h.encodes
  have hwhole : Whole (encodePlanContent plan) := ⟨htotal, hlength⟩
  exact ⟨plan, plan, h.made, (sample_replanned _ _).trans h.made, hwhole, hwhole, rfl, (content_iff hwhole hwhole).mp rfl⟩

theorem plan_id_iff_sample : ∃ seen plan, (sampleEngine 16 4).plan {} ⟨sampleScope, none, 1⟩ = .ok seen ∧
    (sampleEngine 16 5).plan {} ⟨sampleScope, none, 1⟩ = .ok plan ∧ seen.planId = plan.planId ∧
    SamePlanContent seen plan := by
  obtain ⟨seen, plan, hseen, hplan, hfits, hfits', -, hcontent⟩ := sample_plans
  exact ⟨seen, plan, hseen, hplan, (plan_id_iff hseen hplan hfits hfits').mpr (.inl hcontent), hcontent⟩

/-- A request to dispatch the plan with this identifier. -/
def pinnedRequest (expected : Bytes) : Request :=
  { sampleDispatch with body := encoded (putBytes sampleScope.text ++ putI64 1 ++ putBytes expected) }

/-- It goes on with the plan that it names. -/
theorem pinned_dispatch_sample : ∃ seen plan, (sampleEngine 16 4).plan {} ⟨sampleScope, none, 1⟩ = .ok seen ∧
    (sampleEngine 16 5).handle plainTexts {} FixedBytes.zero (pinnedRequest seen.planId) {} =
      (.holding plan, sampleEngine 16 5) := by
  obtain ⟨seen, plan, hseen, hplan, hfits, hfits', himage, hcontent⟩ := sample_plans
  have hlength : seen.planId.length = 64 := by
    rw [plan_sealed hseen, length_toHex, FixedBytes.length_eq]
  have hbody : encoded (putBytes sampleScope.text ++ putI64 1 ++ putBytes seen.planId) ≠ [] := by
    have hid := sampleScope.text_length
    have htotal : (putBytes sampleScope.text ++ putI64 1 ++ putBytes seen.planId).Total := by
      rw [Script.total_append, Script.total_append]
      exact ⟨⟨total_putId sampleScope, total_putI64 1⟩, (total_putBytes _).mpr (by omega)⟩
    have hsize : (putBytes sampleScope.text ++ putI64 1 ++ putBytes seen.planId).image.length =
        sampleScope.text.length + 80 := by
      simp only [Script.image_append, List.length_append]
      rw [image_putBytes (by omega), image_putBytes (by omega), putI64, image_putLE, length_prefixed, length_prefixed,
        length_leBytes, hlength]
      omega
    rw [encoded, finish_of_fits htotal (by rw [hsize]; unfold kMaxCanonicalBytes; omega), ← List.length_pos_iff, hsize]
    omega
  have hread : readCommand {} (pinnedRequest seen.planId).operation (pinnedRequest seen.planId).body =
      .ok (.dispatch sampleScope 1 seen.planId) := readCommand_dispatch {} (by decide) 1 hbody
  have hboot : (pinnedRequest seen.planId).clientBoot = FixedBytes.zero := rfl
  have hepoch : (pinnedRequest seen.planId).epoch = (sampleEngine 16 5).live.epoch := rfl
  have hadmits : (sampleEngine 16 5).refuses FixedBytes.zero (pinnedRequest seen.planId) = none := by
    simp [Engine.refuses, hboot, hepoch]
  exact ⟨seen, plan, hseen, ((pinned_dispatch hseen hplan hadmits hread hfits hfits' fun h => h.1 himage).1 hcontent).1⟩

end FabricReconciliation
