import FabricReconciliation.Document
import FabricReconciliation.Writer

/-!
# Documents as JSON (`document_json.hpp`, `document_json.cpp:20-274, 445-703`, `json.cpp:605-725`)

The reader takes a value apart with accessors that fall back to a default where a value has another kind. Both
documents have their subjects read the same way, but for one noun.

* **`parseState`** — `ParseState`;
* **`parseJsonIntent`**, **`parseJsonSubmission`**, **`parseJsonPolicy`** — `ParseJson`;
* **`intentJson`**, **`submissionJson`**, **`policyJson`** — `ToJson`.
-/

namespace FabricReconciliation

open Lib Lib.Json

/-- `Reject` of `document_json.cpp`. -/
def rejectDocument (what : String) : Status := ⟨.rejected, .unsupportedInput, "document: " ++ what⟩

/-- Bytes in the text of a status, each as one character. -/
def shown (bytes : Bytes) : String := String.ofList (bytes.map fun b => Char.ofNat b.toNat)

/-- The names of `ToText` (`status.cpp:157`). -/
def EvidenceClass.name : EvidenceClass → String
  | .unknown => "UNKNOWN"
  | .real => "REAL"
  | .synthetic => "SYNTHETIC"
  | .unsupported => "UNSUPPORTED"

/-- `TryParseEvidenceClass` (`status.cpp:167`) of a C string. -/
def tryParseEvidenceClass (text : Bytes) : Option EvidenceClass :=
  [EvidenceClass.real, .synthetic, .unsupported, .unknown].find? fun e => ascii e.name == text

/-! ## Accessors -/

section Accessors

variable {ρ : Type}

def asBool (fallback : Bool) : Value ρ → Bool
  | .boolean b => b
  | _ => fallback

def asText : Value ρ → Bytes
  | .text t => t
  | _ => []

/-- `Value::members`. -/
def membersOf : Value ρ → List (Bytes × Value ρ)
  | .object members => members
  | _ => []

/-- `Value::Find`. -/
def findMember (key : String) (v : Value ρ) : Option (Value ρ) :=
  ((membersOf v).find? fun m => m.1 == ascii key).map Prod.snd

def isObject : Value ρ → Bool
  | .object _ => true
  | _ => false

variable [Double ρ]

def asInteger (fallback : Int64) : Value ρ → Int64
  | .number (.integer i) => i
  | .number (.unsigned u) => if 2 ^ 63 - 1 < u.toNat then fallback else u.toInt64
  | .number (.real x) =>
    if !Double.isFinite x then fallback else if Double.outsideInt64 x then fallback else Double.toInt64 x
  | _ => fallback

def asUnsigned (fallback : UInt64) : Value ρ → UInt64
  | .number (.unsigned u) => u
  | .number (.integer i) => if i < 0 then fallback else i.toUInt64
  | .number (.real x) => if !Double.isFinite x || Double.outsideUInt64 x then fallback else Double.toUInt64 x
  | _ => fallback

end Accessors

/-! ## The reader -/

def intentMembers : List String :=
  ["intent", "scope", "definition", "generation", "policy_version", "evidence", "complete", "subjects"]

def submissionMembers : List String :=
  ["observation", "scope", "reporter", "generation", "evidence", "complete", "authoritative_absence", "subjects"]

def policyMembers : List String :=
  ["id", "version", "max_observation_age_ms", "require_current_epoch", "require_complete_coverage_for_absence",
    "permit_apply_missing", "permit_apply_mismatched", "permit_withdraw_unexpected",
    "require_complete_coverage_for_convergence_proof", "require_independent_verification", "unmanaged_attributes",
    "observe_only_attributes"]

section Reading

variable {ρ : Type}

/-- `CheckMembers`. -/
def checkMembers (object : Value ρ) (allowed : List String) : Except Status Unit :=
  if !isObject object then .error (rejectDocument "expected a top level object")
  else match (membersOf object).find? fun m => !allowed.any fun name => m.1 == ascii name with
    | some m => .error ⟨.rejected, .unsupportedInput, "unknown member '" ++ shown m.1 ++ "'"⟩
    | none => .ok ()

/-- `ReadBool`. -/
def readBool (object : Value ρ) (key : String) (out : Bool) : Except Status Bool :=
  match findMember key object with
  | none => .ok out
  | some (.boolean b) => .ok b
  | some _ => .error (rejectDocument "expected a boolean member")

/-- `ReadText`. -/
def readText (object : Value ρ) (key : String) : Except Status Bytes :=
  match findMember key object with
  | none => .ok []
  | some (.text t) => .ok t
  | some _ => .error (rejectDocument "expected a text member")

/-- `ParseEvidence`; `c_str()` ends at the first zero byte. -/
def parseEvidence (object : Value ρ) : EvidenceClass :=
  match findMember "evidence" object with
  | some (.text t) => (tryParseEvidenceClass (t.takeWhile (· ≠ 0))).getD .synthetic
  | _ => .synthetic

/-- The three identities of a document, which must all be valid. -/
def parseIdentities {a b c : IdTag} (what : String) (first second third : Bytes) :
    Except Status (StringId a × StringId b × StringId c) :=
  match StringId.tryParse first, StringId.tryParse second, StringId.tryParse third with
  | some x, some y, some z => .ok (x, y, z)
  | _, _, _ => .error (rejectDocument what)

/-- The loop over the members of an object that is read into a map: an identity from each key, a value, and
`emplace`. -/
def parseEntries {tag : IdTag} {α : Type} (invalid duplicate : String)
    (value : StringId tag → Value ρ → Except Status α) :
    List (Bytes × Value ρ) → OrdMap (StringId tag) α → Except Status (OrdMap (StringId tag) α)
  | [], m => .ok m
  | member :: rest, m => match StringId.tryParse member.1 with
    | none => .error (rejectDocument invalid)
    | some key => do
      let a ← value key member.2
      match m.emplace key a with
      | none => .error (rejectDocument duplicate)
      | some m => parseEntries invalid duplicate value rest m

/-- The entries of an attribute list of a policy. -/
def readKeys : List (Value ρ) → Except Status (List AttributeKey)
  | [] => .ok []
  | .text t :: rest => match StringId.tryParse t with
    | none => .error (rejectDocument "invalid attribute key in policy")
    | some key => do return key :: (← readKeys rest)
  | _ :: _ => .error (rejectDocument "attribute list entries must be text")

def readKeyList (root : Value ρ) (field : String) : Except Status (List AttributeKey) :=
  match findMember field root with
  | none => .ok []
  | some (.array items) => readKeys items
  | some _ => .error (rejectDocument "attribute list must be an array")

variable [Double ρ]

/-- `ReadU64`. -/
def readU64 (object : Value ρ) (key : String) (out : UInt64) : Except Status UInt64 :=
  match findMember key object with
  | none => .ok out
  | some (.number n) => .ok (asUnsigned 0 (.number n))
  | some _ => .error (rejectDocument "expected an integer member")

/-- What an attribute value resolves to: each member that is there overrides those before it. -/
def resolved (node : Value ρ) : Option AttributeValue :=
  ((findMember "token" node).map fun token => .token (asText token)) <|>
  ((findMember "text" node).map fun text => .text (asText text)) <|>
  ((findMember "u64" node).map fun number => .unsigned (asUnsigned 0 number)) <|>
  ((findMember "i64" node).map fun number => .integer (asInteger 0 number)) <|>
  ((findMember "bool" node).map fun flag => .boolean (asBool false flag)) <|>
  ((findMember "absent" node).map fun _ => .absent)

/-- The body of the loop of `ParseState`. -/
def parseAttribute (node : Value ρ) : Except Status AttributeValue :=
  if !isObject node then .error (rejectDocument "attribute value must be an object")
  else if (findMember "absent" node).any fun absent => !asBool false absent then
    .error (rejectDocument "absent marker must be true")
  else match resolved node with
    | none =>
      .error (rejectDocument "attribute value does not name exactly one of absent/bool/i64/u64/text/token")
    | some value => .ok value

/-- `ParseState` (`document_json.cpp:51`). -/
def parseState (limits : RuntimeLimits) : Value ρ → Except Status SubjectState
  | .null => .ok OrdMap.empty
  | .object members =>
    if limits.maxAttributesPerSubject.toNat < members.length then
      .error ⟨.limitExceeded, .planActionLimitReached, "subject declares more attributes than the configured bound"⟩
    else parseEntries "invalid attribute key" "duplicate attribute key" (fun _ node => parseAttribute node) members
      OrdMap.empty
  | _ => .error (rejectDocument "subject attributes must be an object")

/-- An entry of `subjects`. -/
def parseSubject (limits : RuntimeLimits) (subject : SubjectId) (node : Value ρ) : Except Status SubjectEntry :=
  if !isObject node then .error (rejectDocument "subject entry must be an object")
  else do
    let completeAttributes ← readBool node "complete_attributes" true
    match findMember "attributes" node with
    | none => return ⟨subject, completeAttributes, OrdMap.empty⟩
    | some attributes => return ⟨subject, completeAttributes, ← parseState limits attributes⟩

/-- The member `subjects` of a document; `what` is the noun of the message. -/
def parseSubjects (limits : RuntimeLimits) (what : String) (root : Value ρ) : Except Status Subjects :=
  match findMember "subjects" root with
  | none => .ok OrdMap.empty
  | some (.object members) =>
    if limits.maxSubjectsPerDocument.toNat < members.length then
      .error ⟨.limitExceeded, .planActionLimitReached, what ++ " declares more subjects than the configured bound"⟩
    else parseEntries "invalid subject identity" "duplicate subject" (parseSubject limits) members OrdMap.empty
  | some _ => .error (rejectDocument "subjects must be an object")

/-- `ParseJson(IntentDocument)`, of the value that was parsed. -/
def readIntentJson (limits : RuntimeLimits) (root : Value ρ) : Except Status IntentDocument := do
  checkMembers root intentMembers
  let intentText ← readText root "intent"
  let scopeText ← readText root "scope"
  let definitionText ← readText root "definition"
  let generation ← readU64 root "generation" 0
  let policyVersion ← readU64 root "policy_version" 0
  let complete ← readBool root "complete" true
  let (intent, scope, definition) ←
    parseIdentities "intent, scope and definition must be valid identities" intentText scopeText definitionText
  let subjects ← parseSubjects limits "intent" root
  let content : IntentDocument := {
    intent, scope, definition, generation, policyVersion, evidence := parseEvidence root, complete, subjects
    digest := FixedBytes.zero }
  let document := { content with digest := computeIntentDigest content }
  let valid := validateIntent document limits
  if valid.code = .ok then return document else .error valid

/-- `ParseJson(ObservationSubmission)`, of the value that was parsed. -/
def readSubmissionJson (limits : RuntimeLimits) (root : Value ρ) : Except Status ObservationSubmission := do
  checkMembers root submissionMembers
  let observationText ← readText root "observation"
  let scopeText ← readText root "scope"
  let reporterText ← readText root "reporter"
  let generation ← readU64 root "generation" 0
  let complete ← readBool root "complete" true
  let absence ← readBool root "authoritative_absence" false
  let (observation, scope, reporter) ←
    parseIdentities "observation, scope and reporter must be valid identities" observationText scopeText reporterText
  let subjects ← parseSubjects limits "observation" root
  let submission : ObservationSubmission := {
    observation, scope, reporter, generation, evidence := parseEvidence root, complete
    authoritativeAbsence := absence, subjects }
  let valid := validateSubmission submission limits
  if valid.code = .ok then return submission else .error valid

/-- `max_observation_age_ms` of a policy. -/
def readAge (root : Value ρ) (out : Int64) : Except Status Int64 :=
  match findMember "max_observation_age_ms" root with
  | none => .ok out
  | some (.number n) => .ok (asInteger 0 (.number n))
  | some _ => .error (rejectDocument "max_observation_age_ms must be an integer")

/-- `ParseJson(ReconciliationPolicy)`, of the value that was parsed. -/
def readPolicyJson (limits : RuntimeLimits) (root : Value ρ) : Except Status ReconciliationPolicy := do
  checkMembers root policyMembers
  let defaults := defaultPolicy
  let idText ← readText root "id"
  let version ← readU64 root "version" 1
  let maxAge ← readAge root defaults.freshness.maxObservationAgeMs
  let requireCurrentEpoch ← readBool root "require_current_epoch" defaults.freshness.requireCurrentEpoch
  let requireCoverage ←
    readBool root "require_complete_coverage_for_absence" defaults.freshness.requireCompleteCoverageForAbsence
  let permitApplyMissing ← readBool root "permit_apply_missing" defaults.permitApplyMissing
  let permitApplyMismatched ← readBool root "permit_apply_mismatched" defaults.permitApplyMismatched
  let permitWithdrawUnexpected ← readBool root "permit_withdraw_unexpected" defaults.permitWithdrawUnexpected
  let requireCoverageForProof ← readBool root "require_complete_coverage_for_convergence_proof"
    defaults.requireCompleteCoverageForConvergenceProof
  let requireIndependentVerification ←
    readBool root "require_independent_verification" defaults.requireIndependentVerification
  let id ← if idText = [] then .ok defaults.id else match StringId.tryParse idText with
    | none => .error (rejectDocument "invalid policy identity")
    | some id => .ok id
  let unmanagedAttributes ← readKeyList root "unmanaged_attributes"
  let observeOnlyAttributes ← readKeyList root "observe_only_attributes"
  canonicalisePolicy {
    id, version
    freshness := {
      maxObservationAgeMs := maxAge, requireCurrentEpoch
      requireCompleteCoverageForAbsence := requireCoverage }
    permitApplyMissing, permitApplyMismatched, permitWithdrawUnexpected
    requireCompleteCoverageForConvergenceProof := requireCoverageForProof
    requireIndependentVerification, unmanagedAttributes, observeOnlyAttributes } limits

/-- `ParseJson`, for a reader of the value: the status, and what `out` holds then. -/
def parseDocument {α : Type} (read : Value ρ → Except Status α) (text : Bytes) (out : α) : Status × α :=
  let (parsed, root) := parse {} text .null
  if parsed.code ≠ .ok then (parsed, out)
  else match read root with
    | .error status => (status, out)
    | .ok document => (Status.ok, document)

end Reading

section ParseJson

variable (ρ : Type) [Double ρ] (limits : RuntimeLimits) (text : Bytes)

/-- `ParseJson(IntentDocument)` (`document_json.cpp:445`). -/
def parseJsonIntent (out : IntentDocument) : Status × IntentDocument :=
  parseDocument (ρ := ρ) (readIntentJson limits) text out

/-- `ParseJson(ObservationSubmission)` (`document_json.cpp:533`). -/
def parseJsonSubmission (out : ObservationSubmission) : Status × ObservationSubmission :=
  parseDocument (ρ := ρ) (readSubmissionJson limits) text out

/-- `ParseJson(ReconciliationPolicy)` (`document_json.cpp:616`). -/
def parseJsonPolicy (out : ReconciliationPolicy) : Status × ReconciliationPolicy :=
  parseDocument (ρ := ρ) (readPolicyJson limits) text out

end ParseJson

/-! ## The renderings -/

section ToJson

variable {ρ : Type}

/-- A value of the object that `StateJson` makes. -/
def attributeJson : AttributeValue → Value ρ
  | .absent => .object [(ascii "absent", .boolean true)]
  | .boolean b => .object [(ascii "bool", .boolean b)]
  | .integer i => .object [(ascii "i64", .number (.integer i))]
  | .unsigned u => .object [(ascii "u64", .number (.unsigned u))]
  | .text t => .object [(ascii "text", .text t)]
  | .token t => .object [(ascii "token", .text t)]
  | .invalid => .object [(ascii "invalid", .boolean true)]

/-- `StateJson` (`document_json.cpp:22`). -/
def stateJson (state : SubjectState) : Value ρ := .object (state.entries.map fun e => (e.1.text, attributeJson e.2))

def subjectJson (entry : SubjectEntry) : Value ρ :=
  .object [(ascii "complete_attributes", .boolean entry.completeAttributes),
    (ascii "attributes", stateJson entry.state)]

def subjectsJson (subjects : Subjects) : Value ρ :=
  .object (subjects.entries.map fun e => (e.1.text, subjectJson e.2))

/-- `DigestJson`. -/
def digestJson (digest : Digest) : Value ρ := .text (toHex digest.bytes)

/-- `EvidenceJson`. -/
def evidenceJson (evidence : EvidenceClass) : Value ρ := .text (ascii evidence.name)

/-- The value of `ToJson(IntentDocument)`. -/
def intentValue (d : IntentDocument) : Value ρ :=
  .object [(ascii "intent", .text d.intent.text), (ascii "scope", .text d.scope.text),
    (ascii "definition", .text d.definition.text), (ascii "generation", .number (.unsigned d.generation)),
    (ascii "policy_version", .number (.unsigned d.policyVersion)), (ascii "evidence", evidenceJson d.evidence),
    (ascii "complete", .boolean d.complete), (ascii "digest", digestJson d.digest),
    (ascii "subjects", subjectsJson d.subjects)]

/-- The value of `ToJson(ObservationSubmission)`. -/
def submissionValue (s : ObservationSubmission) : Value ρ :=
  .object [(ascii "observation", .text s.observation.text), (ascii "scope", .text s.scope.text),
    (ascii "reporter", .text s.reporter.text), (ascii "generation", .number (.unsigned s.generation)),
    (ascii "evidence", evidenceJson s.evidence), (ascii "complete", .boolean s.complete),
    (ascii "authoritative_absence", .boolean s.authoritativeAbsence), (ascii "subjects", subjectsJson s.subjects)]

def keysJson (keys : List AttributeKey) : Value ρ := .array (keys.map fun key => .text key.text)

/-- The value of `ToJson(ReconciliationPolicy)`. -/
def policyValue (p : ReconciliationPolicy) : Value ρ :=
  .object [(ascii "id", .text p.id.text), (ascii "version", .number (.unsigned p.version)),
    (ascii "max_observation_age_ms", .number (.integer p.freshness.maxObservationAgeMs)),
    (ascii "require_current_epoch", .boolean p.freshness.requireCurrentEpoch),
    (ascii "require_complete_coverage_for_absence", .boolean p.freshness.requireCompleteCoverageForAbsence),
    (ascii "permit_apply_missing", .boolean p.permitApplyMissing),
    (ascii "permit_apply_mismatched", .boolean p.permitApplyMismatched),
    (ascii "permit_withdraw_unexpected", .boolean p.permitWithdrawUnexpected),
    (ascii "require_complete_coverage_for_convergence_proof", .boolean p.requireCompleteCoverageForConvergenceProof),
    (ascii "require_independent_verification", .boolean p.requireIndependentVerification),
    (ascii "digest", digestJson (computePolicyDigest p)),
    (ascii "unmanaged_attributes", keysJson p.unmanagedAttributes),
    (ascii "observe_only_attributes", keysJson p.observeOnlyAttributes)]

variable (ρ) [Double ρ]

/-- `ToJson(IntentDocument)` (`document_json.cpp:183`). -/
def intentJson (d : IntentDocument) : Bytes := dumpCanonical 2 (intentValue d : Value ρ)

/-- `ToJson(ObservationSubmission)` (`document_json.cpp:204`). -/
def submissionJson (s : ObservationSubmission) : Bytes := dumpCanonical 2 (submissionValue s : Value ρ)

/-- `ToJson(ReconciliationPolicy)` (`document_json.cpp:247`). -/
def policyJson (p : ReconciliationPolicy) : Bytes := dumpCanonical 2 (policyValue p : Value ρ)

end ToJson

end FabricReconciliation
