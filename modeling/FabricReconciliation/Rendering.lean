import FabricReconciliation.Strictness

/-!
# Reading what was rendered (`document_json.cpp:20-274, 445-703`)

A rendering is read as its value with the members in the order of their keys and small unsigned numbers signed.
From it a submission is read as it was, up to the identities of its entries, which are those they are keyed by.
Intents and policies are rendered with a member that their readers do not know.

* **`rendered_language`** — what the text of a rendering is read as;
* **`readSubmissionJson_rendered`** — a submission from its rendering;
* **`rendered_read_back`** — which renderings are read back.
-/

namespace FabricReconciliation

open Lib Lib.Json

/-! ## What a rendering is read as -/

section Rereading

variable {ρ : Type}

/-- The number that the reader makes of a number that was written. -/
def settled : Number ρ → Number ρ
  | .unsigned u => if u.toNat < 2 ^ 63 then .integer u.toInt64 else .unsigned u
  | x => x

/-- The value that the reader makes of a canonical dump. -/
def reread (v : Value ρ) : Value ρ := (v.map settled).sorted

theorem toInt_toInt64 {u : UInt64} (h : u.toNat < 2 ^ 63) : u.toInt64.toInt = u.toNat := by
  have hbits : u.toInt64.toInt = u.toBitVec.toInt := rfl
  rw [hbits, BitVec.toInt_eq_toNat_of_lt (by rw [UInt64.toNat_toBitVec]; omega), UInt64.toNat_toBitVec]

theorem int?_settled (x : Number ρ) : (settled x).int? = x.int? := by
  cases x with
  | unsigned u =>
    rw [settled]
    split_ifs with hsmall
    · rw [Number.int?, Number.int?, toInt_toInt64 hsmall]
    · rfl
  | _ => rfl

theorem plain_settled {x : Number ρ} (h : NotReal x) : Plain (settled x) := by
  cases x with
  | integer i => trivial
  | unsigned u =>
    rw [settled]
    split_ifs with hsmall
    · trivial
    · exact not_lt.mp hsmall
  | real r => exact h.elim

theorem reread_object (members : List (Bytes × Value ρ)) :
    reread (.object members) = .object ((members.map fun m => (m.1, reread m.2)).insertionSort Node.byKey) := by
  rw [reread, Node.map_object, Node.sorted_object, List.map_map]
  rfl

theorem mem_reread {members : List (Bytes × Value ρ)} {m : Bytes × Value ρ} :
    m ∈ membersOf (reread (.object members)) ↔ ∃ m' ∈ members, m = (m'.1, reread m'.2) := by
  rw [reread_object, membersOf, List.mem_insertionSort, List.mem_map]
  simp only [eq_comm]

theorem findMember_eq_some {members : List (Bytes × Value ρ)} (hdistinct : (members.map Prod.fst).Nodup) {name : String}
    {v : Value ρ} : findMember name (.object members) = some v ↔ (ascii name, v) ∈ members := by
  unfold findMember membersOf
  rw [Option.map_eq_some_iff]
  constructor
  · rintro ⟨m, hm, rfl⟩
    have hkey : m.1 = ascii name := by simpa using List.find?_some hm
    rw [← hkey]
    exact List.mem_of_find?_eq_some hm
  · intro hmem
    have hfind : members.find? (fun m => m.1 == ascii name) = some (ascii name, v) := by
      cases hfound : members.find? (fun m => m.1 == ascii name) with
      | none =>
        have := List.find?_eq_none.mp hfound _ hmem
        simp at this
      | some m =>
        have hkey : m.1 = ascii name := by simpa using List.find?_some hfound
        have hmember := List.mem_of_find?_eq_some hfound
        rw [List.inj_on_of_nodup_map hdistinct hmember hmem hkey]
    exact ⟨_, hfind, rfl⟩

theorem nodup_reread {members : List (Bytes × Value ρ)} (h : (members.map Prod.fst).Nodup) :
    (((members.map fun m => (m.1, reread m.2)).insertionSort Node.byKey).map Prod.fst).Nodup := by
  have hperm := (List.perm_insertionSort Node.byKey (members.map fun m => (m.1, reread m.2))).map Prod.fst
  rw [hperm.nodup_iff, List.map_map]
  exact h

/-- A member of an object that was read back. -/
theorem findMember_reread {members : List (Bytes × Value ρ)} (hdistinct : (members.map Prod.fst).Nodup) (name : String) :
    findMember name (reread (.object members)) = (findMember name (.object members)).map reread := by
  ext v
  rw [reread_object, findMember_eq_some (nodup_reread hdistinct), List.mem_insertionSort, List.mem_map,
    Option.map_eq_some_iff]
  constructor
  · rintro ⟨m, hm, hsame⟩
    rw [Prod.mk.injEq] at hsame
    refine ⟨m.2, (findMember_eq_some hdistinct).mpr ?_, hsame.2⟩
    rw [← hsame.1]
    exact hm
  · rintro ⟨w, hw, rfl⟩
    exact ⟨(ascii name, w), (findMember_eq_some hdistinct).mp hw, rfl⟩

/-- The members of a map are in the order of their keys already. -/
theorem reread_entries {tag : IdTag} {α : Type} (m : OrdMap (StringId tag) α) (node : α → Value ρ) :
    reread (.object (m.entries.map fun e => (e.1.text, node e.2))) =
      .object (m.entries.map fun e => (e.1.text, reread (node e.2))) := by
  rw [reread_object, List.map_map]
  congr 1
  refine List.Pairwise.insertionSort_eq (List.pairwise_map.mpr ?_)
  exact m.sorted.imp fun {a b} hlt => le_of_lt (show a.1.text < b.1.text from hlt)

variable [Double ρ]

theorem appendNumber_settled (x : Number ρ) : appendNumber (settled x) = appendNumber x := by
  cases x with
  | unsigned u =>
    rw [settled]
    split_ifs with hsmall
    · rw [appendNumber, appendNumber, toInt_toInt64 hsmall]
      rfl
    · rfl
  | _ => rfl

theorem dumpValue_settled (indent : Int) (sortKeys : Bool) (depth : Nat) (v : Value ρ) :
    dumpValue indent sortKeys depth (v.map settled) = dumpValue indent sortKeys depth v := by
  induction v using Node.induct generalizing depth with
  | number x =>
    have hsame := appendNumber_settled x
    unfold dumpValue
    exact congrArg (fun text => if kDumpDepthLimit < depth then ascii "null" else text) hsame
  | array items ih =>
    have hitems : (items.map (Node.map settled)).map (dumpValue indent sortKeys (depth + 1)) =
        items.map (dumpValue indent sortKeys (depth + 1)) := by
      rw [List.map_map]
      exact List.map_congr_left fun v hv => ih v hv _
    rw [Node.map_array]
    unfold dumpValue
    simp only [dumpEach_eq, hitems]
  | object members ih =>
    have hmembers : (members.map fun m => (m.1, m.2.map settled)).map
        (fun m => (m.1, dumpValue indent sortKeys (depth + 1) m.2)) =
        members.map fun m => (m.1, dumpValue indent sortKeys (depth + 1) m.2) := by
      rw [List.map_map]
      exact List.map_congr_left fun m hm => congrArg (Prod.mk m.1) (ih m hm _)
    rw [Node.map_object]
    unfold dumpValue
    simp only [dumpPairs_eq, hmembers]
  | _ => rfl

/-- The size limits that a rendering has to fit. -/
structure FitsLimits (limits : ParseLimits) (v : Value ρ) : Prop where
  bytes : (dumpCanonical 2 v).length ≤ limits.maxBytes
  depth : v.depth ≤ limits.maxDepth
  items : v.count ≤ limits.maxItems
  sized : v.Sized limits.bounds

/-- **`rendered_language`**: what the text of a rendering is read as. -/
theorem rendered_language {limits : ParseLimits} {v : Value ρ} (hdepth : limits.maxDepth ≤ kDumpDepthLimit)
    (hfits : FitsLimits limits v) (hdistinct : v.Distinct) (hreal : v.Numbers NotReal) :
    Language limits (dumpCanonical 2 v) (reread v) := by
  have hsorted := (v.map settled).reordered_sorted
  have htext : dumpCanonical 2 v = dumpValue 2 false 0 (reread v) := by
    rw [dumpCanonical, ← dumpValue_settled, dumpValue_sorted]
    rfl
  have hplain : (reread v).Numbers Plain :=
    hsorted.numbers.mp (Node.numbers_map hreal fun _ => plain_settled)
  have hwithin : Within limits.bounds (reread v) :=
    hsorted.within (Node.within_map (Node.within_of_sized hfits.sized hdistinct))
  have hbytes := hfits.bytes
  rw [htext] at hbytes ⊢
  apply dumped_language hdepth hplain
  · rw [reread, ← hsorted.depth, Node.depth_map]
    exact hfits.depth
  · rw [reread, ← hsorted.count, Node.count_map]
    exact hfits.items
  · exact hwithin
  · exact hbytes

end Rereading

/-! ## Readers on renderings -/

section Readers

variable {ρ : Type} {root : Value ρ} {name : String}

theorem readText_of {t : Bytes} (h : findMember name root = some (.text t)) : readText root name = .ok t := by
  unfold readText
  rw [h]

theorem readBool_of {b out : Bool} (h : findMember name root = some (.boolean b)) : readBool root name out = .ok b := by
  unfold readBool
  rw [h]

theorem checkMembers_of {names : List String} (hobject : isObject root = true)
    (h : ∀ m ∈ membersOf root, ∃ name ∈ names, m.1 = ascii name) : checkMembers root names = .ok () := by
  have hnone : (membersOf root).find? (fun m => !names.any fun name => m.1 == ascii name) = none := by
    rw [List.find?_eq_none]
    intro m hm
    simpa using h m hm
  unfold checkMembers
  rw [hobject, hnone]
  rfl

/-- A member that is not allowed is refused. -/
theorem checkMembers_refuses {names : List String} {m : Bytes × Value ρ} (hm : m ∈ membersOf root)
    (h : ∀ name ∈ names, m.1 ≠ ascii name) :
    ∃ status, checkMembers root names = .error status ∧ status.code = .rejected := by
  cases hcheck : checkMembers root names with
  | ok u =>
    obtain ⟨name, hname, hkey⟩ := (checkMembers_means hcheck).2 m hm
    exact absurd hkey (h name hname)
  | error status =>
    refine ⟨status, rfl, ?_⟩
    unfold checkMembers at hcheck
    split_ifs at hcheck
    · rw [← Except.error.inj hcheck]
      rfl
    · split at hcheck
      · rw [← Except.error.inj hcheck]
      · simp at hcheck

theorem parseEvidence_of {e : EvidenceClass} (h : findMember "evidence" root = some (evidenceJson e)) :
    parseEvidence root = e := by
  unfold parseEvidence
  rw [h, evidenceJson]
  simp only [tryParseEvidenceClass_name, Option.getD_some]

theorem parseIdentities_of {a b c : IdTag} {x : StringId a} {y : StringId b} {z : StringId c} (what : String)
    (hx : x.empty = false) (hy : y.empty = false) (hz : z.empty = false) :
    parseIdentities what x.text y.text z.text = .ok (x, y, z) := by
  unfold parseIdentities
  rw [StringId.tryParse_text hx, StringId.tryParse_text hy, StringId.tryParse_text hz]

/-- A map is read back from its members. -/
theorem parseEntries_of {tag : IdTag} {α : Type} (value : StringId tag → Value ρ → Except Status α)
    (node : StringId tag × α → Value ρ) (invalid duplicate : String) (l : List (StringId tag × α))
    (m : OrdMap (StringId tag) α) (hsorted : (m.entries ++ l).Pairwise fun x y => x.1 < y.1)
    (hkeys : ∀ e ∈ l, e.1.empty = false) (hvalue : ∀ e ∈ l, value e.1 (node e) = .ok e.2) :
    parseEntries invalid duplicate value (l.map fun e => (e.1.text, node e)) m = .ok (m.insertAll l) := by
  induction l generalizing m with
  | nil => rfl
  | cons e rest ih =>
    obtain ⟨hkey, hkeys⟩ := List.forall_mem_cons.mp hkeys
    obtain ⟨hone, hvalue⟩ := List.forall_mem_cons.mp hvalue
    have hbelow : ∀ x ∈ m.entries, x.1 < e.1 := fun x hx => (List.pairwise_append.mp hsorted).2.2 x hx e (by simp)
    have hentries : (m.insert e.1 e.2).entries = m.entries ++ [e] := OrdMap.insertEntry_append hbelow
    have hlater := ih (m.insert e.1 e.2) (by rw [hentries]; simpa using hsorted) hkeys hvalue
    rw [List.map_cons, parseEntries, StringId.tryParse_text hkey]
    simp only [hone, ok_bind, OrdMap.emplace_append hbelow]
    exact hlater

/-- The members of a rendered submission. -/
def submissionPairs (s : ObservationSubmission) : List (Bytes × Value ρ) :=
  [(ascii "observation", .text s.observation.text), (ascii "scope", .text s.scope.text),
    (ascii "reporter", .text s.reporter.text), (ascii "generation", .number (.unsigned s.generation)),
    (ascii "evidence", evidenceJson s.evidence), (ascii "complete", .boolean s.complete),
    (ascii "authoritative_absence", .boolean s.authoritativeAbsence), (ascii "subjects", subjectsJson s.subjects)]

theorem submissionPairs_nodup (s : ObservationSubmission) :
    ((submissionPairs s : List (Bytes × Value ρ)).map Prod.fst).Nodup := by
  have hnames : (["observation", "scope", "reporter", "generation", "evidence", "complete", "authoritative_absence",
    "subjects"].map ascii).Nodup := by decide
  simp only [List.map_cons, List.map_nil] at hnames
  simp only [submissionPairs, List.map_cons, List.map_nil]
  exact hnames

variable [Double ρ]

theorem readU64_of {u : UInt64} (h : findMember name root = some (.number (settled (.unsigned u)))) (out : UInt64) :
    readU64 root name out = .ok u := by
  unfold readU64
  rw [h]
  exact congrArg Except.ok (asUnsigned_means (int?_settled _))

/-- A value of an attribute is read back. -/
theorem parseAttribute_rendered {a : AttributeValue} (h : a.isValid = true) :
    parseAttribute (reread (attributeJson a) : Value ρ) = .ok a := by
  cases a with
  | invalid => simp [AttributeValue.isValid] at h
  | unsigned u =>
    have hread : asUnsigned 0 (.number (settled (.unsigned u)) : Value ρ) = u := asUnsigned_means (int?_settled _)
    have hparsed : parseAttribute (reread (attributeJson (.unsigned u)) : Value ρ) =
        .ok (.unsigned (asUnsigned 0 (.number (settled (.unsigned u)) : Value ρ))) := rfl
    rw [hparsed, hread]
  | _ => rfl

/-- A state is read back. -/
theorem parseState_rendered {limits : RuntimeLimits} {state : SubjectState} (h : StateOk limits state) :
    parseState limits (reread (stateJson state) : Value ρ) = .ok state := by
  have hentries := parseEntries_of (fun _ v => parseAttribute v)
    (fun e : AttributeKey × AttributeValue => (reread (attributeJson e.2) : Value ρ)) "invalid attribute key"
    "duplicate attribute key" state.entries OrdMap.empty state.sorted h.keys
    (fun e he => parseAttribute_rendered (h.values e he))
  rw [OrdMap.foldl_insert_entries] at hentries
  rw [stateJson, reread_entries, parseState, if_neg (by rw [List.length_map]; exact not_lt.mpr h.bound)]
  exact hentries

/-- The members of a rendered subject. -/
def subjectPairs (entry : SubjectEntry) : List (Bytes × Value ρ) :=
  [(ascii "complete_attributes", .boolean entry.completeAttributes), (ascii "attributes", stateJson entry.state)]

theorem parseSubject_rendered {limits : RuntimeLimits} {entry : SubjectEntry} (subject : SubjectId)
    (h : StateOk limits entry.state) :
    parseSubject limits subject (reread (subjectJson entry) : Value ρ) = .ok { entry with id := subject } := by
  have hnames : [ascii "complete_attributes", ascii "attributes"].Nodup := by decide
  have hdistinct : ((subjectPairs entry : List (Bytes × Value ρ)).map Prod.fst).Nodup := hnames
  have hcomplete : findMember "complete_attributes" (reread (subjectJson entry) : Value ρ) =
      some (.boolean entry.completeAttributes) := findMember_reread hdistinct _
  have hattributes : findMember "attributes" (reread (subjectJson entry) : Value ρ) =
      some (reread (stateJson entry.state)) := findMember_reread hdistinct _
  have hobject : isObject (reread (subjectJson entry) : Value ρ) = true := by
    rw [subjectJson, reread_object]
    rfl
  unfold parseSubject
  rw [hobject, readBool_of hcomplete, hattributes]
  simp only [Bool.not_true, Bool.false_eq_true, if_false, ok_bind, parseState_rendered h]
  rfl

/-- The subjects of a document are read back under the identities that they are keyed by. -/
theorem parseSubjects_rendered {limits : RuntimeLimits} {subjects : Subjects} (h : SubjectsOk limits subjects)
    (what : String) {root : Value ρ} (hroot : findMember "subjects" root = some (reread (subjectsJson subjects))) :
    parseSubjects limits what root = .ok subjects.withKeyIds := by
  have hmembers : subjects.entries.map (fun e => (e.1.text, (reread (subjectJson e.2) : Value ρ))) =
      subjects.withKeyIds.entries.map fun e => (e.1.text, reread (subjectJson e.2)) := by
    rw [Subjects.withKeyIds, OrdMap.mapWithKey, List.map_map]
    rfl
  have hsize : subjects.withKeyIds.size = subjects.size := OrdMap.size_mapWithKey _ _
  have hvalue : ∀ e ∈ subjects.withKeyIds.entries,
      parseSubject limits e.1 (reread (subjectJson e.2) : Value ρ) = .ok e.2 := by
    intro e he
    rw [parseSubject_rendered e.1 (h.withKeyIds.states e he), ← withKeyIds_id e he]
  have hentries := parseEntries_of (parseSubject limits)
    (fun e : SubjectId × SubjectEntry => (reread (subjectJson e.2) : Value ρ)) "invalid subject identity"
    "duplicate subject" subjects.withKeyIds.entries OrdMap.empty subjects.withKeyIds.sorted h.withKeyIds.keys hvalue
  rw [OrdMap.foldl_insert_entries] at hentries
  unfold parseSubjects
  rw [hroot, subjectsJson, reread_entries, hmembers]
  simp only
  rw [if_neg, hentries]
  rw [List.length_map]
  exact not_lt.mpr h.withKeyIds.bound

theorem validateSubjects_withKeyIds (m : Subjects) (limits : RuntimeLimits) (what : String) :
    validateSubjects m.withKeyIds limits what = validateSubjects m limits what := by
  have hgo : ∀ l : List (SubjectId × SubjectEntry), validateSubjects.go limits what
      (l.map fun e => (e.1, { e.2 with id := e.1 })) = validateSubjects.go limits what l := by
    intro l
    induction l with
    | nil => rfl
    | cons e rest ih => rw [List.map_cons, validateSubjects.go, validateSubjects.go, ih]
  have hsize : m.withKeyIds.size = m.size := OrdMap.size_mapWithKey _ _
  unfold validateSubjects
  rw [hsize]
  exact congrArg (fun status => if limits.maxSubjectsPerDocument.toNat < m.size then _ else status) (hgo m.entries)

/-- **`readSubmissionJson_rendered`**: a submission is read back, each entry with the identity it is keyed by. -/
theorem readSubmissionJson_rendered {limits : RuntimeLimits} {s : ObservationSubmission}
    (h : (validateSubmission s limits).code = .ok) :
    readSubmissionJson limits (reread (submissionValue s) : Value ρ) = .ok { s with subjects := s.subjects.withKeyIds } := by
  obtain ⟨hobservation, hscope, hreporter, hsubjects⟩ := validateSubmission_ok h
  have hfind : ∀ name, findMember name (reread (submissionValue s) : Value ρ) =
      (findMember name (submissionValue s)).map reread := fun name => findMember_reread (submissionPairs_nodup s) name
  have hobject : isObject (reread (submissionValue s) : Value ρ) = true := by
    rw [submissionValue, reread_object]
    rfl
  have hknown : ∀ m ∈ membersOf (reread (submissionValue s) : Value ρ), ∃ name ∈ submissionMembers, m.1 = ascii name := by
    intro m hm
    obtain ⟨m', hm', rfl⟩ := mem_reread.mp hm
    have hnames : m'.1 ∈ (submissionPairs s : List (Bytes × Value ρ)).map Prod.fst := List.mem_map_of_mem hm'
    have hall : ∀ key ∈ ["observation", "scope", "reporter", "generation", "evidence", "complete",
        "authoritative_absence", "subjects"].map ascii, ∃ name ∈ submissionMembers, key = ascii name := by
      intro key hkey
      obtain ⟨name, hname, rfl⟩ := List.mem_map.mp hkey
      exact ⟨name, hname, rfl⟩
    exact hall _ hnames
  unfold readSubmissionJson
  simp only [checkMembers_of hobject hknown, ok_bind, readText_of (hfind "observation"), readText_of (hfind "scope"),
    readText_of (hfind "reporter"), readU64_of (hfind "generation"), readBool_of (hfind "complete"),
    readBool_of (hfind "authoritative_absence"), parseIdentities_of _ hobservation hscope hreporter,
    parseSubjects_rendered hsubjects _ (hfind "subjects"), parseEvidence_of (hfind "evidence")]
  have hvalid : validateSubmission { s with subjects := s.subjects.withKeyIds } limits = validateSubmission s limits := by
    unfold validateSubmission
    simp only [validateSubjects_withKeyIds]
  rw [if_pos]
  · rfl
  · exact (congrArg Status.code hvalid).trans h

end Readers

/-! ## The values of renderings -/

section Values

variable {ρ : Type}

theorem nodup_texts {tag : IdTag} {α : Type} (m : OrdMap (StringId tag) α) : (m.entries.map fun e => e.1.text).Nodup :=
  List.pairwise_map.mpr (m.sorted.imp fun {a b} hlt => ne_of_lt (show a.1.text < b.1.text from hlt))

theorem attributeJson_good (a : AttributeValue) :
    (attributeJson a : Value ρ).Distinct ∧ (attributeJson a : Value ρ).Numbers NotReal := by
  cases a
  all_goals
    rw [attributeJson, Node.distinct_object, Node.numbers_object]
    exact ⟨⟨by simp, List.forall_mem_singleton.mpr trivial⟩, List.forall_mem_singleton.mpr trivial⟩

theorem stateJson_good (state : SubjectState) :
    (stateJson state : Value ρ).Distinct ∧ (stateJson state : Value ρ).Numbers NotReal := by
  rw [stateJson, Node.distinct_object, Node.numbers_object, List.map_map, List.forall_mem_map, List.forall_mem_map]
  exact ⟨⟨nodup_texts state, fun e _ => (attributeJson_good e.2).1⟩, fun e _ => (attributeJson_good e.2).2⟩

theorem subjectsJson_good (subjects : Subjects) :
    (subjectsJson subjects : Value ρ).Distinct ∧ (subjectsJson subjects : Value ρ).Numbers NotReal := by
  have hone : ∀ entry : SubjectEntry, (subjectJson entry : Value ρ).Distinct ∧
      (subjectJson entry : Value ρ).Numbers NotReal := by
    intro entry
    have hnames : [ascii "complete_attributes", ascii "attributes"].Nodup := by decide
    obtain ⟨hdistinct, hreal⟩ := stateJson_good (ρ := ρ) entry.state
    rw [subjectJson, Node.distinct_object, Node.numbers_object]
    refine ⟨⟨hnames, ?_⟩, ?_⟩
    · exact List.forall_mem_cons.mpr ⟨trivial, List.forall_mem_singleton.mpr hdistinct⟩
    · exact List.forall_mem_cons.mpr ⟨trivial, List.forall_mem_singleton.mpr hreal⟩
  rw [subjectsJson, Node.distinct_object, Node.numbers_object, List.map_map, List.forall_mem_map, List.forall_mem_map]
  exact ⟨⟨nodup_texts subjects, fun e _ => (hone e.2).1⟩, fun e _ => (hone e.2).2⟩

theorem submissionValue_good (s : ObservationSubmission) :
    (submissionValue s : Value ρ).Distinct ∧ (submissionValue s : Value ρ).Numbers NotReal := by
  obtain ⟨hdistinct, hreal⟩ := subjectsJson_good (ρ := ρ) s.subjects
  rw [submissionValue, Node.distinct_object, Node.numbers_object]
  simp only [List.forall_mem_cons]
  exact ⟨⟨submissionPairs_nodup s, trivial, trivial, trivial, trivial, trivial, trivial, trivial, hdistinct, by simp⟩,
    trivial, trivial, trivial, trivial, trivial, trivial, trivial, hreal, by simp⟩

theorem intentValue_good (d : IntentDocument) :
    (intentValue d : Value ρ).Distinct ∧ (intentValue d : Value ρ).Numbers NotReal := by
  have hnames : (["intent", "scope", "definition", "generation", "policy_version", "evidence", "complete", "digest",
    "subjects"].map ascii).Nodup := by decide
  obtain ⟨hdistinct, hreal⟩ := subjectsJson_good (ρ := ρ) d.subjects
  rw [intentValue, Node.distinct_object, Node.numbers_object]
  simp only [List.map_cons, List.map_nil] at hnames
  simp only [List.forall_mem_cons, List.map_cons, List.map_nil]
  exact ⟨⟨hnames, trivial, trivial, trivial, trivial, trivial, trivial, trivial, trivial, hdistinct, by simp⟩,
    trivial, trivial, trivial, trivial, trivial, trivial, trivial, trivial, hreal, by simp⟩

theorem keysJson_good (keys : List AttributeKey) :
    (keysJson keys : Value ρ).Distinct ∧ (keysJson keys : Value ρ).Numbers NotReal := by
  rw [keysJson, Node.distinct_array, Node.numbers_array, List.forall_mem_map, List.forall_mem_map]
  exact ⟨fun _ _ => trivial, fun _ _ => trivial⟩

theorem policyValue_good (p : ReconciliationPolicy) :
    (policyValue p : Value ρ).Distinct ∧ (policyValue p : Value ρ).Numbers NotReal := by
  have hnames : (["id", "version", "max_observation_age_ms", "require_current_epoch",
    "require_complete_coverage_for_absence", "permit_apply_missing", "permit_apply_mismatched",
    "permit_withdraw_unexpected", "require_complete_coverage_for_convergence_proof",
    "require_independent_verification", "digest", "unmanaged_attributes", "observe_only_attributes"].map ascii).Nodup := by
    decide
  obtain ⟨hun, hunReal⟩ := keysJson_good (ρ := ρ) p.unmanagedAttributes
  obtain ⟨hob, hobReal⟩ := keysJson_good (ρ := ρ) p.observeOnlyAttributes
  rw [policyValue, Node.distinct_object, Node.numbers_object]
  simp only [List.map_cons, List.map_nil] at hnames
  simp only [List.forall_mem_cons, List.map_cons, List.map_nil]
  exact ⟨⟨hnames, trivial, trivial, trivial, trivial, trivial, trivial, trivial, trivial, trivial, trivial, trivial, hun,
      hob, by simp⟩,
    trivial, trivial, trivial, trivial, trivial, trivial, trivial, trivial, trivial, trivial, trivial, hunReal, hobReal,
      by simp⟩

end Values

/-! ## Round trips -/

section RoundTrips

variable {ρ : Type} [Double ρ]

/-- A rendering with a member that its reader does not know is refused. -/
theorem rendering_refused {α : Type} {read : Value ρ → Except Status α} {names : List String}
    (hread : ∀ v status, checkMembers v names = .error status → read v = .error status) {v : Value ρ}
    (hfits : FitsLimits {} v) (hgood : v.Distinct ∧ v.Numbers NotReal) {members : List (Bytes × Value ρ)}
    (hv : v = .object members) {key : Bytes} {node : Value ρ} (hm : (key, node) ∈ members)
    (hunknown : ∀ name ∈ names, key ≠ ascii name) (out : α) :
    (parseDocument read (dumpCanonical 2 v) out).1.code = .rejected := by
  have hlanguage := rendered_language (by decide) hfits hgood.1 hgood.2
  have hmember : (key, reread node) ∈ membersOf (reread v) := by
    rw [hv]
    exact mem_reread.mpr ⟨_, hm, rfl⟩
  obtain ⟨status, hcheck, hcode⟩ := checkMembers_refuses hmember hunknown
  rw [(parseDocument_of hlanguage out).2 status (hread _ _ hcheck)]
  exact hcode

theorem intent_refused {limits : RuntimeLimits} {d : IntentDocument} (hfits : FitsLimits {} (intentValue d : Value ρ))
    (out : IntentDocument) : (parseJsonIntent ρ limits (intentJson ρ d) out).1.code = .rejected := by
  have hread : ∀ (v : Value ρ) status, checkMembers v intentMembers = .error status →
      readIntentJson limits v = .error status := by
    intro v status hstatus
    unfold readIntentJson
    rw [hstatus]
    rfl
  have hunknown : ∀ name ∈ intentMembers, ascii "digest" ≠ ascii name := by decide
  obtain ⟨members, hmembers⟩ : ∃ members, (intentValue d : Value ρ) = .object members := ⟨_, rfl⟩
  have hdigest : (ascii "digest", digestJson d.digest) ∈ members := by
    rw [← Node.object.inj hmembers]
    simp
  have hrefused := rendering_refused hread hfits (intentValue_good d) hmembers hdigest hunknown out
  rw [parseJsonIntent, intentJson]
  exact hrefused

theorem policy_refused {limits : RuntimeLimits} {p : ReconciliationPolicy}
    (hfits : FitsLimits {} (policyValue p : Value ρ)) (out : ReconciliationPolicy) :
    (parseJsonPolicy ρ limits (policyJson ρ p) out).1.code = .rejected := by
  have hread : ∀ (v : Value ρ) status, checkMembers v policyMembers = .error status →
      readPolicyJson limits v = .error status := by
    intro v status hstatus
    unfold readPolicyJson
    rw [hstatus]
    rfl
  have hunknown : ∀ name ∈ policyMembers, ascii "digest" ≠ ascii name := by decide
  obtain ⟨members, hmembers⟩ : ∃ members, (policyValue p : Value ρ) = .object members := ⟨_, rfl⟩
  have hdigest : (ascii "digest", digestJson (computePolicyDigest p)) ∈ members := by
    rw [← Node.object.inj hmembers]
    simp
  have hrefused := rendering_refused hread hfits (policyValue_good p) hmembers hdigest hunknown out
  rw [parseJsonPolicy, policyJson]
  exact hrefused

/-- A submission is read back from its rendering as one whose entries carry their keys. -/
theorem submission_read_back {limits : RuntimeLimits} {s : ObservationSubmission}
    (hvalid : (validateSubmission s limits).code = .ok) (hfits : FitsLimits {} (submissionValue s : Value ρ))
    (out : ObservationSubmission) :
    parseJsonSubmission ρ limits (submissionJson ρ s) out = (Status.ok, { s with subjects := s.subjects.withKeyIds }) := by
  have hgood := submissionValue_good (ρ := ρ) s
  have hlanguage := rendered_language (by decide) hfits hgood.1 hgood.2
  exact (parseDocument_of hlanguage out).1 _ (readSubmissionJson_rendered hvalid)

/-- **`rendered_read_back`**: no intent and no policy is read back from its rendering; a submission is when its
entries carry the identities that they are keyed by. -/
theorem rendered_read_back (limits : RuntimeLimits) :
    (∀ d out, (validateIntent d limits).code = .ok → d.digest = computeIntentDigest d →
      FitsLimits {} (intentValue d : Value ρ) → (parseJsonIntent ρ limits (intentJson ρ d) out).1.code = .rejected) ∧
    (∀ p out, PolicyOk limits p → FitsLimits {} (policyValue p : Value ρ) →
      (parseJsonPolicy ρ limits (policyJson ρ p) out).1.code = .rejected) ∧
    (∀ s out, (validateSubmission s limits).code = .ok → FitsLimits {} (submissionValue s : Value ρ) →
      (parseJsonSubmission ρ limits (submissionJson ρ s) out = (Status.ok, s) ↔
        ∀ e ∈ s.subjects.entries, e.2.id = e.1)) := by
  refine ⟨fun d out _ _ hfits => intent_refused hfits out, fun p out _ hfits => policy_refused hfits out,
    fun s out hvalid hfits => ?_⟩
  rw [submission_read_back hvalid hfits out, Prod.mk.injEq]
  constructor
  · intro hsame
    have hsubjects : s.subjects.withKeyIds = s.subjects := congrArg ObservationSubmission.subjects hsame.2
    rw [← hsubjects]
    exact withKeyIds_id
  · intro hids
    refine ⟨rfl, ?_⟩
    rw [withKeyIds_eq_self hids]

end RoundTrips

/-! ## Samples -/

/-- A desired state without subjects, with its digest. -/
def renderedIntent : IntentDocument :=
  let document := { noIntent with intent := ⟨[0x69], valid_i⟩, scope := ⟨[0x73], valid_s⟩, definition := ⟨[0x64], valid_d⟩ }
  { document with digest := computeIntentDigest document }

theorem renderedIntent_fits : FitsLimits {} (intentValue renderedIntent : Value Unit) where
  bytes := by decide +kernel
  depth := by decide
  items := by decide
  sized := by decide

/-- The rendering of a valid desired state with its digest is refused. -/
theorem rendering_of_intent_refused : (validateIntent renderedIntent {}).code = .ok ∧
    renderedIntent.digest = computeIntentDigest renderedIntent ∧
    FitsLimits {} (intentValue renderedIntent : Value Unit) ∧
    (parseJsonIntent Unit {} (intentJson Unit renderedIntent) noIntent).1.code = .rejected := by
  have hdigest : renderedIntent.digest = computeIntentDigest renderedIntent := by
    unfold renderedIntent
    exact (computeIntentDigest_digest _ _).symm
  exact ⟨by decide, hdigest, renderedIntent_fits, intent_refused renderedIntent_fits noIntent⟩

/-- A report on one subject, with numbers at both ends of their ranges. -/
def renderedReport : ObservationSubmission where
  observation := ⟨[0x6f], valid_o⟩
  scope := ⟨[0x73], valid_s⟩
  reporter := ⟨[0x72], valid_r⟩
  generation := 0xffffffffffffffff
  evidence := .real
  complete := true
  authoritativeAbsence := false
  subjects := OrdMap.empty.insert ⟨[0x61], valid_a⟩ ⟨⟨[0x61], valid_a⟩, true,
    OrdMap.empty.insert ⟨[0x6b], valid_k⟩ (.integer (-9223372036854775808))⟩

theorem renderedReport_fits : FitsLimits {} (submissionValue renderedReport : Value Unit) where
  bytes := by decide +kernel
  depth := by decide
  items := by decide
  sized := by decide

theorem report_read_back (out : ObservationSubmission) :
    parseJsonSubmission Unit {} (submissionJson Unit renderedReport) out = (Status.ok, renderedReport) := by
  apply ((rendered_read_back (ρ := Unit) {}).2.2 renderedReport out rfl renderedReport_fits).mpr
  decide

end FabricReconciliation
