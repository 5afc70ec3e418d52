import FabricReconciliation.DocumentJson

/-!
# How strict the document reader is (`document_json.cpp:51-177, 445-614`)

What a document in JSON says by its schema, beside what the reader makes of it. The accessors fall back where the
schema has no meaning, and `Lenient` lists where that goes unnoticed.

* **`attribute_means`**, **`subject_means`** — the reader has the meaning of what is not lenient;
* **`documents_strict`** — a document that was accepted is what its text says just when nothing in it is lenient.
-/

namespace FabricReconciliation

open Lib Lib.Json

/-! ## What the schema means -/

section Meaning

variable {ρ : Type}

/-- The integer that a number without fraction and exponent is. -/
def Number.int? : Number ρ → Option Int
  | .integer i => some i.toInt
  | .unsigned u => some u.toNat
  | .real _ => none

def MeansI64 (v : Value ρ) (i : Int64) : Prop := ∃ n, v = .number n ∧ n.int? = some i.toInt

def MeansU64 (v : Value ρ) (u : UInt64) : Prop := ∃ n, v = .number n ∧ n.int? = some (u.toNat : Int)

/-- The value of an attribute: exactly one member, of the type that its name says. -/
inductive MeansAttribute : Value ρ → AttributeValue → Prop
  | absent : MeansAttribute (.object [(ascii "absent", .boolean true)]) .absent
  | boolean (b : Bool) : MeansAttribute (.object [(ascii "bool", .boolean b)]) (.boolean b)
  | integer {v : Value ρ} {i : Int64} (h : MeansI64 v i) : MeansAttribute (.object [(ascii "i64", v)]) (.integer i)
  | unsigned {v : Value ρ} {u : UInt64} (h : MeansU64 v u) : MeansAttribute (.object [(ascii "u64", v)]) (.unsigned u)
  | text (t : Bytes) : MeansAttribute (.object [(ascii "text", .text t)]) (.text t)
  | token (t : Bytes) : MeansAttribute (.object [(ascii "token", .text t)]) (.token t)

/-- The members of an object are the entries of a map. -/
structure MeansEntries {tag : IdTag} {α : Type} (means : StringId tag → Value ρ → α → Prop)
    (members : List (Bytes × Value ρ)) (m : OrdMap (StringId tag) α) : Prop where
  size : m.size = members.length
  entries : ∀ member ∈ members, ∃ key a, key.text = member.1 ∧ m.find? key = some a ∧ means key member.2 a

/-- The attributes of a subject; `null` stands for none. -/
inductive MeansState : Value ρ → SubjectState → Prop
  | null : MeansState .null OrdMap.empty
  | object {members : List (Bytes × Value ρ)} {state : SubjectState}
      (h : MeansEntries (fun _ => MeansAttribute) members state) : MeansState (.object members) state

/-- A member that may be missing. -/
def Member (root : Value ρ) (name : String) (present : Value ρ → Prop) (missing : Prop) : Prop :=
  (∀ v, findMember name root = some v → present v) ∧ (findMember name root = none → missing)

structure MeansSubject (subject : SubjectId) (node : Value ρ) (entry : SubjectEntry) : Prop where
  object : isObject node = true
  known : ∀ m ∈ membersOf node, m.1 = ascii "complete_attributes" ∨ m.1 = ascii "attributes"
  id : entry.id = subject
  completeAttributes : Member node "complete_attributes" (· = .boolean entry.completeAttributes)
    (entry.completeAttributes = true)
  attributes : Member node "attributes" (MeansState · entry.state) (entry.state = OrdMap.empty)

/-- The members that intents and submissions have in common. -/
structure MeansDocument (names : List String) (root : Value ρ) (generation : UInt64) (evidence : EvidenceClass)
    (complete : Bool) (subjects : Subjects) : Prop where
  object : isObject root = true
  known : ∀ m ∈ membersOf root, ∃ name ∈ names, m.1 = ascii name
  generation : Member root "generation" (MeansU64 · generation) (generation = 0)
  evidence : Member root "evidence" (· = .text (ascii evidence.name)) (evidence = .synthetic)
  complete : Member root "complete" (· = .boolean complete) (complete = true)
  subjects : Member root "subjects"
    (fun v => ∃ members, v = .object members ∧ MeansEntries MeansSubject members subjects) (subjects = OrdMap.empty)

/-- An intent is what a value says. -/
structure MeansIntent (root : Value ρ) (d : IntentDocument) : Prop where
  intent : findMember "intent" root = some (.text d.intent.text)
  scope : findMember "scope" root = some (.text d.scope.text)
  definition : findMember "definition" root = some (.text d.definition.text)
  policyVersion : Member root "policy_version" (MeansU64 · d.policyVersion) (d.policyVersion = 0)
  document : MeansDocument intentMembers root d.generation d.evidence d.complete d.subjects
  digest : d.digest = computeIntentDigest d

/-- A submission is what a value says. -/
structure MeansSubmission (root : Value ρ) (s : ObservationSubmission) : Prop where
  observation : findMember "observation" root = some (.text s.observation.text)
  scope : findMember "scope" root = some (.text s.scope.text)
  reporter : findMember "reporter" root = some (.text s.reporter.text)
  absence : Member root "authoritative_absence" (· = .boolean s.authoritativeAbsence) (s.authoritativeAbsence = false)
  document : MeansDocument submissionMembers root s.generation s.evidence s.complete s.subjects

/-! ## What the reader takes without a meaning -/

/-- A value of an attribute with a second member, or with a member of another type than its name says. -/
inductive LenientAttribute (node : Value ρ) : Prop
  | second (h : 1 < (membersOf node).length)
  | boolean {v : Value ρ} (h : findMember "bool" node = some v) (hno : ∀ b, v ≠ .boolean b)
  | integer {v : Value ρ} (h : findMember "i64" node = some v) (hno : ∀ i, ¬ MeansI64 v i)
  | unsigned {v : Value ρ} (h : findMember "u64" node = some v) (hno : ∀ u, ¬ MeansU64 v u)
  | text {v : Value ρ} (h : findMember "text" node = some v) (hno : ∀ t, v ≠ .text t)
  | token {v : Value ρ} (h : findMember "token" node = some v) (hno : ∀ t, v ≠ .text t)

/-- A subject with a member that is not of the schema, or with a lenient attribute. -/
inductive LenientSubject (node : Value ρ) : Prop
  | unknown {m : Bytes × Value ρ} (h : m ∈ membersOf node)
      (hno : ¬ (m.1 = ascii "complete_attributes" ∨ m.1 = ascii "attributes"))
  | value {attributes : Value ρ} {m : Bytes × Value ρ} (h : findMember "attributes" node = some attributes)
      (hm : m ∈ membersOf attributes) (hlenient : LenientAttribute m.2)

/-- A document with a number that is negative or has a fraction or an exponent, an evidence that is no class's
name, or a lenient subject. -/
inductive Lenient (numbers : List String) (root : Value ρ) : Prop
  | number {name : String} {n : Number ρ} (hname : name ∈ numbers) (h : findMember name root = some (.number n))
      (hno : ∀ u, ¬ MeansU64 (.number n) u)
  | evidence {v : Value ρ} (h : findMember "evidence" root = some v)
      (hno : ∀ e : EvidenceClass, v ≠ .text (ascii e.name))
  | subject {subjects : Value ρ} {m : Bytes × Value ρ} (h : findMember "subjects" root = some subjects)
      (hm : m ∈ membersOf subjects) (hlenient : LenientSubject m.2)

end Meaning

/-! ## Numbers and attributes -/

section Reading

variable {ρ : Type}

theorem findMember_single (name : String) (key : Bytes) (v : Value ρ) :
    findMember name (.object [(key, v)]) = if key = ascii name then some v else none := by
  unfold findMember membersOf
  by_cases h : key = ascii name
  · rw [if_pos h, List.find?_cons_of_pos (by simpa using h)]
    rfl
  · rw [if_neg h, List.find?_cons_of_neg (by simpa using h)]
    rfl

theorem findMember_single_some {name : String} {key : Bytes} {v w : Value ρ} :
    findMember name (.object [(key, v)]) = some w ↔ key = ascii name ∧ v = w := by
  rw [findMember_single]
  split_ifs with h <;> simp [h]

/-- What can be lenient about an attribute with one member. -/
theorem lenient_single {key : Bytes} {v : Value ρ} (h : LenientAttribute (.object [(key, v)])) :
    (key = ascii "bool" ∧ ∀ b, v ≠ .boolean b) ∨ (key = ascii "i64" ∧ ∀ i, ¬ MeansI64 v i) ∨
    (key = ascii "u64" ∧ ∀ u, ¬ MeansU64 v u) ∨ (key = ascii "text" ∧ ∀ t, v ≠ .text t) ∨
    (key = ascii "token" ∧ ∀ t, v ≠ .text t) := by
  cases h with
  | second h => exact absurd h (by simp [membersOf])
  | boolean h hno =>
    obtain ⟨hkey, rfl⟩ := findMember_single_some.mp h
    exact .inl ⟨hkey, hno⟩
  | integer h hno =>
    obtain ⟨hkey, rfl⟩ := findMember_single_some.mp h
    exact .inr (.inl ⟨hkey, hno⟩)
  | unsigned h hno =>
    obtain ⟨hkey, rfl⟩ := findMember_single_some.mp h
    exact .inr (.inr (.inl ⟨hkey, hno⟩))
  | text h hno =>
    obtain ⟨hkey, rfl⟩ := findMember_single_some.mp h
    exact .inr (.inr (.inr (.inl ⟨hkey, hno⟩)))
  | token h hno =>
    obtain ⟨hkey, rfl⟩ := findMember_single_some.mp h
    exact .inr (.inr (.inr (.inr ⟨hkey, hno⟩)))

theorem means_not_lenient {node : Value ρ} {a : AttributeValue} (h : MeansAttribute node a) :
    ¬ LenientAttribute node := by
  intro hlenient
  -- Only the member whose name it is could be of another type, and it is not.
  cases h with
  | absent =>
    rcases lenient_single hlenient with ⟨hkey, -⟩ | ⟨hkey, -⟩ | ⟨hkey, -⟩ | ⟨hkey, -⟩ | ⟨hkey, -⟩
    all_goals exact absurd hkey (by decide)
  | boolean b =>
    rcases lenient_single hlenient with ⟨-, hno⟩ | ⟨hkey, -⟩ | ⟨hkey, -⟩ | ⟨hkey, -⟩ | ⟨hkey, -⟩
    · exact hno b rfl
    all_goals exact absurd hkey (by decide)
  | integer h =>
    rcases lenient_single hlenient with ⟨hkey, -⟩ | ⟨-, hno⟩ | ⟨hkey, -⟩ | ⟨hkey, -⟩ | ⟨hkey, -⟩
    · exact absurd hkey (by decide)
    · exact hno _ h
    all_goals exact absurd hkey (by decide)
  | unsigned h =>
    rcases lenient_single hlenient with ⟨hkey, -⟩ | ⟨hkey, -⟩ | ⟨-, hno⟩ | ⟨hkey, -⟩ | ⟨hkey, -⟩
    rotate_left 2
    · exact hno _ h
    all_goals exact absurd hkey (by decide)
  | text t =>
    rcases lenient_single hlenient with ⟨hkey, -⟩ | ⟨hkey, -⟩ | ⟨hkey, -⟩ | ⟨-, hno⟩ | ⟨hkey, -⟩
    rotate_left 3
    · exact hno t rfl
    all_goals exact absurd hkey (by decide)
  | token t =>
    rcases lenient_single hlenient with ⟨hkey, -⟩ | ⟨hkey, -⟩ | ⟨hkey, -⟩ | ⟨hkey, -⟩ | ⟨-, hno⟩
    rotate_left 4
    · exact hno t rfl
    all_goals exact absurd hkey (by decide)

/-- A signed integer that is not negative, as an unsigned one. -/
theorem toNat_toUInt64 {i : Int64} (h : 0 ≤ i.toInt) : (i.toUInt64.toNat : Int) = i.toInt := by
  have hle : (0 : Int64) ≤ i := Int64.le_iff_toInt_le.mpr (by simpa using h)
  rw [Int64.toNat_toUInt64_of_le hle, ← Int64.toNat_toInt, Int.toNat_of_nonneg h]

variable [Double ρ]

theorem asUnsigned_means {n : Number ρ} {u : UInt64} (h : n.int? = some (u.toNat : Int)) :
    asUnsigned 0 (.number n) = u := by
  cases n with
  | integer i =>
    have hvalue : i.toInt = u.toNat := Option.some.inj h
    have hsign : ¬ i < 0 := by
      rw [Int64.lt_iff_toInt_lt, hvalue]
      simp
    have hsame := toNat_toUInt64 (i := i) (by omega)
    rw [asUnsigned, if_neg hsign]
    apply UInt64.toNat_inj.mp
    omega
  | unsigned w =>
    have hvalue : (w.toNat : Int) = u.toNat := Option.some.inj h
    exact UInt64.toNat_inj.mp (by exact_mod_cast hvalue)
  | real x => simp [Number.int?] at h

theorem asInteger_means {n : Number ρ} {i : Int64} (h : n.int? = some i.toInt) : asInteger 0 (.number n) = i := by
  cases n with
  | integer j => exact Int64.toInt_inj.mp (Option.some.inj h)
  | unsigned w =>
    have hvalue : (w.toNat : Int) = i.toInt := Option.some.inj h
    have hrange := i.toInt_lt
    have hsame := toNat_toUInt64 (i := i) (by omega)
    have hword : w = i.toUInt64 := UInt64.toNat_inj.mp (by omega)
    rw [asInteger, if_neg (by omega), hword, Int64.toInt64_toUInt64]
  | real x => simp [Number.int?] at h

/-- An attribute with one member resolves to that member. -/
theorem resolved_single {key : Bytes} {v : Value ρ} {a : AttributeValue}
    (h : resolved (.object [(key, v)]) = some a) :
    (key = ascii "token" ∧ a = .token (asText v)) ∨ (key = ascii "text" ∧ a = .text (asText v)) ∨
    (key = ascii "u64" ∧ a = .unsigned (asUnsigned 0 v)) ∨ (key = ascii "i64" ∧ a = .integer (asInteger 0 v)) ∨
    (key = ascii "bool" ∧ a = .boolean (asBool false v)) ∨ (key = ascii "absent" ∧ a = .absent) := by
  unfold resolved at h
  simp only [findMember_single] at h
  by_cases h₁ : key = ascii "token"
  · simp only [if_pos h₁] at h
    exact .inl ⟨h₁, by simpa using h.symm⟩
  by_cases h₂ : key = ascii "text"
  · simp only [if_neg h₁, if_pos h₂] at h
    exact .inr (.inl ⟨h₂, by simpa using h.symm⟩)
  by_cases h₃ : key = ascii "u64"
  · simp only [if_neg h₁, if_neg h₂, if_pos h₃] at h
    exact .inr (.inr (.inl ⟨h₃, by simpa using h.symm⟩))
  by_cases h₄ : key = ascii "i64"
  · simp only [if_neg h₁, if_neg h₂, if_neg h₃, if_pos h₄] at h
    exact .inr (.inr (.inr (.inl ⟨h₄, by simpa using h.symm⟩)))
  by_cases h₅ : key = ascii "bool"
  · simp only [if_neg h₁, if_neg h₂, if_neg h₃, if_neg h₄, if_pos h₅] at h
    exact .inr (.inr (.inr (.inr (.inl ⟨h₅, by simpa using h.symm⟩))))
  by_cases h₆ : key = ascii "absent"
  · simp only [if_neg h₁, if_neg h₂, if_neg h₃, if_neg h₄, if_neg h₅, if_pos h₆] at h
    exact .inr (.inr (.inr (.inr (.inr ⟨h₆, by simpa using h.symm⟩))))
  · simp only [if_neg h₁, if_neg h₂, if_neg h₃, if_neg h₄, if_neg h₅, if_neg h₆] at h
    simp at h

/-- **`attribute_means`**: the value of an attribute that was read is what it means, unless it is lenient. -/
theorem attribute_means {node : Value ρ} {a : AttributeValue} (h : parseAttribute node = .ok a) :
    MeansAttribute node a ↔ ¬ LenientAttribute node := by
  refine ⟨means_not_lenient, fun hno => ?_⟩
  unfold parseAttribute at h
  split_ifs at h with hobject habsent
  have hvalue : resolved node = some a := by
    cases hresolved : resolved node with
    | none => simp [hresolved] at h
    | some value =>
      rw [hresolved] at h
      rw [Except.ok.inj h]
  have hone : (membersOf node).length ≤ 1 := not_lt.mp fun hlong => hno (.second hlong)
  cases node with
  | object members =>
    match members, hone with
    | [], _ => simp [resolved, findMember, membersOf] at hvalue
    | [(key, v)], _ =>
      have hfind : ∀ name, key = ascii name → findMember name (.object [(key, v)]) = some v := fun name hname =>
        findMember_single_some.mpr ⟨hname, rfl⟩
      rcases resolved_single hvalue with ⟨hkey, ha⟩ | ⟨hkey, ha⟩ | ⟨hkey, ha⟩ | ⟨hkey, ha⟩ | ⟨hkey, ha⟩ | ⟨hkey, ha⟩
      · obtain ⟨t, rfl⟩ : ∃ t, v = .text t := by
          by_contra hnone
          exact hno (.token (hfind _ hkey) fun t ht => hnone ⟨t, ht⟩)
        rw [ha, hkey]
        exact .token t
      · obtain ⟨t, rfl⟩ : ∃ t, v = .text t := by
          by_contra hnone
          exact hno (.text (hfind _ hkey) fun t ht => hnone ⟨t, ht⟩)
        rw [ha, hkey]
        exact .text t
      · obtain ⟨u, n, rfl, hn⟩ : ∃ u, MeansU64 v u := by
          by_contra hnone
          exact hno (.unsigned (hfind _ hkey) fun u hu => hnone ⟨u, hu⟩)
        rw [ha, hkey, asUnsigned_means hn]
        exact .unsigned ⟨n, rfl, hn⟩
      · obtain ⟨i, n, rfl, hn⟩ : ∃ i, MeansI64 v i := by
          by_contra hnone
          exact hno (.integer (hfind _ hkey) fun i hi => hnone ⟨i, hi⟩)
        rw [ha, hkey, asInteger_means hn]
        exact .integer ⟨n, rfl, hn⟩
      · obtain ⟨b, rfl⟩ : ∃ b, v = .boolean b := by
          by_contra hnone
          exact hno (.boolean (hfind _ hkey) fun b hb => hnone ⟨b, hb⟩)
        rw [ha, hkey]
        exact .boolean b
      · have hmarker : asBool false v = true := by
          rw [hfind _ hkey] at habsent
          simpa using habsent
        have htrue : v = .boolean true := by
          cases v with
          | boolean b => rw [show b = true from hmarker]
          | _ => simp [asBool] at hmarker
        rw [ha, hkey, htrue]
        exact .absent
  | _ => simp [isObject] at hobject

end Reading

/-! ## Maps -/

section Maps

variable {ρ : Type}

/-- What the loop over the members of an object makes of them. -/
theorem parseEntries_ok {tag : IdTag} {α : Type} {invalid duplicate : String}
    {value : StringId tag → Value ρ → Except Status α} {members : List (Bytes × Value ρ)}
    {m m' : OrdMap (StringId tag) α} (h : parseEntries invalid duplicate value members m = .ok m') :
    m'.size = m.size + members.length ∧
      (∀ key a, m.find? key = some a → m'.find? key = some a) ∧
      ∀ member ∈ members, ∃ key a, key.text = member.1 ∧ value key member.2 = .ok a ∧ m'.find? key = some a := by
  induction members generalizing m with
  | nil =>
    rw [parseEntries, Except.ok.injEq] at h
    subst h
    simp
  | cons member rest ih =>
    unfold parseEntries at h
    split at h
    · simp at h
    next key hkey =>
    obtain ⟨a, ha, h⟩ := bind_eq_ok.mp h
    split at h
    · simp at h
    next m₁ hemplace =>
    obtain ⟨hsize, hkept, hread⟩ := ih h
    unfold OrdMap.emplace at hemplace
    split_ifs at hemplace with hnew
    rw [Option.some.injEq] at hemplace
    have hnone : m.find? key = none := by simpa using hnew
    have hadded : m₁.size = m.size + 1 := by
      rw [← hemplace, OrdMap.size_insert, hnone]
      simp
    have hfound : m'.find? key = some a := by
      refine hkept key a ?_
      rw [← hemplace, OrdMap.find?_insert_self]
    refine ⟨by rw [hsize, hadded, List.length_cons]; omega, fun other b hb => ?_, ?_⟩
    · refine hkept other b ?_
      have hne : other ≠ key := by
        rintro rfl
        rw [hnone] at hb
        simp at hb
      rw [← hemplace, OrdMap.find?_insert_ne _ _ hne]
      exact hb
    · exact List.forall_mem_cons.mpr ⟨⟨key, a, (StringId.tryParse_eq_some hkey).1, ha, hfound⟩, hread⟩

/-- A map that was read is what the members mean, unless one of them is lenient. -/
theorem entries_mean {tag : IdTag} {α : Type} {invalid duplicate : String}
    {value : StringId tag → Value ρ → Except Status α} {means : StringId tag → Value ρ → α → Prop}
    {lenient : Value ρ → Prop} {members : List (Bytes × Value ρ)} {m : OrdMap (StringId tag) α}
    (hvalue : ∀ key v a, value key v = .ok a → (means key v a ↔ ¬ lenient v))
    (h : parseEntries invalid duplicate value members OrdMap.empty = .ok m) :
    MeansEntries means members m ↔ ∀ member ∈ members, ¬ lenient member.2 := by
  obtain ⟨hsize, -, hread⟩ := parseEntries_ok h
  constructor
  · rintro ⟨-, hmeans⟩ member hmember
    obtain ⟨key, a, hkey, ha, hfind⟩ := hread member hmember
    obtain ⟨key', a', hkey', hfind', hmean⟩ := hmeans member hmember
    obtain rfl : key = key' := StringId.ext (hkey.trans hkey'.symm)
    obtain rfl : a = a' := Option.some.inj (hfind.symm.trans hfind')
    exact (hvalue _ _ _ ha).mp hmean
  · intro hno
    refine ⟨hsize.trans (Nat.zero_add _), fun member hmember => ?_⟩
    obtain ⟨key, a, hkey, ha, hfind⟩ := hread member hmember
    exact ⟨key, a, hkey, hfind, (hvalue _ _ _ ha).mpr (hno member hmember)⟩

end Maps

/-! ## Documents -/

section Documents

variable {ρ : Type} {limits : RuntimeLimits} {root node : Value ρ}

theorem readBool_means {name : String} {b out : Bool} (h : readBool root name out = .ok b) :
    Member root name (· = .boolean b) (b = out) := by
  unfold readBool at h
  split at h
  next hnone =>
    rw [Except.ok.injEq] at h
    exact ⟨fun v hv => absurd (hnone.symm.trans hv) (by simp), fun _ => h.symm⟩
  next c hsome =>
    rw [Except.ok.injEq] at h
    refine ⟨fun v hv => ?_, fun hnone => absurd (hsome.symm.trans hnone) (by simp)⟩
    rw [← Option.some.inj (hsome.symm.trans hv), h]
  next => simp at h

theorem readText_means {name : String} {t : Bytes} (h : readText root name = .ok t) (hsome : t ≠ []) :
    findMember name root = some (.text t) := by
  unfold readText at h
  split at h
  · exact absurd (Except.ok.inj h).symm hsome
  next c hfind =>
    rw [Except.ok.injEq] at h
    rw [hfind, h]
  next => simp at h

theorem checkMembers_means {names : List String} (h : checkMembers root names = .ok ()) :
    isObject root = true ∧ ∀ m ∈ membersOf root, ∃ name ∈ names, m.1 = ascii name := by
  unfold checkMembers at h
  split_ifs at h with hobject
  split at h
  · simp at h
  next hknown =>
    refine ⟨by simpa using hobject, fun m hm => ?_⟩
    have hone := List.find?_eq_none.mp hknown m hm
    simpa using hone

theorem tryParseEvidenceClass_name (e : EvidenceClass) :
    tryParseEvidenceClass ((ascii e.name).takeWhile (· ≠ 0)) = some e := by
  cases e <;> decide

/-- Only the names of classes are read as what they say. -/
theorem evidence_means : Member root "evidence" (· = .text (ascii (parseEvidence root).name))
      (parseEvidence root = .synthetic) ↔
    ∀ v, findMember "evidence" root = some v → ∃ e : EvidenceClass, v = .text (ascii e.name) := by
  constructor
  · exact fun hmember v hv => ⟨_, hmember.1 v hv⟩
  · intro hnames
    refine ⟨fun v hv => ?_, fun hnone => ?_⟩
    · obtain ⟨e, rfl⟩ := hnames v hv
      have hread : parseEvidence root = e := by
        unfold parseEvidence
        rw [hv]
        simp only [tryParseEvidenceClass_name, Option.getD_some]
      rw [hread]
    · unfold parseEvidence
      rw [hnone]

theorem parseIdentities_ok {a b c : IdTag} {what : String} {first second third : Bytes}
    {ids : StringId a × StringId b × StringId c} (h : parseIdentities what first second third = .ok ids) :
    (ids.1.text = first ∧ first ≠ []) ∧ (ids.2.1.text = second ∧ second ≠ []) ∧
      (ids.2.2.text = third ∧ third ≠ []) := by
  have hid : ∀ {tag : IdTag} {text : Bytes} {id : StringId tag}, StringId.tryParse text = some id →
      id.text = text ∧ text ≠ [] := by
    intro tag text id hparsed
    obtain ⟨htext, hempty⟩ := StringId.tryParse_eq_some hparsed
    refine ⟨htext, ?_⟩
    rintro rfl
    rw [StringId.tryParse_nil] at hparsed
    exact absurd hparsed (by simp)
  unfold parseIdentities at h
  split at h
  next x y z hx hy hz =>
    rw [← Except.ok.inj h]
    exact ⟨hid hx, hid hy, hid hz⟩
  next => simp at h

/-- Nothing in a document is lenient. -/
theorem not_lenient_iff {numbers : List String} : ¬ Lenient numbers root ↔
    (∀ name ∈ numbers, ∀ n, findMember name root = some (.number n) → ∃ w, MeansU64 (.number n) w) ∧
    (∀ v, findMember "evidence" root = some v → ∃ e : EvidenceClass, v = .text (ascii e.name)) ∧
    (∀ v m, findMember "subjects" root = some v → m ∈ membersOf v → ¬ LenientSubject m.2) := by
  constructor
  · intro hno
    refine ⟨fun name hname n hn => ?_, fun v hv => ?_, fun v m hv hm hlenient => hno (.subject hv hm hlenient)⟩
    · by_contra hnone
      exact hno (.number hname hn fun w hw => hnone ⟨w, hw⟩)
    · by_contra hnone
      exact hno (.evidence hv fun e he => hnone ⟨e, he⟩)
  · rintro ⟨hnumbers, hevidence, hsubjects⟩ hlenient
    cases hlenient with
    | number hname h hno =>
      obtain ⟨w, hw⟩ := hnumbers _ hname _ h
      exact hno w hw
    | evidence h hno =>
      obtain ⟨e, he⟩ := hevidence _ h
      exact hno e he
    | subject h hm hlenient => exact hsubjects _ _ h hm hlenient

variable [Double ρ]

theorem readU64_means {name : String} {u : UInt64} (h : readU64 root name 0 = .ok u) :
    Member root name (MeansU64 · u) (u = 0) ↔
      ∀ n, findMember name root = some (.number n) → ∃ w, MeansU64 (.number n) w := by
  constructor
  · exact fun hmember n hn => ⟨u, hmember.1 _ hn⟩
  · intro hnumbers
    unfold readU64 at h
    split at h
    next hnone =>
      exact ⟨fun v hv => absurd (hnone.symm.trans hv) (by simp), fun _ => (Except.ok.inj h).symm⟩
    next n hsome =>
      refine ⟨fun v hv => ?_, fun hnone => absurd (hsome.symm.trans hnone) (by simp)⟩
      obtain ⟨w, n', hn', hw⟩ := hnumbers n hsome
      obtain rfl : n = n' := by simpa using hn'
      rw [asUnsigned_means hw, Except.ok.injEq] at h
      rw [← Option.some.inj (hsome.symm.trans hv), ← h]
      exact ⟨n, rfl, hw⟩
    next => simp at h

theorem state_means {state : SubjectState} (h : parseState limits node = .ok state) :
    MeansState node state ↔ ∀ m ∈ membersOf node, ¬ LenientAttribute m.2 := by
  cases node with
  | null =>
    rw [parseState, Except.ok.injEq] at h
    subst h
    exact ⟨fun _ m hm => absurd hm (by simp [membersOf]), fun _ => .null⟩
  | object members =>
    rw [parseState] at h
    split_ifs at h with hbound
    have hmeans : MeansEntries (fun _ => MeansAttribute) members state ↔ ∀ m ∈ members, ¬ LenientAttribute m.2 :=
      entries_mean (fun _ _ _ => attribute_means) h
    exact ⟨fun hstate => by cases hstate with | object hentries => exact hmeans.mp hentries,
      fun hno => .object (hmeans.mpr hno)⟩
  | _ => simp [parseState] at h

/-- **`subject_means`**: a subject that was read is what it means, unless it is lenient. -/
theorem subject_means {subject : SubjectId} {entry : SubjectEntry}
    (h : parseSubject limits subject node = .ok entry) :
    MeansSubject subject node entry ↔ ¬ LenientSubject node := by
  unfold parseSubject at h
  split_ifs at h with hobject
  obtain ⟨complete, hcomplete, h⟩ := bind_eq_ok.mp h
  have hbool := readBool_means hcomplete
  constructor
  · rintro ⟨-, hknown, -, -, hattributes⟩ hlenient
    cases hlenient with
    | unknown hm hno => exact hno (hknown _ hm)
    | @value attributes m hfind hm hlenient =>
      rw [hfind] at h
      obtain ⟨state, hstate, h⟩ := bind_eq_ok.mp h
      rw [← Except.ok.inj h] at hattributes
      exact (state_means hstate).mp (hattributes.1 _ hfind) m hm hlenient
  · intro hno
    have hknown : ∀ m ∈ membersOf node, m.1 = ascii "complete_attributes" ∨ m.1 = ascii "attributes" := by
      intro m hm
      by_contra hunknown
      exact hno (.unknown hm hunknown)
    have hshape : isObject node = true := by simpa using hobject
    split at h
    next hnone =>
      rw [← Except.ok.inj h]
      exact ⟨hshape, hknown, rfl, hbool, fun v hv => absurd (hnone.symm.trans hv) (by simp), fun _ => rfl⟩
    next attributes hsome =>
      obtain ⟨state, hstate, h⟩ := bind_eq_ok.mp h
      rw [← Except.ok.inj h]
      refine ⟨hshape, hknown, rfl, hbool, fun v hv => ?_, fun hnone => absurd (hsome.symm.trans hnone) (by simp)⟩
      rw [← Option.some.inj (hsome.symm.trans hv)]
      exact (state_means hstate).mpr fun m hm hlenient => hno (.value hsome hm hlenient)

theorem subjects_mean {what : String} {subjects : Subjects} (h : parseSubjects limits what root = .ok subjects) :
    Member root "subjects" (fun v => ∃ members, v = .object members ∧ MeansEntries MeansSubject members subjects)
        (subjects = OrdMap.empty) ↔
      ∀ v m, findMember "subjects" root = some v → m ∈ membersOf v → ¬ LenientSubject m.2 := by
  unfold parseSubjects at h
  split at h
  next hnone =>
    refine ⟨fun _ v m hv => absurd (hnone.symm.trans hv) (by simp), fun _ => ?_⟩
    exact ⟨fun v hv => absurd (hnone.symm.trans hv) (by simp), fun _ => (Except.ok.inj h).symm⟩
  next members hsome =>
    split_ifs at h with hbound
    have hmeans : MeansEntries MeansSubject members subjects ↔ ∀ m ∈ members, ¬ LenientSubject m.2 :=
      entries_mean (fun _ _ _ => subject_means) h
    constructor
    · intro hmember v m hv hm
      obtain ⟨members', rfl, hentries⟩ := hmember.1 v hv
      obtain rfl : members = members' := by simpa using hsome.symm.trans hv
      exact hmeans.mp hentries m hm
    · intro hno
      refine ⟨fun v hv => ⟨members, ?_, hmeans.mpr fun m hm => hno _ m hsome hm⟩,
        fun hnone => absurd (hsome.symm.trans hnone) (by simp)⟩
      exact (Option.some.inj (hsome.symm.trans hv)).symm
  next => simp at h

/-- An intent that was read is what it means, unless it is lenient. -/
theorem intent_means {d : IntentDocument} (h : readIntentJson limits root = .ok d) :
    MeansIntent root d ↔ ¬ Lenient ["generation", "policy_version"] root := by
  obtain ⟨⟨⟩, hmembers, h⟩ := bind_eq_ok.mp h
  obtain ⟨intentText, hintent, h⟩ := bind_eq_ok.mp h
  obtain ⟨scopeText, hscope, h⟩ := bind_eq_ok.mp h
  obtain ⟨definitionText, hdefinition, h⟩ := bind_eq_ok.mp h
  obtain ⟨generation, hgeneration, h⟩ := bind_eq_ok.mp h
  obtain ⟨policyVersion, hpolicyVersion, h⟩ := bind_eq_ok.mp h
  obtain ⟨complete, hcomplete, h⟩ := bind_eq_ok.mp h
  obtain ⟨⟨intent, scope, definition⟩, hids, h⟩ := bind_eq_ok.mp h
  obtain ⟨subjects, hsubjects, h⟩ := bind_eq_ok.mp h
  simp only at h
  split_ifs at h with hvalid
  rw [← Except.ok.inj h]
  obtain ⟨hfirst, hsecond, hthird⟩ := parseIdentities_ok hids
  simp only at hfirst hsecond hthird
  obtain ⟨hobject, hknown⟩ := checkMembers_means hmembers
  rw [not_lenient_iff, ← evidence_means, ← subjects_mean hsubjects, List.forall_mem_cons, List.forall_mem_singleton,
    ← readU64_means hgeneration, ← readU64_means hpolicyVersion]
  constructor
  · intro hmeans
    exact ⟨⟨hmeans.document.generation, hmeans.policyVersion⟩, hmeans.document.evidence, hmeans.document.subjects⟩
  · rintro ⟨⟨hgenerationMeans, hversionMeans⟩, hevidenceMeans, hsubjectsMean⟩
    exact {
      intent := by rw [readText_means hintent hfirst.2, hfirst.1]
      scope := by rw [readText_means hscope hsecond.2, hsecond.1]
      definition := by rw [readText_means hdefinition hthird.2, hthird.1]
      policyVersion := hversionMeans
      document := ⟨hobject, hknown, hgenerationMeans, hevidenceMeans, readBool_means hcomplete, hsubjectsMean⟩
      digest := by simp only [computeIntentDigest, intentContent] }

/-- A submission that was read is what it means, unless it is lenient. -/
theorem submission_means {s : ObservationSubmission} (h : readSubmissionJson limits root = .ok s) :
    MeansSubmission root s ↔ ¬ Lenient ["generation"] root := by
  obtain ⟨⟨⟩, hmembers, h⟩ := bind_eq_ok.mp h
  obtain ⟨observationText, hobservation, h⟩ := bind_eq_ok.mp h
  obtain ⟨scopeText, hscope, h⟩ := bind_eq_ok.mp h
  obtain ⟨reporterText, hreporter, h⟩ := bind_eq_ok.mp h
  obtain ⟨generation, hgeneration, h⟩ := bind_eq_ok.mp h
  obtain ⟨complete, hcomplete, h⟩ := bind_eq_ok.mp h
  obtain ⟨absence, habsence, h⟩ := bind_eq_ok.mp h
  obtain ⟨⟨observation, scope, reporter⟩, hids, h⟩ := bind_eq_ok.mp h
  obtain ⟨subjects, hsubjects, h⟩ := bind_eq_ok.mp h
  simp only at h
  split_ifs at h with hvalid
  rw [← Except.ok.inj h]
  obtain ⟨hfirst, hsecond, hthird⟩ := parseIdentities_ok hids
  simp only at hfirst hsecond hthird
  obtain ⟨hobject, hknown⟩ := checkMembers_means hmembers
  rw [not_lenient_iff, ← evidence_means, ← subjects_mean hsubjects, List.forall_mem_singleton,
    ← readU64_means hgeneration]
  constructor
  · intro hmeans
    exact ⟨hmeans.document.generation, hmeans.document.evidence, hmeans.document.subjects⟩
  · rintro ⟨hgenerationMeans, hevidenceMeans, hsubjectsMean⟩
    exact {
      observation := by rw [readText_means hobservation hfirst.2, hfirst.1]
      scope := by rw [readText_means hscope hsecond.2, hsecond.1]
      reporter := by rw [readText_means hreporter hthird.2, hthird.1]
      absence := readBool_means habsence
      document := ⟨hobject, hknown, hgenerationMeans, hevidenceMeans, readBool_means hcomplete, hsubjectsMean⟩ }

end Documents

/-! ## What was accepted -/

/-- A failure is no OK status. -/
def Fails {α : Type} (x : Except Status α) : Prop := ∀ status, x = .error status → status.code ≠ .ok

theorem fails_ok {α : Type} (a : α) : Fails (.ok a : Except Status α) := by
  intro status h
  simp at h

theorem fails_error {α : Type} {status : Status} (h : status.code ≠ .ok) :
    Fails (.error status : Except Status α) := by
  intro other hother
  rw [← Except.error.inj hother]
  exact h

theorem Fails.bind {α β : Type} {x : Except Status α} {f : α → Except Status β} (hx : Fails x)
    (hf : ∀ a, Fails (f a)) : Fails (x >>= f) := by
  cases x with
  | error status => exact fails_error (hx status rfl)
  | ok a => exact hf a

theorem fails_document {α : Type} (what : String) : Fails (.error (rejectDocument what) : Except Status α) :=
  fails_error (by simp [rejectDocument])

section Refusals

variable {ρ : Type} (limits : RuntimeLimits) (root : Value ρ)

theorem fails_checkMembers (names : List String) : Fails (checkMembers root names) := by
  unfold checkMembers
  split
  · exact fails_document _
  split
  · exact fails_error (by simp)
  · exact fails_ok _

theorem fails_readBool (name : String) (out : Bool) : Fails (readBool root name out) := by
  unfold readBool
  split
  · exact fails_ok _
  · exact fails_ok _
  · exact fails_document _

theorem fails_readText (name : String) : Fails (readText root name) := by
  unfold readText
  split
  · exact fails_ok _
  · exact fails_ok _
  · exact fails_document _

theorem fails_parseIdentities {a b c : IdTag} (what : String) (first second third : Bytes) :
    Fails (parseIdentities what first second third : Except Status (StringId a × StringId b × StringId c)) := by
  unfold parseIdentities
  split
  · exact fails_ok _
  · exact fails_document _

theorem fails_parseEntries {tag : IdTag} {α : Type} {value : StringId tag → Value ρ → Except Status α}
    (hvalue : ∀ key v, Fails (value key v)) (invalid duplicate : String) (members : List (Bytes × Value ρ))
    (m : OrdMap (StringId tag) α) : Fails (parseEntries invalid duplicate value members m) := by
  induction members generalizing m with
  | nil => exact fails_ok _
  | cons member rest ih =>
    unfold parseEntries
    split
    · exact fails_document _
    · refine (hvalue _ _).bind fun a => ?_
      split
      · exact fails_document _
      · exact ih _

variable [Double ρ]

theorem fails_readU64 (name : String) (out : UInt64) : Fails (readU64 root name out) := by
  unfold readU64
  split
  · exact fails_ok _
  · exact fails_ok _
  · exact fails_document _

theorem fails_parseAttribute (node : Value ρ) : Fails (parseAttribute node) := by
  unfold parseAttribute
  split
  · exact fails_document _
  split
  · exact fails_document _
  split
  · exact fails_document _
  · exact fails_ok _

theorem fails_parseState (node : Value ρ) : Fails (parseState limits node) := by
  unfold parseState
  split
  · exact fails_ok _
  · split
    · exact fails_error (by simp)
    · exact fails_parseEntries (fun _ v => fails_parseAttribute v) _ _ _ _
  · exact fails_document _

theorem fails_parseSubject (subject : SubjectId) (node : Value ρ) : Fails (parseSubject limits subject node) := by
  unfold parseSubject
  split
  · exact fails_document _
  · refine (fails_readBool _ _ _).bind fun complete => ?_
    split
    · exact fails_ok _
    · exact (fails_parseState _ _).bind fun state => fails_ok _

theorem fails_parseSubjects (what : String) : Fails (parseSubjects limits what root) := by
  unfold parseSubjects
  split
  · exact fails_ok _
  · split
    · exact fails_error (by simp)
    · exact fails_parseEntries (fails_parseSubject limits) _ _ _ _
  · exact fails_document _

theorem fails_readIntentJson : Fails (readIntentJson limits root) := by
  refine (fails_checkMembers _ _).bind fun _ => ?_
  refine (fails_readText _ _).bind fun _ => ?_
  refine (fails_readText _ _).bind fun _ => ?_
  refine (fails_readText _ _).bind fun _ => ?_
  refine (fails_readU64 _ _ _).bind fun _ => ?_
  refine (fails_readU64 _ _ _).bind fun _ => ?_
  refine (fails_readBool _ _ _).bind fun _ => ?_
  refine (fails_parseIdentities _ _ _ _).bind fun _ => ?_
  refine (fails_parseSubjects _ _ _).bind fun _ => ?_
  simp only
  split
  · exact fails_ok _
  · next hvalid => exact fails_error hvalid

theorem fails_readSubmissionJson : Fails (readSubmissionJson limits root) := by
  refine (fails_checkMembers _ _).bind fun _ => ?_
  refine (fails_readText _ _).bind fun _ => ?_
  refine (fails_readText _ _).bind fun _ => ?_
  refine (fails_readText _ _).bind fun _ => ?_
  refine (fails_readU64 _ _ _).bind fun _ => ?_
  refine (fails_readBool _ _ _).bind fun _ => ?_
  refine (fails_readBool _ _ _).bind fun _ => ?_
  refine (fails_parseIdentities _ _ _ _).bind fun _ => ?_
  refine (fails_parseSubjects _ _ _).bind fun _ => ?_
  simp only
  split
  · exact fails_ok _
  · next hvalid => exact fails_error hvalid

/-- A document is read from what its text denotes. -/
theorem parseDocument_of {α : Type} {read : Value ρ → Except Status α} {text : Bytes} {root : Value ρ}
    (h : Language {} text root) (out : α) :
    (∀ d, read root = .ok d → parseDocument read text out = (Status.ok, d)) ∧
    (∀ status, read root = .error status → parseDocument read text out = (status, out)) := by
  have hparsed : parse {} text .null = (Status.ok, root) := parse_ok.mpr h
  unfold parseDocument
  rw [hparsed]
  refine ⟨fun d hd => ?_, fun status hstatus => ?_⟩
  · simp [Status.ok, hd]
  · simp [Status.ok, hstatus]

/-- A document was accepted when it was read from the value of its text. -/
theorem parseDocument_ok {α : Type} {read : Value ρ → Except Status α} (hread : ∀ v, Fails (read v)) {text : Bytes}
    {out d : α} (h : parseDocument read text out = (Status.ok, d)) :
    ∃ root : Value ρ, Language {} text root ∧ read root = .ok d := by
  unfold parseDocument at h
  obtain ⟨hcode, hvalue, -⟩ := parse_exact {} text (.null : Value ρ)
  by_cases hlanguage : ∃ v : Value ρ, Language {} text v
  · obtain ⟨v, hv⟩ := hlanguage
    rw [hvalue v hv] at h
    simp only [Status.ok, ne_eq, not_true, if_false] at h
    cases hresult : read v with
    | error status =>
      rw [hresult] at h
      simp only [Prod.mk.injEq] at h
      exact absurd (by rw [h.1]) (hread v status hresult)
    | ok document =>
      rw [hresult, Prod.mk.injEq] at h
      exact ⟨v, hv, by rw [hresult, h.2]⟩
  · have hno : (parse {} text (.null : Value ρ)).1.code ≠ .ok := fun hok => hlanguage (hcode.mp hok)
    simp only [if_pos hno, Prod.mk.injEq] at h
    exact absurd (by rw [h.1, Status.ok]) hno

end Refusals

/-- **`documents_strict`**: a document that was accepted is what the value of its text means just when nothing in
that value is lenient. -/
theorem documents_strict {ρ : Type} [Double ρ] (limits : RuntimeLimits) (text : Bytes) :
    (∀ out d, parseJsonIntent ρ limits text out = (Status.ok, d) → ∃ root : Value ρ, Language {} text root ∧
      (MeansIntent root d ↔ ¬ Lenient ["generation", "policy_version"] root)) ∧
    (∀ out s, parseJsonSubmission ρ limits text out = (Status.ok, s) → ∃ root : Value ρ, Language {} text root ∧
      (MeansSubmission root s ↔ ¬ Lenient ["generation"] root)) := by
  constructor
  · intro out d h
    obtain ⟨root, hroot, hread⟩ := parseDocument_ok (fun v => fails_readIntentJson limits v) h
    exact ⟨root, hroot, intent_means hread⟩
  · intro out s h
    obtain ⟨root, hroot, hread⟩ := parseDocument_ok (fun v => fails_readSubmissionJson limits v) h
    exact ⟨root, hroot, submission_means hread⟩

def noIntent : IntentDocument where
  intent := .none
  scope := .none
  definition := .none
  generation := 0
  policyVersion := 0
  evidence := .unknown
  complete := false
  subjects := OrdMap.empty
  digest := FixedBytes.zero

def plainText : Bytes :=
  ascii "\x7b\"intent\":\"i\",\"scope\":\"s\",\"definition\":\"d\",\"generation\":7\x7d"

def plainValue : Value Unit :=
  .object [(ascii "intent", .text (ascii "i")), (ascii "scope", .text (ascii "s")),
    (ascii "definition", .text (ascii "d")), (ascii "generation", .number (.integer 7))]

theorem plain_language : Language {} plainText plainValue := by
  have htext : dumpValue 0 false 0 plainValue = plainText := by decide
  have hplain : plainValue.Numbers Plain := by
    simp only [plainValue, Node.numbers_object, List.forall_mem_cons]
    exact ⟨trivial, trivial, trivial, trivial, by simp⟩
  have hdistinct : plainValue.Distinct := by
    simp only [plainValue, Node.distinct_object, List.forall_mem_cons]
    exact ⟨by decide, trivial, trivial, trivial, trivial, by simp⟩
  rw [← htext]
  apply dumped_language
  · decide
  · exact hplain
  · decide
  · decide
  · exact Node.within_of_sized (by decide) hdistinct
  · decide

theorem plain_accepted : ∃ d, readIntentJson {} plainValue = .ok d := by
  have haccepted : (readIntentJson {} plainValue).toOption.isSome = true := by decide
  obtain ⟨d, hd⟩ := Option.isSome_iff_exists.mp haccepted
  exact ⟨d, eq_ok_of_toOption hd⟩

theorem plain_read : ∃ d, parseJsonIntent Unit {} plainText noIntent = (Status.ok, d) ∧
    ∃ root : Value Unit, Language {} plainText root ∧ MeansIntent root d := by
  obtain ⟨d, hread⟩ := plain_accepted
  have hparsed : parseJsonIntent Unit {} plainText noIntent = (Status.ok, d) :=
    (parseDocument_of plain_language noIntent).1 d hread
  obtain ⟨root, hroot, hmeans⟩ := (documents_strict {} plainText).1 noIntent d hparsed
  have hsame : root = plainValue := hroot.unique plain_language
  refine ⟨d, hparsed, root, hroot, hmeans.mpr ?_⟩
  have hmissing : findMember "policy_version" plainValue = none ∧ findMember "evidence" plainValue = none ∧
      findMember "subjects" plainValue = none := ⟨rfl, rfl, rfl⟩
  have hgeneration : findMember "generation" plainValue = some (.number (.integer 7)) := rfl
  rw [hsame, not_lenient_iff, hmissing.2.1, hmissing.2.2, List.forall_mem_cons, List.forall_mem_singleton, hmissing.1,
    hgeneration]
  refine ⟨⟨fun n hn => ?_, by simp⟩, by simp, by simp⟩
  obtain rfl : .integer 7 = n := by simpa using hn
  exact ⟨7, .integer 7, rfl, rfl⟩

/-- A number in quotes where `i64` has a number. -/
def quotedText : Bytes :=
  ascii ("\x7b\"intent\":\"i\",\"scope\":\"s\",\"definition\":\"d\"," ++
    "\"subjects\":\x7b\"a\":\x7b\"attributes\":\x7b\"k\":\x7b\"i64\":\"7\"\x7d\x7d\x7d\x7d\x7d")

def quotedValue : Value Unit :=
  .object [(ascii "intent", .text (ascii "i")), (ascii "scope", .text (ascii "s")),
    (ascii "definition", .text (ascii "d")), (ascii "subjects", .object [(ascii "a", .object [(ascii "attributes",
      .object [(ascii "k", .object [(ascii "i64", .text (ascii "7"))])])])])]

theorem quoted_language : Language {} quotedText quotedValue := by
  have htext : dumpValue 0 false 0 quotedValue = quotedText := by decide
  have hplain : quotedValue.Numbers Plain := by
    simp only [quotedValue, Node.numbers_object, List.forall_mem_cons, List.not_mem_nil, false_implies, implies_true, and_true]
    exact ⟨trivial, trivial, trivial, trivial⟩
  have hdistinct : quotedValue.Distinct := by
    simp only [quotedValue, Node.distinct_object, List.forall_mem_cons, List.not_mem_nil, false_implies, implies_true,
      and_true]
    exact ⟨by decide, trivial, trivial, trivial, by decide, by decide, by decide, by decide, trivial⟩
  rw [← htext]
  apply dumped_language
  · decide
  · exact hplain
  · decide
  · decide
  · exact Node.within_of_sized (by decide) hdistinct
  · decide

/-- The text in `i64` falls back to zero. -/
theorem quoted_accepted : ∃ d, readIntentJson {} quotedValue = .ok d ∧
    (d.subjects.values.map fun e => e.state.values) = [[.integer 0]] := by
  have haccepted : (readIntentJson {} quotedValue).toOption.map (fun d => d.subjects.values.map fun e => e.state.values) =
      some [[.integer 0]] := by decide
  obtain ⟨d, hd, hvalues⟩ := Option.map_eq_some_iff.mp haccepted
  exact ⟨d, eq_ok_of_toOption hd, hvalues⟩

theorem quoted_lenient : Lenient ["generation", "policy_version"] quotedValue := by
  have hsubjects : findMember "subjects" quotedValue = some (.object [(ascii "a", .object [(ascii "attributes",
      .object [(ascii "k", .object [(ascii "i64", .text (ascii "7"))])])])]) := rfl
  have hattributes : findMember "attributes" (.object [(ascii "attributes", .object [(ascii "k",
      .object [(ascii "i64", .text (ascii "7"))])])] : Value Unit) =
      some (.object [(ascii "k", .object [(ascii "i64", .text (ascii "7"))])]) :=
    findMember_single_some.mpr ⟨rfl, rfl⟩
  refine .subject hsubjects (List.mem_singleton.mpr rfl) (.value hattributes (List.mem_singleton.mpr rfl) ?_)
  refine .integer (findMember_single_some.mpr ⟨rfl, rfl⟩) ?_
  rintro i ⟨n, hn, -⟩
  exact absurd hn (by simp)

/-- A number in quotes is accepted and read as zero. -/
theorem quoted_number_read : ∃ d, parseJsonIntent Unit {} quotedText noIntent = (Status.ok, d) ∧
    (d.subjects.values.map fun e => e.state.values) = [[.integer 0]] ∧
    ∀ root : Value Unit, Language {} quotedText root → ¬ MeansIntent root d := by
  obtain ⟨d, hread, hvalues⟩ := quoted_accepted
  have hparsed : parseJsonIntent Unit {} quotedText noIntent = (Status.ok, d) :=
    (parseDocument_of quoted_language noIntent).1 d hread
  refine ⟨d, hparsed, hvalues, fun root hroot hmeans => ?_⟩
  rw [hroot.unique quoted_language] at hmeans
  exact (intent_means hread).mp hmeans quoted_lenient

end FabricReconciliation
