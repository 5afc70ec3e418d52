import FabricReconciliation.Keys

/-!
# Publishers that agree (`drift.cpp:314-343`, `document.cpp:89-108`)

`SelectCurrentObservation` compares the latest observations by their digests, and the digest of an
observation binds who sent it, under which name and when it came.

* **`observationImage_front`** — whatever becomes of the subjects, the digest covers the receipt;
* **`agreement_iff`** — reports that agree are no conflict exactly when they share their receipt as well;
* **`agreed_conflict`** — two reporters that see the same leave the scope without an observation.
-/

namespace FabricReconciliation

open Lib

section Selection

variable {candidates : List (Option ObservationDocument)} {scope : ScopeId} {x y : ObservationDocument}

/-- The document is a candidate of the highest generation. -/
structure Topmost (candidates : List (Option ObservationDocument)) (d : ObservationDocument) : Prop where
  candidate : some d ∈ candidates
  highest : ∀ x, some x ∈ candidates → x.generation ≤ d.generation

/-- What was observed is the same. -/
structure SameContent (x y : ObservationDocument) : Prop where
  evidence : x.evidence = y.evidence
  complete : x.complete = y.complete
  authoritativeAbsence : x.authoritativeAbsence = y.authoritativeAbsence
  subjects : x.subjects = y.subjects

/-- Who observed it and when it came is the same. -/
structure SameReceipt (x y : ObservationDocument) : Prop where
  observation : x.observation = y.observation
  reporter : x.reporter = y.reporter
  receivedEpoch : x.receivedEpoch = y.receivedEpoch
  receivedUnixMs : x.receivedUnixMs = y.receivedUnixMs

theorem Topmost.generation (hx : Topmost candidates x) (hy : Topmost candidates y) : x.generation = y.generation :=
  le_antisymm (hy.highest x hx.candidate) (hx.highest y hy.candidate)

/-- The fields in front of the subjects. -/
def receiptScript (d : ObservationDocument) : Script :=
  putU16 kCanonicalSchemaVersion ++ (putBytes d.observation.text ++ (putBytes d.scope.text ++
  (putBytes d.reporter.text ++ (putU64 d.generation ++ (putEnum d.evidence ++ (putBool d.complete ++
  (putBool d.authoritativeAbsence ++ (putU64 d.receivedEpoch ++ putI64 d.receivedUnixMs))))))))

/-- The hashed bytes begin with the receipt, however large the document is. -/
theorem observationImage_front (d : ObservationDocument) :
    ∃ rest, observationImage d = (receiptScript d).image ++ rest := by
  have htotal : (receiptScript d).Total := by simp [receiptScript]
  have hlength : (receiptScript d).image.length ≤ kMaxCanonicalBytes := by
    have h₁ := length_putId d.observation
    have h₂ := length_putId d.scope
    have h₃ := length_putId d.reporter
    simp only [receiptScript, Script.image_append, List.length_append]
    simp only [putU16, putU64, putI64, putEnum, putBool, putByte, image_putLE, Script.image_push, Script.image_nil,
      List.append_nil, List.length_singleton, length_leBytes, kMaxCanonicalBytes]
    omega
  refine ⟨(fill (kMaxCanonicalBytes - (receiptScript d).image.length) (encodeSubjects d.subjects)).1, ?_⟩
  have hscript : putU16 kCanonicalSchemaVersion ++ observationContent d = receiptScript d ++ encodeSubjects d.subjects := by
    simp [receiptScript, observationContent]
  rw [observationImage, hscript, fill_append _ htotal hlength]

/-- Documents with the same hashed bytes have the same receipt. -/
theorem sameReceipt_of_image (h : observationImage x = observationImage y) : SameReceipt x y := by
  obtain ⟨restx, hx⟩ := observationImage_front x
  obtain ⟨resty, hy⟩ := observationImage_front y
  rw [hx, hy] at h
  simp only [receiptScript, Script.image_append, List.append_assoc] at h
  obtain ⟨-, h⟩ := Reads.split (reads_u16 (by decide)) (reads_u16 (by decide)) h
  obtain ⟨hobservation, h⟩ := Reads.split (reads_text x.observation) (reads_text y.observation) h
  obtain ⟨-, h⟩ := Reads.split (reads_text x.scope) (reads_text y.scope) h
  obtain ⟨hreporter, h⟩ := Reads.split (reads_text x.reporter) (reads_text y.reporter) h
  obtain ⟨-, h⟩ := Reads.split (reads_u64 _) (reads_u64 _) h
  obtain ⟨-, h⟩ := Reads.split (reads_enum x.evidence (by decide)) (reads_enum y.evidence (by decide)) h
  obtain ⟨-, h⟩ := Reads.split (reads_bool _) (reads_bool _) h
  obtain ⟨-, h⟩ := Reads.split (reads_bool _) (reads_bool _) h
  obtain ⟨hepoch, h⟩ := Reads.split (reads_u64 _) (reads_u64 _) h
  obtain ⟨hreceived, -⟩ := Reads.split (reads_i64 _) (reads_i64 _) h
  exact ⟨StringId.ext hobservation, StringId.ext hreporter, hepoch, hreceived⟩

/-- Documents of one scope and generation with the same content and receipt have the same hashed bytes. -/
theorem observationImage_eq (hscope : x.scope = y.scope) (hgeneration : x.generation = y.generation)
    (hcontent : SameContent x y) (hreceipt : SameReceipt x y) : observationImage x = observationImage y := by
  unfold observationImage observationContent
  rw [hscope, hgeneration, hcontent.evidence, hcontent.complete, hcontent.authoritativeAbsence, hcontent.subjects,
    hreceipt.observation, hreceipt.reporter, hreceipt.receivedEpoch, hreceipt.receivedUnixMs]

/-- Reports of the highest generation that agree are one selected observation; a conflict is a disagreement. -/
structure AgreementKept (candidates : List (Option ObservationDocument)) : Prop where
  selected : (∀ x y, Topmost candidates x → Topmost candidates y → SameContent x y) →
    ∃ d, Topmost candidates d ∧ selectCurrentObservation candidates = ⟨some d, false, .none⟩
  conflict : (selectCurrentObservation candidates).conflicted = true →
    ∃ x y, Topmost candidates x ∧ Topmost candidates y ∧ ¬SameContent x y

/-- **`agreement_iff`**: that is kept exactly when the latest reports disagree somewhere, or all of them came from one
reporter under one name and stamp (or SHA-256 collides on two of them). -/
theorem agreement_iff (hscope : ∀ d, some d ∈ candidates → d.scope = scope)
    (hdigest : ∀ d, some d ∈ candidates → d.digest = computeObservationDigest d) (hsome : ∃ d, some d ∈ candidates) :
    AgreementKept candidates ↔ (∃ x y, Topmost candidates x ∧ Topmost candidates y ∧ ¬SameContent x y) ∨
      ∀ x y, Topmost candidates x → Topmost candidates y →
        SameReceipt x y ∨ Collides (observationImage x) (observationImage y) := by
  have hhash : ∀ x y, Topmost candidates x → Topmost candidates y →
      (x.digest = y.digest ↔ observationImage x = observationImage y ∨ Collides (observationImage x) (observationImage y)) := by
    intro x y hx hy
    rw [hdigest x hx.candidate, hdigest y hy.candidate]
    exact sha256Of_eq_iff
  by_cases hagree : ∀ x y, Topmost candidates x → Topmost candidates y → SameContent x y
  · have hnone : ¬∃ x y, Topmost candidates x ∧ Topmost candidates y ∧ ¬SameContent x y := by
      rintro ⟨x, y, hx, hy, hnot⟩
      exact hnot (hagree x y hx hy)
    simp only [hnone, false_or]
    rcases selectCurrent_cases ObservationDocument.digest .noObservationForScope candidates
      (fun a b => (observationKeyLess_generation a b).1) (fun a b => (observationKeyLess_generation a b).2) with
      ⟨hempty, -⟩ | ⟨current, hcurrent, htop, hrest⟩
    · obtain ⟨d, hd⟩ := hsome
      exact absurd hd (hempty d)
    have hlatest : Topmost candidates current := ⟨hcurrent, htop⟩
    have hof : ∀ x, some x ∈ candidates → x.generation = current.generation → Topmost candidates x := by
      intro x hx hgeneration
      exact ⟨hx, fun z hz => hgeneration ▸ htop z hz⟩
    rcases hrest with ⟨⟨x, hx, hgeneration, hdiffers⟩, hselection⟩ | ⟨hsame, hselection⟩
    · have hconflict : ¬AgreementKept candidates := by
        intro hkept
        refine hnone (hkept.conflict ?_)
        unfold selectCurrentObservation
        rw [hselection]
      refine ⟨fun hkept => absurd hkept hconflict, fun hreceipts => ?_⟩
      have hxlatest := hof x hx hgeneration
      refine absurd ((hhash x current hxlatest hlatest).mpr ?_) hdiffers
      rcases hreceipts x current hxlatest hlatest with hreceipt | hcollides
      · exact .inl (observationImage_eq ((hscope x hx).trans (hscope current hcurrent).symm) hgeneration
          (hagree x current hxlatest hlatest) hreceipt)
      · exact .inr hcollides
    · have hselected : selectCurrentObservation candidates = ⟨some current, false, .none⟩ := hselection
      have hkept : AgreementKept candidates := by
        refine ⟨fun _ => ⟨current, hlatest, hselected⟩, fun hconflicted => ?_⟩
        rw [hselected] at hconflicted
        simp at hconflicted
      refine ⟨fun _ x y hx hy => ?_, fun _ => hkept⟩
      have heq : x.digest = y.digest := (hsame x hx.candidate (hx.generation hlatest)).trans
        (hsame y hy.candidate (hy.generation hlatest)).symm
      rcases (hhash x y hx hy).mp heq with himage | hcollides
      · exact .inl (sameReceipt_of_image himage)
      · exact .inr hcollides
  · have hdisagree : ∃ x y, Topmost candidates x ∧ Topmost candidates y ∧ ¬SameContent x y := by
      push Not at hagree
      obtain ⟨x, y, hx, hy, hnot⟩ := hagree
      exact ⟨x, y, hx, hy, hnot⟩
    exact ⟨fun _ => .inl hdisagree, fun _ => ⟨fun h => absurd h hagree, fun _ => hdisagree⟩⟩

end Selection

/-- What one reporter and what another one has seen. -/
def sampleSeen : ObservationDocument := (sampleReport 1).document 1 1

def sampleSeenToo : ObservationDocument := { sampleReport 1 with reporter := secondReport.reporter }.document 1 1

theorem document_digest (submission : ObservationSubmission) (epoch : CoordinatorEpoch) (received : UnixMillis) :
    (submission.document epoch received).digest = computeObservationDigest (submission.document epoch received) := by
  simp only [ObservationSubmission.document, computeObservationDigest, observationContent]

/-- The same report twice, with nothing in between, is selected. -/
theorem agreement_iff_repeated : ∃ d, Topmost [some sampleSeen, none, some sampleSeen] d ∧
    selectCurrentObservation [some sampleSeen, none, some sampleSeen] = ⟨some d, false, .none⟩ := by
  have hall : ∀ d, some d ∈ [some sampleSeen, none, some sampleSeen] → d = sampleSeen := by
    intro d hd
    simpa using hd
  have hkept := (@agreement_iff _ sampleSeen.scope (fun d hd => by rw [hall d hd]) 
    (fun d hd => by rw [hall d hd]; exact document_digest _ _ _)
    ⟨sampleSeen, by simp⟩).mpr (.inr fun x y hx hy => by
      rw [hall x hx.candidate, hall y hy.candidate]
      exact .inl ⟨rfl, rfl, rfl, rfl⟩)
  refine hkept.selected fun x y hx hy => ?_
  rw [hall x hx.candidate, hall y hy.candidate]
  exact ⟨rfl, rfl, rfl, rfl⟩

/-- **`agreed_conflict`**: two reporters see the same at the same moment, and no observation is selected. -/
theorem agreed_conflict :
    (∀ d, some d ∈ [some sampleSeen, some sampleSeenToo] → d.scope = sampleScope ∧ d.digest = computeObservationDigest d) ∧
      (∀ x y, Topmost [some sampleSeen, some sampleSeenToo] x → Topmost [some sampleSeen, some sampleSeenToo] y →
        SameContent x y) ∧
      (selectCurrentObservation [some sampleSeen, some sampleSeenToo]).conflicted = true ∧
      (selectCurrentObservation [some sampleSeen, some sampleSeenToo]).selected.isNone = true := by
  have hcases : ∀ d, some d ∈ [some sampleSeen, some sampleSeenToo] → d = sampleSeen ∨ d = sampleSeenToo := by
    intro d hd
    simpa using hd
  refine ⟨?_, ?_, by decide +kernel⟩
  · intro d hd
    rcases hcases d hd with rfl | rfl
    · exact ⟨rfl, document_digest _ _ _⟩
    · exact ⟨rfl, document_digest _ _ _⟩
  · intro x y hx hy
    rcases hcases x hx.candidate with rfl | rfl
    · rcases hcases y hy.candidate with rfl | rfl <;> exact ⟨rfl, rfl, rfl, rfl⟩
    · rcases hcases y hy.candidate with rfl | rfl <;> exact ⟨rfl, rfl, rfl, rfl⟩

end FabricReconciliation
