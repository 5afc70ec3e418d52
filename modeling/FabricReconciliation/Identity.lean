import FabricReconciliation.Hash
import FabricReconciliation.Lib.OrdMap

/-!
# Typed identities and incarnations (`identity.hpp`, `identity.cpp`)

`StringId tag` is the tagged textual identity. Its only constructors in the source are the
default one (empty text) and `TryParse`, so the text is empty or has passed
`IsValidIdentityText`; the field `valid` says exactly that. The tag keeps the ten identity
types apart.

The tagged counters (`IntentGeneration`, `CoordinatorEpoch`, …) are 64-bit words here.
-/

namespace FabricReconciliation

open Lib

/-- `kMaxIdentityLength`. -/
abbrev kMaxIdentityLength : Nat := 200

/-- `IsAlphaNumeric` (`identity.cpp:23`). -/
def isAlphaNumeric (c : UInt8) : Bool :=
  (0x61 ≤ c && c ≤ 0x7a) || (0x41 ≤ c && c ≤ 0x5a) || (0x30 ≤ c && c ≤ 0x39)

/-- `IsSeparator`: one of `.`, `_`, `-`, `/` and `:`. -/
def isSeparator (c : UInt8) : Bool :=
  c == 0x2e || c == 0x5f || c == 0x2d || c == 0x2f || c == 0x3a

/-- The character loop of `IsValidIdentityText`. -/
def validCharacters : UInt8 → Bytes → Bool
  | _, [] => true
  | previous, c :: rest =>
    if c == 0 || c == 0x5c then false
    else if c < 0x20 || c == 0x7f then false
    else if !isSeparator c && !isAlphaNumeric c then false
    else if isSeparator c && isSeparator previous then false
    else validCharacters c rest

/-- The maximal pieces between the `/` of a text. -/
def pathComponents : Bytes → List Bytes
  | [] => [[]]
  | c :: rest =>
    if c == 0x2f then [] :: pathComponents rest
    else match pathComponents rest with
      | [] => [[c]]
      | piece :: pieces => (c :: piece) :: pieces

def isTraversal (piece : Bytes) : Bool := piece == [0x2e] || piece == [0x2e, 0x2e]

/-- `IsValidIdentityText` (`identity.cpp:73`). -/
def isValidIdentityText (text : Bytes) : Bool :=
  if text.isEmpty || kMaxIdentityLength < text.length then false
  else if text.head? == some 0x2f || text.head? == some 0x2e ||
      text.getLast? == some 0x2f || text.getLast? == some 0x2e then false
  else if !validCharacters 0 text then false
  else !(pathComponents text).any isTraversal

/-- Which of the identity types a `StringId` is. -/
inductive IdTag
  | scope | subject | attribute | reporter | policy | definition | observation | intent | fence
deriving DecidableEq

/-- `StringId<Tag>`: validated text, or the empty default. -/
structure StringId (tag : IdTag) where
  text : Bytes
  valid : text = [] ∨ isValidIdentityText text = true
deriving DecidableEq

abbrev ScopeId := StringId .scope
abbrev SubjectId := StringId .subject
abbrev AttributeKey := StringId .attribute
abbrev ReporterId := StringId .reporter
abbrev PolicyId := StringId .policy
abbrev DefinitionId := StringId .definition
abbrev ObservationId := StringId .observation
abbrev IntentId := StringId .intent
abbrev FenceId := StringId .fence

/-! Texts of the samples. -/

theorem valid_empty : ([] : Bytes) = [] ∨ isValidIdentityText [] = true := .inl rfl
theorem valid_a : ([0x61] : Bytes) = [] ∨ isValidIdentityText [0x61] = true := .inr rfl
theorem valid_d : ([0x64] : Bytes) = [] ∨ isValidIdentityText [0x64] = true := .inr rfl
theorem valid_i : ([0x69] : Bytes) = [] ∨ isValidIdentityText [0x69] = true := .inr rfl
theorem valid_k : ([0x6b] : Bytes) = [] ∨ isValidIdentityText [0x6b] = true := .inr rfl
theorem valid_o : ([0x6f] : Bytes) = [] ∨ isValidIdentityText [0x6f] = true := .inr rfl
theorem valid_q : ([0x71] : Bytes) = [] ∨ isValidIdentityText [0x71] = true := .inr rfl
theorem valid_r : ([0x72] : Bytes) = [] ∨ isValidIdentityText [0x72] = true := .inr rfl
theorem valid_s : ([0x73] : Bytes) = [] ∨ isValidIdentityText [0x73] = true := .inr rfl

namespace StringId

variable {tag : IdTag}

@[ext] theorem ext {a b : StringId tag} (h : a.text = b.text) : a = b := by
  cases a; cases b; simp_all

/-- The default-constructed identity. -/
def none : StringId tag := ⟨[], .inl rfl⟩

instance : Inhabited (StringId tag) := ⟨none⟩

/-- `empty()`. -/
def empty (id : StringId tag) : Bool := id.text.isEmpty

/-- `StringId::TryParse`. -/
def tryParse (text : Bytes) : Option (StringId tag) :=
  if h : isValidIdentityText text = true then some ⟨text, .inr h⟩ else .none

/-- Identities are ordered by their bytes (`operator<=>` on `std::string`). -/
instance : LinearOrder (StringId tag) where
  le a b := a.text ≤ b.text
  lt a b := a.text < b.text
  le_refl a := le_refl a.text
  le_trans _ _ _ := le_trans
  le_antisymm _ _ h₁ h₂ := ext (le_antisymm h₁ h₂)
  le_total a b := le_total a.text b.text
  lt_iff_le_not_ge a b := lt_iff_le_not_ge
  toDecidableLE := fun a b => inferInstanceAs (Decidable (a.text ≤ b.text))
  toDecidableEq := inferInstance
  toDecidableLT := fun a b => inferInstanceAs (Decidable (a.text < b.text))

theorem empty_iff {id : StringId tag} : id.empty = true ↔ id = none := by
  simp [empty, none, StringId.ext_iff]

theorem text_length (id : StringId tag) : id.text.length ≤ 200 := by
  rcases id.valid with h | h
  · simp [h]
  · unfold isValidIdentityText at h
    split at h
    · simp at h
    · rename_i hn
      simp only [Bool.or_eq_true, not_or, Bool.not_eq_true, decide_eq_false_iff_not, Nat.not_lt] at hn
      exact hn.2

theorem tryParse_nil : (tryParse [] : Option (StringId tag)) = .none := rfl

theorem tryParse_text {id : StringId tag} (h : id.empty = false) : tryParse id.text = some id := by
  have hv : isValidIdentityText id.text = true := by
    rcases id.valid with hv | hv
    · simp [empty, hv] at h
    · exact hv
  simp [tryParse, hv]

theorem tryParse_eq_some {text : Bytes} {id : StringId tag} (h : tryParse text = some id) :
    id.text = text ∧ id.empty = false := by
  unfold tryParse at h
  split at h
  · rename_i hv
    simp only [Option.some.injEq] at h
    subst h
    refine ⟨rfl, ?_⟩
    by_contra hne
    have : text = [] := by simpa [empty] using hne
    subst this
    simp [isValidIdentityText] at hv
  · simp at h

/-- The optional identity text of a record: empty stays the default, anything else must
parse. -/
def parseOrEmpty (text : Bytes) : Option (StringId tag) :=
  if text.isEmpty then some none else tryParse text

theorem parseOrEmpty_text (id : StringId tag) : parseOrEmpty id.text = some id := by
  unfold parseOrEmpty
  split
  · rename_i h
    exact congrArg some (empty_iff.mp h).symm
  · rename_i h
    exact tryParse_text (by simpa [empty] using h)

end StringId

/-! ## Counters and incarnation identities -/

abbrev IntentGeneration := UInt64
abbrev ObservationGeneration := UInt64
abbrev CoordinatorEpoch := UInt64
abbrev PolicyVersion := UInt64
abbrev RecordSequence := UInt64
abbrev AttemptId := UInt64

/-- `BootId`: the 128-bit identity of one process incarnation. -/
abbrev BootId := FixedBytes 16

/-- `StoreId`: the 128-bit identity of one durable store. -/
abbrev StoreId := FixedBytes 16

/-- `UnixMillis`. -/
abbrev UnixMillis := Int64

end FabricReconciliation
