import FabricReconciliation.Hash
import FabricReconciliation.Language
import FabricReconciliation.Lib.Rendered
import FabricReconciliation.Value

/-!
# The JSON writer (`json.cpp:424-552, 734-744`)

A value is written the way the grammar has it, so the reader takes what the writer leaves: the values of a
text that was read are written and read back as they are, and in the order of their keys by `DumpCanonical`.

* **`dumpValue_denotes`** — what is written denotes the value;
* **`dumpValue_sorted`** — sorting keys while writing is writing the sorted value;
* **`dump_read`** — reading what was written.
-/

namespace FabricReconciliation

open Lib Lib.Json

/-- `kDumpDepthLimit`. -/
abbrev kDumpDepthLimit : Nat := 128

/-- A character of `AppendEscaped`. -/
def escapeCharacter (raw : UInt8) : Bytes :=
  if raw = 0x22 then [0x5c, 0x22]
  else if raw = 0x5c then [0x5c, 0x5c]
  else if raw = 0x08 then [0x5c, 0x62]
  else if raw = 0x0c then [0x5c, 0x66]
  else if raw = 0x0a then [0x5c, 0x6e]
  else if raw = 0x0d then [0x5c, 0x72]
  else if raw = 0x09 then [0x5c, 0x74]
  else if raw < 0x20 then
    [0x5c, 0x75, 0x30, 0x30, hexDigit (raw.toNat / 16), hexDigit (raw.toNat % 16)]
  else [raw]

/-- `AppendEscaped` (`json.cpp:424`). -/
def appendEscaped (text : Bytes) : Bytes := 0x22 :: (text.flatMap escapeCharacter ++ [0x22])

/-- `AppendIndent` (`json.cpp:466`). -/
def appendIndent (indent : Int) (depth : Nat) : Bytes :=
  if indent ≤ 0 then [] else 0x0a :: List.replicate (indent.toNat * depth) 0x20

section Writing

variable {ρ : Type} [Double ρ]

/-- `AppendInteger`, `AppendUnsigned` and `AppendReal`. -/
def appendNumber : Number ρ → Bytes
  | .integer value => ascii (toString value.toInt)
  | .unsigned value => ascii (toString value.toNat)
  | .real value => Double.print value

/-- The loop over the values of an array: a comma and an indent before each, and each as it is rendered. -/
def dumpItems (indent : Int) (depth : Nat) (items : List Bytes) : Bytes :=
  if items = [] then [0x5b, 0x5d]
  else 0x5b :: (joined (items.map fun item => appendIndent indent (depth + 1) ++ item) ++
    (appendIndent indent depth ++ [0x5d]))

/-- The loop over the members of an object; `std::stable_sort` goes by their keys only. -/
def dumpMembers (indent : Int) (depth : Nat) (sortKeys : Bool) (members : List (Bytes × Bytes)) : Bytes :=
  if members = [] then [0x7b, 0x7d]
  else
    let order := if sortKeys then members.insertionSort Node.byKey else members
    0x7b :: (joined (order.map fun m => appendIndent indent (depth + 1) ++ (appendEscaped m.1 ++
        (0x3a :: ((if 0 < indent then [0x20] else []) ++ m.2)))) ++
      (appendIndent indent depth ++ [0x7d]))

mutual

/-- `DumpValue` (`json.cpp:476`). -/
def dumpValue (indent : Int) (sortKeys : Bool) (depth : Nat) (v : Value ρ) : Bytes :=
  if kDumpDepthLimit < depth then ascii "null"
  else match v with
    | .null => ascii "null"
    | .boolean b => if b then ascii "true" else ascii "false"
    | .number n => appendNumber n
    | .text t => appendEscaped t
    | .array items => dumpItems indent depth (dumpEach indent sortKeys (depth + 1) items)
    | .object members => dumpMembers indent depth sortKeys (dumpPairs indent sortKeys (depth + 1) members)

/-- The values of an array as they are rendered. -/
def dumpEach (indent : Int) (sortKeys : Bool) (depth : Nat) : List (Value ρ) → List Bytes
  | [] => []
  | v :: rest => dumpValue indent sortKeys depth v :: dumpEach indent sortKeys depth rest

/-- The members of an object, each value as it is rendered. -/
def dumpPairs (indent : Int) (sortKeys : Bool) (depth : Nat) : List (Bytes × Value ρ) → List (Bytes × Bytes)
  | [] => []
  | (key, v) :: rest => (key, dumpValue indent sortKeys depth v) :: dumpPairs indent sortKeys depth rest

end

/-- `Value::Dump`. -/
def dump (indent : Int) (v : Value ρ) : Bytes := dumpValue indent false 0 v

/-- `Value::DumpCanonical`. -/
def dumpCanonical (indent : Int) (v : Value ρ) : Bytes := dumpValue indent true 0 v

end Writing

/-! ## Strings, blanks and integers -/

/-- A control character is written with its two hexadecimal digits. -/
theorem hex4_control : ∀ n < 0x20, hex4 0x30 0x30 (hexDigit (n / 16)) (hexDigit (n % 16)) = some n ∧
    utf8 n = [UInt8.ofNat n] := by
  decide

theorem escapeCharacter_character (raw : UInt8) : Character (escapeCharacter raw) [raw] := by
  unfold escapeCharacter
  split_ifs with h₁ h₂ h₃ h₄ h₅ h₆ h₇ hcontrol
  · rw [h₁]
    exact .escape (by decide)
  · rw [h₂]
    exact .escape (by decide)
  · rw [h₃]
    exact .escape (by decide)
  · rw [h₄]
    exact .escape (by decide)
  · rw [h₅]
    exact .escape (by decide)
  · rw [h₆]
    exact .escape (by decide)
  · rw [h₇]
    exact .escape (by decide)
  · have hlt : raw.toNat < 0x20 := UInt8.lt_iff_toNat_lt.mp hcontrol
    obtain ⟨hhex, hutf8⟩ := hex4_control raw.toNat hlt
    have hcharacter : Character _ (utf8 raw.toNat) := .unicode hhex (by unfold highSurrogate; omega)
      (by unfold lowSurrogate; omega)
    rw [hutf8, UInt8.ofNat_toNat] at hcharacter
    exact hcharacter
  · exact .plain hcontrol h₁ h₂

theorem characters_escaped (text : Bytes) : Characters (text.flatMap escapeCharacter) text := by
  induction text with
  | nil => exact .nil
  | cons raw rest ih => exact .cons (escapeCharacter_character raw) ih

theorem whitespace_indent (indent : Int) (depth : Nat) : Whitespace (appendIndent indent depth) := by
  unfold appendIndent
  split_ifs with h
  · simp [Whitespace]
  · intro b hb
    rcases List.mem_cons.mp hb with rfl | hb
    · decide
    · rw [List.eq_of_mem_replicate hb]
      decide

theorem ascii_nat (n : Nat) : ascii (toString n) = decimal n := by
  rw [ascii, Nat.toString_eq_ofList_toDigits, String.toList_ofList]
  rfl

/-- Integers are written as literals. -/
theorem ascii_int (i : Int) : ascii (toString i) = (Numeral.ofInt i).text := by
  cases i with
  | ofNat n =>
    have hdigits : toString (Int.ofNat n) = toString n := rfl
    rw [hdigits, ascii_nat]
    simp [Numeral.text, Numeral.ofInt]
  | negSucc n =>
    have hdigits : toString (Int.negSucc n) = "-" ++ toString (n + 1) := rfl
    have happend : ∀ s t : String, ascii (s ++ t) = ascii s ++ ascii t := by
      intro s t
      simp [ascii]
    rw [hdigits, happend, ascii_nat]
    simp [Numeral.text, Numeral.ofInt, ascii]

variable {ρ : Type} [Double ρ]

/-- The numbers that are written as the reader has them: no real ones, and none unsigned that is a signed one too. -/
def Plain : Number ρ → Prop
  | .integer _ => True
  | .unsigned value => 2 ^ 63 ≤ value.toNat
  | .real _ => False

theorem appendNumber_meaning {x : Number ρ} (h : Plain x) :
    ∃ n : Numeral, n.Valid ∧ meaning n = some x ∧ appendNumber x = n.text := by
  cases x with
  | integer value =>
    refine ⟨Numeral.ofInt value.toInt, Numeral.valid_ofInt _, ?_, ascii_int _⟩
    have hlow := value.le_toInt
    have hhigh := value.toInt_lt
    rw [meaning, Numeral.isInteger_ofInt, if_pos rfl, Numeral.int_ofInt, if_neg (by omega), if_pos hhigh,
      Int64.ofInt_toInt]
  | unsigned value =>
    have hlow : 2 ^ 63 ≤ value.toNat := h
    have hhigh := value.toNat_lt
    have htext : ascii (toString value.toNat) = (Numeral.ofInt value.toNat).text := ascii_int (Int.ofNat value.toNat)
    refine ⟨Numeral.ofInt value.toNat, Numeral.valid_ofInt _, ?_, htext⟩
    rw [meaning, Numeral.isInteger_ofInt, if_pos rfl, Numeral.int_ofInt, if_neg (by omega), if_neg (by omega),
      Int.toNat_natCast, UInt64.ofNat_toNat]
  | real value => exact h.elim

/-! ## Values -/

theorem dumpEach_eq (indent : Int) (sortKeys : Bool) (depth : Nat) (items : List (Value ρ)) :
    dumpEach indent sortKeys depth items = items.map (dumpValue indent sortKeys depth) := by
  induction items with
  | nil => rfl
  | cons v rest ih => rw [dumpEach, ih, List.map_cons]

theorem dumpPairs_eq (indent : Int) (sortKeys : Bool) (depth : Nat) (members : List (Bytes × Value ρ)) :
    dumpPairs indent sortKeys depth members = members.map fun m => (m.1, dumpValue indent sortKeys depth m.2) := by
  induction members with
  | nil => rfl
  | cons m rest ih => rw [dumpPairs, ih, List.map_cons]

theorem dumpMembers_sorted (indent : Int) (depth : Nat) (members : List (Bytes × Bytes)) :
    dumpMembers indent depth true members = dumpMembers indent depth false (members.insertionSort Node.byKey) := by
  have hempty : members.insertionSort Node.byKey = [] ↔ members = [] := by
    rw [← List.length_eq_zero_iff, List.length_insertionSort, List.length_eq_zero_iff]
  unfold dumpMembers
  simp only [hempty, if_true, Bool.false_eq_true, if_false]

/-- Sorting keys while writing is writing the sorted value. -/
theorem dumpValue_sorted (indent : Int) (depth : Nat) (v : Value ρ) :
    dumpValue indent true depth v = dumpValue indent false depth v.sorted := by
  induction v using Node.induct generalizing depth with
  | array items ih =>
    have hitems : items.map (dumpValue indent true (depth + 1)) =
        (items.map Node.sorted).map (dumpValue indent false (depth + 1)) := by
      rw [List.map_map]
      exact List.map_congr_left fun v hv => ih v hv _
    rw [Node.sorted_array]
    unfold dumpValue
    simp only [dumpEach_eq, hitems]
  | object members ih =>
    have hmembers : (members.map fun m => (m.1, dumpValue indent true (depth + 1) m.2)) =
        (members.map fun m => (m.1, m.2.sorted)).map fun m => (m.1, dumpValue indent false (depth + 1) m.2) := by
      rw [List.map_map]
      exact List.map_congr_left fun m hm => congrArg (Prod.mk m.1) (ih m hm _)
    have hsort : ∀ pairs : List (Bytes × Value ρ), (pairs.insertionSort Node.byKey).map
          (fun m => (m.1, dumpValue indent false (depth + 1) m.2)) =
        (pairs.map fun m => (m.1, dumpValue indent false (depth + 1) m.2)).insertionSort Node.byKey :=
      fun pairs => List.map_insertionSort _ _ _ _ fun _ _ _ _ => Iff.rfl
    rw [Node.sorted_object]
    unfold dumpValue
    simp only [dumpPairs_eq, hmembers, dumpMembers_sorted, hsort]
  | _ => rfl

/-- What is rendered for the values of an array denotes the array. -/
theorem dumpItems_denotes (indent : Int) (depth : Nat) {items : List (Value ρ)} {render : Value ρ → Bytes}
    (h : ∀ v ∈ items, Denotes meaning (render v) v) :
    Denotes meaning (dumpItems indent depth (items.map render)) (.array items) := by
  unfold dumpItems
  split_ifs with hempty
  · rw [List.map_eq_nil_iff.mp hempty]
    exact @Denotes.emptyArray _ meaning [] (by simp [Whitespace])
  · obtain ⟨elements, helements⟩ : ∃ elements : List (Element (Number ρ)),
        elements = items.map fun v => ⟨appendIndent indent (depth + 1), render v, v, []⟩ := ⟨_, rfl⟩
    have htexts : (items.map render).map (appendIndent indent (depth + 1) ++ ·) = elements.map Element.text := by
      rw [helements, List.map_map, List.map_map]
      exact List.map_congr_left fun v _ => by simp [Element.text]
    have hvalues : items = elements.map Element.value := by
      rw [helements, List.map_map]
      exact (List.map_id _).symm
    have hsome : elements ≠ [] := by simpa [helements] using hempty
    have hspaced : ∀ e ∈ elements, e.Spaced := by
      rw [helements]
      exact List.forall_mem_map.mpr fun v _ => ⟨whitespace_indent _ _, by simp [Whitespace]⟩
    have heach : ∀ e ∈ elements, Denotes meaning e.source e.value := by
      rw [helements]
      exact List.forall_mem_map.mpr h
    have hdenotes := Denotes.arraySpaced hsome hspaced heach (whitespace_indent indent depth)
    rw [htexts]
    rwa [← hvalues] at hdenotes

/-- What is rendered for the members of an object denotes the object. -/
theorem dumpMembers_denotes (indent : Int) (depth : Nat) {members : List (Bytes × Value ρ)} {render : Value ρ → Bytes}
    (h : ∀ m ∈ members, Denotes meaning (render m.2) m.2) :
    Denotes meaning (dumpMembers indent depth false (members.map fun m => (m.1, render m.2))) (.object members) := by
  by_cases hempty : (members.map fun m => (m.1, render m.2)) = []
  · rw [dumpMembers, if_pos hempty, List.map_eq_nil_iff.mp hempty]
    exact @Denotes.emptyObject _ meaning [] (by simp [Whitespace])
  · obtain ⟨colon, hcolon⟩ : ∃ colon : Bytes, colon = if 0 < indent then [0x20] else [] := ⟨_, rfl⟩
    have hblank : Whitespace colon := by
      rw [hcolon]
      split_ifs <;> simp [Whitespace, isWhitespace]
    obtain ⟨entries, hentries⟩ : ∃ entries : List (Entry (Number ρ)), entries = members.map fun m =>
        ⟨appendIndent indent (depth + 1), m.1.flatMap escapeCharacter, m.1, [], colon, render m.2, m.2, []⟩ :=
      ⟨_, rfl⟩
    have htexts : (members.map fun m => (m.1, render m.2)).map (fun m => appendIndent indent (depth + 1) ++
        (appendEscaped m.1 ++ 0x3a :: (colon ++ m.2))) = entries.map Entry.text := by
      rw [hentries, List.map_map, List.map_map]
      exact List.map_congr_left fun m _ => by simp [Entry.text, Element.text, appendEscaped]
    have hmembers : members = entries.map Entry.member := by
      rw [hentries, List.map_map]
      exact (List.map_id _).symm
    have hsome : entries ≠ [] := by simpa [hentries] using hempty
    have hspaced : ∀ e ∈ entries, e.Spaced := by
      rw [hentries]
      refine List.forall_mem_map.mpr fun m _ => ⟨whitespace_indent _ _, ?_, hblank, ?_⟩
      all_goals simp [Whitespace]
    have hkeys : ∀ e ∈ entries, Characters e.keySource e.key := by
      rw [hentries]
      exact List.forall_mem_map.mpr fun m _ => characters_escaped m.1
    have heach : ∀ e ∈ entries, Denotes meaning e.element.source e.element.value := by
      rw [hentries]
      exact List.forall_mem_map.mpr h
    have hdenotes := Denotes.objectSpaced hsome hspaced hkeys heach (whitespace_indent indent depth)
    rw [dumpMembers, if_neg hempty]
    simp only [Bool.false_eq_true, if_false, ← hcolon]
    rw [htexts]
    rwa [← hmembers] at hdenotes

/-- **`dumpValue_denotes`**: what is written denotes the value. -/
theorem dumpValue_denotes (indent : Int) (depth : Nat) (v : Value ρ) (hplain : v.Numbers Plain)
    (hdepth : v.depth + depth ≤ kDumpDepthLimit) : Denotes meaning (dumpValue indent false depth v) v := by
  induction v using Node.induct generalizing depth with
  | null =>
    rw [dumpValue, if_neg (by omega)]
    exact .null
  | boolean b =>
    rw [dumpValue, if_neg (by omega)]
    cases b with
    | true => exact .true
    | false => exact .false
  | number x =>
    obtain ⟨n, hvalid, hmeaning, htext⟩ := appendNumber_meaning (x := x) hplain
    rw [dumpValue, if_neg (by omega)]
    rw [htext]
    exact .number hvalid hmeaning
  | text t =>
    rw [dumpValue, if_neg (by omega)]
    exact .text (characters_escaped t)
  | array items ih =>
    have hitems : ∀ v ∈ items, v.depth + (depth + 1) ≤ kDumpDepthLimit := by
      intro v hv
      have := Node.depth_array_le.mp (le_refl _) v hv
      omega
    rw [Node.numbers_array] at hplain
    rw [dumpValue, if_neg (by omega)]
    rw [dumpEach_eq]
    exact dumpItems_denotes indent depth fun v hv => ih v hv _ (hplain v hv) (hitems v hv)
  | object members ih =>
    have hmembers : ∀ m ∈ members, m.2.depth + (depth + 1) ≤ kDumpDepthLimit := by
      intro m hm
      have := Node.depth_object_le.mp (le_refl _) m hm
      omega
    rw [Node.numbers_object] at hplain
    rw [dumpValue, if_neg (by omega)]
    rw [dumpPairs_eq]
    exact dumpMembers_denotes indent depth fun m hm => ih m hm _ (hplain m hm) (hmembers m hm)

/-! ## Reading what was written -/

def NotReal : Number ρ → Prop
  | .real _ => False
  | _ => True

theorem plain_of_meaning {n : Numeral} {x : Number ρ} (h : meaning n = some x) (hreal : NotReal x) : Plain x := by
  unfold meaning at h
  split_ifs at h with hinteger hrange hsigned
  · rw [Option.some.injEq] at h
    rw [← h]
    trivial
  · rw [Option.some.injEq] at h
    have hlow : 2 ^ 63 ≤ (UInt64.ofNat n.int.toNat).toNat := by
      have hsize : UInt64.size = 2 ^ 64 := rfl
      rw [UInt64.toNat_ofNat_of_lt' (by omega)]
      omega
    rw [← h]
    exact hlow
  · obtain ⟨value, outOfRange⟩ := Double.strtod (ρ := ρ) n.text
    simp only at h
    split_ifs at h
    rw [Option.some.injEq] at h
    rw [← h] at hreal
    exact hreal.elim

/-- A value within the limits is written so that it is read again. -/
theorem dumped_language {limits : ParseLimits} {v : Value ρ} (hlimit : limits.maxDepth ≤ kDumpDepthLimit)
    (hplain : v.Numbers Plain) (hdepth : v.depth ≤ limits.maxDepth) (hcount : v.count ≤ limits.maxItems)
    (hwithin : Within limits.bounds v) (indent : Int)
    (hbytes : (dumpValue indent false 0 v).length ≤ limits.maxBytes) :
    Language limits (dumpValue indent false 0 v) v := by
  have hdumped : Denotes meaning (dumpValue indent false 0 v) v :=
    dumpValue_denotes indent 0 v hplain (le_trans hdepth hlimit)
  obtain ⟨b, tail, hb, -⟩ := denotes_head hdumped
  refine ⟨by rw [hb]; simp, hbytes, ⟨[], _, [], ?_, ?_, ?_, hdumped⟩, hdepth, hcount, hwithin⟩
  · rw [List.nil_append, List.append_nil]
  · simp [Whitespace]
  · simp [Whitespace]

/-- What `Parse` gave is written so that it is read again, whatever the order of its members. -/
theorem Language.dumped {limits : ParseLimits} {text : Bytes} {v w : Value ρ} (h : Language limits text v)
    (hdepth : limits.maxDepth ≤ kDumpDepthLimit) (hreal : v.Numbers NotReal) (hw : v.Reordered w) (indent : Int)
    {maxBytes : Nat} (hbytes : (dumpValue indent false 0 w).length ≤ maxBytes) :
    Language { limits with maxBytes } (dumpValue indent false 0 w) w := by
  obtain ⟨before, source, after, -, -, -, hdenotes⟩ := h.denotes
  have hplain : v.Numbers Plain :=
    Node.numbers_combine hdenotes.numbers hreal fun x hx hnot => by
      obtain ⟨n, -, hn⟩ := hx
      exact plain_of_meaning hn hnot
  apply dumped_language
  · exact hdepth
  · exact hw.numbers.mp hplain
  · rw [← hw.depth]
    exact h.depth
  · rw [← hw.count]
    exact h.count
  · exact hw.within h.within
  · exact hbytes

theorem parse_ok {limits : ParseLimits} {text : Bytes} {v out : Value ρ} :
    parse limits text out = (Status.ok, v) ↔ Language limits text v := by
  rw [← run_ok, parse]
  cases Parser.run (ρ := ρ) limits text with
  | error reason => simp [rejectJson, Status.ok]
  | ok w => simp

/-- **`dump_read`**: a value without real numbers that `Parse` gave is read back from what `Dump` writes,
`DumpCanonical` writes the same for every order of its members, and what it writes is read with the members of
every object in the order of their keys. -/
theorem dump_read (limits : ParseLimits) (hdepth : limits.maxDepth ≤ kDumpDepthLimit) {text : Bytes} {v out : Value ρ}
    (h : parse limits text out = (Status.ok, v)) (hreal : v.Numbers NotReal) (indent : Int) :
    (∀ maxBytes out', (dump indent v).length ≤ maxBytes →
      parse { limits with maxBytes } (dump indent v) out' = (Status.ok, v)) ∧
    (∀ w, v.Reordered w → dumpCanonical indent w = dumpCanonical indent v) ∧
    (∀ maxBytes out', (dumpCanonical indent v).length ≤ maxBytes →
      parse { limits with maxBytes } (dumpCanonical indent v) out' = (Status.ok, v.sorted)) := by
  have hlanguage := parse_ok.mp h
  refine ⟨fun maxBytes out' hbytes => ?_, fun w hw => ?_, fun maxBytes out' hbytes => ?_⟩
  · exact parse_ok.mpr (hlanguage.dumped hdepth hreal (.refl v) indent hbytes)
  · rw [dumpCanonical, dumpCanonical, dumpValue_sorted, dumpValue_sorted, hw.sorted hlanguage.within]
  · rw [dumpCanonical, dumpValue_sorted] at hbytes ⊢
    exact parse_ok.mpr (hlanguage.dumped hdepth hreal v.reordered_sorted indent hbytes)

/-- Enough for texts in which no literal has a fraction or an exponent. -/
instance integersOnly : Double Unit where
  strtod _ := ((), true)
  isFinite _ := false
  isZero _ := false
  outsideInt64 _ := true
  toInt64 _ := 0
  outsideUInt64 _ := true
  toUInt64 _ := 0
  print _ := []

def sampleMembers : Value Unit :=
  .object [(ascii "b", .array [.number (.integer 1), .boolean true]), (ascii "a", .null)]

theorem sample_parsed : parse {} (ascii "\x7b\"b\":[1,true],\"a\":null\x7d") .null = (Status.ok, sampleMembers) := rfl

theorem dump_read_members : parse { maxBytes := 100 } (dump 2 sampleMembers) .null = (Status.ok, sampleMembers) ∧
    parse { maxBytes := 100 } (dumpCanonical (-1) sampleMembers) .null = (Status.ok, sampleMembers.sorted) := by
  have hreal : sampleMembers.Numbers NotReal := by
    simp only [sampleMembers, Node.numbers_object, Node.numbers_array, List.forall_mem_cons]
    exact ⟨⟨trivial, trivial, by simp⟩, trivial, by simp⟩
  exact ⟨(dump_read {} (by decide) sample_parsed hreal 2).1 100 .null (by decide),
    (dump_read {} (by decide) sample_parsed hreal (-1)).2.2 100 .null (by decide)⟩

end FabricReconciliation
