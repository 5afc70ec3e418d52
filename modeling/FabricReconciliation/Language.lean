import FabricReconciliation.Literals

/-!
# The language of the JSON reader (`json.cpp:36-206, 746-755`)

The loops over arrays and objects are read against a parser of values that is right for so many levels of
nesting; `ParseValue` is then right for every number of levels.

* **`parseValue_sound`**, **`parseValue_complete`** — what the parser takes is what the grammar denotes;
* **`parse_exact`** — the language of `Parse`.
-/

namespace FabricReconciliation

open Lib Lib.Json

/-! ## Values -/

theorem parseWord_ok {ρ : Type} {word rest rest' : Bytes} {value v : Value ρ} :
    parseWord word value rest = .ok (v, rest') ↔ v = value ∧ rest = word ++ rest' := by
  unfold parseWord
  constructor
  · intro h
    split_ifs at h with hprefix
    obtain ⟨tail, rfl⟩ := List.isPrefixOf_iff_prefix.mp hprefix
    rw [List.drop_left, Except.ok.injEq, Prod.mk.injEq] at h
    exact ⟨h.1.symm, by rw [h.2]⟩
  · rintro ⟨rfl, rfl⟩
    rw [if_pos (List.isPrefixOf_iff_prefix.mpr (List.prefix_append ..)), List.drop_left]

/-- A blank does not go on with a number, nor does what separates values. -/
theorem endsNumber_blank {blanks : Bytes} (h : Whitespace blanks) {b : UInt8} (hb : b = 0x2c ∨ b = 0x5d ∨ b = 0x7d)
    (rest : Bytes) : EndsNumber (blanks ++ b :: rest) := by
  intro c hc
  cases blanks with
  | nil =>
    rw [List.nil_append, List.head?_cons, Option.some.injEq] at hc
    subst hc
    rcases hb with rfl | rfl | rfl <;> decide
  | cons d tail =>
    rw [List.cons_append, List.head?_cons, Option.some.injEq] at hc
    subst hc
    have hd := h d (List.mem_cons_self ..)
    simp only [isWhitespace, Bool.or_eq_true, beq_iff_eq] at hd
    rcases hd with ((rfl | rfl) | rfl) | rfl <;> decide

theorem any_key {α : Type} {object : List (Bytes × α)} {key : Bytes} :
    object.any (·.1 == key) = true ↔ key ∈ object.map Prod.fst := by
  simp

section Reading

variable {ρ : Type} [Double ρ] {limits : ParseLimits} {items items' levels : Nat} {rest rest' : Bytes} {v : Value ρ}

/-- The bounds of the parser on what a value holds. -/
def ParseLimits.bounds (limits : ParseLimits) : Bounds :=
  ⟨limits.maxStringBytes, limits.maxArrayItems, limits.maxObjectMembers⟩

/-- A text denotes a value that the parser accepts with so many levels of nesting left. -/
structure ReadsAs (limits : ParseLimits) (levels : Nat) (source : Bytes) (v : Value ρ) : Prop where
  denotes : Denotes meaning source v
  depth : v.depth < levels
  within : Within limits.bounds v

/-- What a parser of values takes is a value with blanks in front. -/
def SoundAt (limits : ParseLimits) (levels : Nat) (value : Nat → Bytes → Parsed (Value ρ × Nat × Bytes)) : Prop :=
  ∀ {items rest v items' rest'}, value items rest = .ok (v, items', rest') → ∃ before source,
    rest = before ++ (source ++ rest') ∧ Whitespace before ∧ ReadsAs limits levels source v ∧
    items' = items + v.count ∧ items' ≤ limits.maxItems

/-- It takes every value with blanks in front. -/
def CompleteAt (limits : ParseLimits) (levels : Nat) (value : Nat → Bytes → Parsed (Value ρ × Nat × Bytes)) : Prop :=
  ∀ {items before source v rest}, Whitespace before → ReadsAs limits levels source v →
    items + v.count ≤ limits.maxItems → EndsNumber rest →
    value items (before ++ (source ++ rest)) = .ok (v, items + v.count, rest)

/-- How a value begins. -/
theorem denotes_head {source : Bytes} (h : Denotes meaning source v) : ∃ b tail, source = b :: tail ∧
    isWhitespace b = false ∧ b ≠ 0x5d ∧ b ≠ 0x7d := by
  cases h with
  | @number n x hvalid hmeaning =>
    obtain ⟨b, tail, hb, hdigit⟩ := hvalid.head
    refine ⟨b, tail, hb, ?_⟩
    rcases hdigit with rfl | hdigit
    · decide
    · refine ⟨not_whitespace_of_isDigit hdigit, ?_, ?_⟩
      all_goals
        rintro rfl
        exact absurd hdigit (by decide)
  | _ => exact ⟨_, _, rfl, by decide, by decide, by decide⟩

/-- What a value that is not made of others is read from. -/
theorem parseScalar_sound (h : parseScalar limits items rest = .ok (v, items', rest')) :
    ∃ source, rest = source ++ rest' ∧ ReadsAs limits (levels + 1) source v ∧ items' = items ∧ v.count = 1 := by
  have hdepth : ∀ w : Value ρ, w.depth = 0 → w.depth < levels + 1 := fun w hw => by omega
  cases rest with
  | nil => simp [parseScalar] at h
  | cons b tail =>
    unfold parseScalar at h
    simp only at h
    split_ifs at h with hquote htrue hfalse hnull hnumber
    · obtain ⟨⟨text, tail'⟩, hstring, h⟩ := bind_eq_ok.mp h
      simp only [pure, Except.pure, Except.ok.injEq, Prod.mk.injEq] at h
      obtain ⟨rfl, rfl, rfl⟩ := h
      obtain ⟨source, rfl, hcharacters, hbound⟩ := parseString_sound hstring
      exact ⟨0x22 :: (source ++ [0x22]), by simp [hquote], ⟨.text hcharacters, hdepth _ rfl, .text hbound⟩, rfl, rfl⟩
    all_goals
      obtain ⟨⟨w, tail'⟩, hpart, h⟩ := bind_eq_ok.mp h
      simp only [pure, Except.pure, Except.ok.injEq, Prod.mk.injEq] at h
      obtain ⟨rfl, rfl, rfl⟩ := h
    · obtain ⟨rfl, hsplit⟩ := parseWord_ok.mp hpart
      exact ⟨_, hsplit, ⟨.true, hdepth _ rfl, .boolean _⟩, rfl, rfl⟩
    · obtain ⟨rfl, hsplit⟩ := parseWord_ok.mp hpart
      exact ⟨_, hsplit, ⟨.false, hdepth _ rfl, .boolean _⟩, rfl, rfl⟩
    · obtain ⟨rfl, hsplit⟩ := parseWord_ok.mp hpart
      exact ⟨_, hsplit, ⟨.null, hdepth _ rfl, .null⟩, rfl, rfl⟩
    · obtain ⟨n, hvalid, hsplit, hmeaning⟩ := parseNumber_sound hpart
      exact ⟨n.text, hsplit, ⟨.number hvalid hmeaning, hdepth _ rfl, .number _⟩, rfl, rfl⟩

theorem parseScalar_word {word : Bytes} (hword : word = [0x74, 0x72, 0x75, 0x65] ∧ v = .boolean true ∨
      word = [0x66, 0x61, 0x6c, 0x73, 0x65] ∧ v = .boolean false ∨ word = [0x6e, 0x75, 0x6c, 0x6c] ∧ v = .null) :
    parseScalar limits items (word ++ rest) = .ok (v, items, rest) := by
  have hparsed : parseWord word v (word ++ rest) = .ok (v, rest) := parseWord_ok.mpr ⟨rfl, rfl⟩
  rcases hword with ⟨rfl, rfl⟩ | ⟨rfl, rfl⟩ | ⟨rfl, rfl⟩
  all_goals
    simp only [List.cons_append, List.nil_append] at hparsed ⊢
    simp [parseScalar, hparsed, ok_bind, pure, Except.pure]

theorem parseScalar_text {source t : Bytes} (h : Characters source t) (hbound : t.length ≤ limits.maxStringBytes) :
    parseScalar limits items (0x22 :: (source ++ 0x22 :: rest)) = .ok ((.text t : Value ρ), items, rest) := by
  rw [parseScalar, if_pos rfl, parseString_complete h hbound, ok_bind]
  rfl

theorem parseScalar_number {n : Numeral} {x : Number ρ} (hvalid : n.Valid) (hmeaning : meaning n = some x)
    (hrest : EndsNumber rest) : parseScalar limits items (n.text ++ rest) = .ok (.number x, items, rest) := by
  have hparsed := parseNumber_complete hvalid hmeaning hrest
  obtain ⟨b, tail, hb, hhead⟩ := hvalid.head
  rw [hb, List.cons_append] at hparsed ⊢
  -- The bytes that make the parser take something else are no digits.
  have hother : ∀ c : UInt8, c ≠ 0x2d → isDigit c = false → b ≠ c := by
    rintro c hsign hdigit rfl
    rcases hhead with rfl | hhead
    · exact hsign rfl
    · rw [hdigit] at hhead
      exact Bool.noConfusion hhead
  rw [parseScalar, if_neg (hother _ (by decide) (by decide)), if_neg (hother _ (by decide) (by decide)),
    if_neg (hother _ (by decide) (by decide)), if_neg (hother _ (by decide) (by decide)), if_pos hhead, hparsed,
    ok_bind]
  rfl

/-! ## Arrays -/

section Items

variable {value : Nat → Bytes → Parsed (Value ρ × Nat × Bytes)}

/-- The values of an array, as the text has them. -/
structure ItemsRead (limits : ParseLimits) (levels : Nat) (elements : List (Element (Number ρ))) : Prop where
  some : elements ≠ []
  spaced : ∀ e ∈ elements, e.Spaced
  reads : ∀ e ∈ elements, ReadsAs limits levels e.source e.value

/-- What the loop over an array took. -/
theorem parseItems_sound (hvalue : SoundAt limits levels value) {rounds : Nat} {array : List (Value ρ)}
    (h : parseItems limits value rounds items rest array = .ok (v, items', rest')) :
    ∃ elements, rest = joined (elements.map Element.text) ++ 0x5d :: rest' ∧ ItemsRead limits levels elements ∧
      v = .array (array ++ elements.map Element.value) ∧
      items' = items + ((elements.map Element.value).map Node.count).sum ∧
      items' ≤ limits.maxItems ∧ (array ++ elements.map Element.value).length ≤ limits.maxArrayItems := by
  induction rounds generalizing items rest array with
  | zero => simp [parseItems] at h
  | succ rounds ih =>
    obtain ⟨⟨w, items₁, rest₁⟩, hone, h⟩ := bind_eq_ok.mp h
    obtain ⟨before, source, rfl, hbefore, hreads, rfl, hitems⟩ := hvalue hone
    simp only at h
    obtain ⟨after, hafter, hblank⟩ := skipWhitespace_split rest₁
    obtain ⟨element, helement⟩ : ∃ e : Element (Number ρ), e = ⟨before, source, w, after⟩ := ⟨_, rfl⟩
    have htext : ∀ tail, before ++ (source ++ (after ++ tail)) = element.text ++ tail := by
      intro tail
      rw [helement]
      simp [Element.text]
    split_ifs at h with hfull
    rw [hafter]
    split at h
    · simp at h
    · next b tail hskip =>
      rw [hskip, htext]
      split_ifs at h with hcomma hclose
      · obtain ⟨elements, rfl, hread, rfl, rfl, hmax, hlength⟩ := ih h
        refine ⟨element :: elements, ?_, ⟨by simp, ?_, ?_⟩, ?_, ?_, hmax, ?_⟩
        · rw [List.map_cons, joined_cons _ (by simpa using hread.some), hcomma, List.append_assoc, List.cons_append]
        · exact List.forall_mem_cons.mpr ⟨by rw [helement]; exact ⟨hbefore, hblank⟩, hread.spaced⟩
        · exact List.forall_mem_cons.mpr ⟨by rw [helement]; exact hreads, hread.reads⟩
        · simp [helement]
        · simp [helement, Nat.add_assoc]
        · simpa [helement] using hlength
      · simp only [Except.ok.injEq, Prod.mk.injEq] at h
        obtain ⟨rfl, rfl, rfl⟩ := h
        refine ⟨[element], by rw [hclose]; rfl, ⟨by simp, ?_, ?_⟩, by simp [helement], by simp [helement], hitems, ?_⟩
        · rw [List.forall_mem_singleton, helement]
          exact ⟨hbefore, hblank⟩
        · rw [List.forall_mem_singleton, helement]
          exact hreads
        · simp
          omega

/-- The loop takes every array. -/
theorem parseItems_complete (hvalue : CompleteAt limits levels value) {elements : List (Element (Number ρ))}
    (hread : ItemsRead limits levels elements) {rounds : Nat} (hrounds : elements.length ≤ rounds)
    {array : List (Value ρ)}
    (hitems : items + ((elements.map Element.value).map Node.count).sum ≤ limits.maxItems)
    (hlength : (array ++ elements.map Element.value).length ≤ limits.maxArrayItems) :
    parseItems limits value rounds items (joined (elements.map Element.text) ++ 0x5d :: rest) array =
      .ok (.array (array ++ elements.map Element.value),
        items + ((elements.map Element.value).map Node.count).sum, rest) := by
  obtain ⟨hsome, hspaced, hreads⟩ := hread
  induction elements generalizing rounds items array with
  | nil => exact absurd rfl hsome
  | cons e elements ih =>
    obtain ⟨rounds, rfl⟩ : ∃ n, rounds = n + 1 := ⟨rounds - 1, by simp at hrounds; omega⟩
    obtain ⟨hbefore, hafter⟩ := hspaced e (List.mem_cons_self ..)
    simp only [List.map_cons, List.sum_cons] at hitems
    have hroom : ¬ limits.maxArrayItems ≤ array.length := by
      simp at hlength
      omega
    have hone : ∀ b tail, b = 0x2c ∨ b = 0x5d ∨ b = 0x7d → value items (e.text ++ b :: tail) =
        .ok (e.value, items + e.value.count, e.after ++ b :: tail) := by
      intro b tail hb
      have hread := @hvalue items _ _ _ _ hbefore (hreads e (List.mem_cons_self ..)) (by omega)
        (endsNumber_blank hafter hb tail)
      simpa [Element.text] using hread
    have hskip : ∀ b tail, isWhitespace b = false → skipWhitespace (e.after ++ b :: tail) = b :: tail := by
      intro b tail hb
      rw [skipWhitespace_blank hafter, skipWhitespace_cons hb]
    cases elements with
    | nil =>
      rw [List.map_cons, List.map_nil, joined, parseItems, hone 0x5d rest (.inr (.inl rfl)), ok_bind]
      simp only
      rw [if_neg hroom, hskip _ _ (by decide)]
      simp
    | cons next elements =>
      have hlater := @ih (items + e.value.count) rounds (by simpa using hrounds) (array ++ [e.value]) (by omega)
        (by simpa using hlength) (by simp)
        (fun d hd => hspaced d (List.mem_cons_of_mem _ hd)) (fun d hd => hreads d (List.mem_cons_of_mem _ hd))
      rw [List.map_cons, joined_cons _ (by simp), List.append_assoc, List.cons_append, parseItems,
        hone _ _ (.inl rfl), ok_bind]
      simp only
      rw [if_neg hroom, hskip _ _ (by decide)]
      simp only [if_true]
      rw [hlater]
      simp [Nat.add_assoc]

/-- The blanks in front of the values are those in front of the first. -/
theorem ItemsRead.prepend {elements : List (Element (Number ρ))} (h : ItemsRead limits levels elements)
    {blanks : Bytes} (hblank : Whitespace blanks) : ∃ moved, ItemsRead limits levels moved ∧
      joined (moved.map Element.text) = blanks ++ joined (elements.map Element.text) ∧
      moved.map Element.value = elements.map Element.value := by
  obtain ⟨hsome, hspaced, hreads⟩ := h
  obtain ⟨e, others, rfl⟩ := List.exists_cons_of_ne_nil hsome
  obtain ⟨⟨hbefore, hafter⟩, hspaced⟩ := List.forall_mem_cons.mp hspaced
  obtain ⟨hread, hreads⟩ := List.forall_mem_cons.mp hreads
  refine ⟨{ e with before := blanks ++ e.before } :: others, ⟨by simp, ?_, ?_⟩, ?_, by simp⟩
  · exact List.forall_mem_cons.mpr ⟨⟨List.forall_mem_append.mpr ⟨hblank, hbefore⟩, hafter⟩, hspaced⟩
  · exact List.forall_mem_cons.mpr ⟨hread, hreads⟩
  · rw [List.map_cons, List.map_cons, ← joined_prepend]
    simp [Element.text]

/-- The text of an array. -/
theorem ItemsRead.array {elements : List (Element (Number ρ))} (h : ItemsRead limits levels elements)
    (hlength : (elements.map Element.value).length ≤ limits.maxArrayItems) :
    ReadsAs limits (levels + 1) (0x5b :: (joined (elements.map Element.text) ++ [0x5d]))
      (.array (elements.map Element.value)) := by
  refine ⟨.array h.some h.spaced fun e he => (h.reads e he).denotes, ?_, ?_⟩
  · apply Nat.lt_succ_of_le
    rw [Node.depth_array_le, List.forall_mem_map]
    exact fun e he => (h.reads e he).depth
  · exact .array hlength (List.forall_mem_map.mpr fun e he => (h.reads e he).within)

theorem parseArray_sound (hvalue : SoundAt limits levels value)
    (h : parseArray limits value (items + 1) rest = .ok (v, items', rest')) (hitems : items + 1 ≤ limits.maxItems) :
    ∃ source, 0x5b :: rest = source ++ rest' ∧ ReadsAs limits (levels + 1) source v ∧ items' = items + v.count ∧
      items' ≤ limits.maxItems := by
  obtain ⟨blanks, hblanks, hblank⟩ := skipWhitespace_split rest
  unfold parseArray at h
  simp only at h
  split_ifs at h with hempty
  · simp only [Except.ok.injEq, Prod.mk.injEq] at h
    obtain ⟨rfl, rfl, rfl⟩ := h
    refine ⟨0x5b :: (blanks ++ [0x5d]), ?_, ⟨.emptyArray hblank, ?_, .array (by simp) (by simp)⟩, by simp, hitems⟩
    · have hclose := eq_cons_of_head hempty
      calc 0x5b :: rest = 0x5b :: (blanks ++ skipWhitespace rest) := by rw [← hblanks]
        _ = 0x5b :: (blanks ++ [0x5d]) ++ (skipWhitespace rest).tail := by
          rw [hclose]
          simp
    · exact Nat.lt_succ_of_le (Node.depth_array_le.mpr (by simp))
  · obtain ⟨elements, hsplit, hread, rfl, rfl, hmax, hlength⟩ := parseItems_sound hvalue h
    obtain ⟨moved, hmoved, htext, hvalues⟩ := hread.prepend hblank
    rw [List.nil_append, ← hvalues] at hlength ⊢
    refine ⟨_, ?_, hmoved.array hlength, ?_, by rw [hvalues]; exact hmax⟩
    · rw [hblanks, hsplit, htext]
      simp
    · rw [Node.count_array, hvalues]
      omega

/-- The loop begins behind the blanks in front of the first value. -/
theorem ItemsRead.strip {elements : List (Element (Number ρ))} (h : ItemsRead limits levels elements) :
    ∃ blanks moved, Whitespace blanks ∧ ItemsRead limits levels moved ∧
      joined (elements.map Element.text) = blanks ++ joined (moved.map Element.text) ∧
      moved.map Element.value = elements.map Element.value ∧
      ∃ b tail, joined (moved.map Element.text) = b :: tail ∧ isWhitespace b = false ∧ b ≠ 0x5d := by
  obtain ⟨hsome, hspaced, hreads⟩ := h
  obtain ⟨e, others, rfl⟩ := List.exists_cons_of_ne_nil hsome
  obtain ⟨⟨hbefore, hafter⟩, hspaced⟩ := List.forall_mem_cons.mp hspaced
  obtain ⟨hread, hreads⟩ := List.forall_mem_cons.mp hreads
  refine ⟨e.before, { e with before := [] } :: others, hbefore, ⟨by simp, ?_, ?_⟩, ?_, by simp, ?_⟩
  · exact List.forall_mem_cons.mpr ⟨⟨by simp [Whitespace], hafter⟩, hspaced⟩
  · exact List.forall_mem_cons.mpr ⟨hread, hreads⟩
  · rw [List.map_cons, List.map_cons, ← joined_prepend]
    simp [Element.text]
  · obtain ⟨b, tail, hb, hblank, hclose, -⟩ := denotes_head hread.denotes
    rw [List.map_cons, Element.text, List.nil_append, hb, List.cons_append]
    exact ⟨b, _, joined_head .., hblank, hclose⟩

theorem parseArray_complete (hvalue : CompleteAt limits levels value) {elements : List (Element (Number ρ))}
    (hread : ItemsRead limits levels elements)
    (hitems : items + ((elements.map Element.value).map Node.count).sum ≤ limits.maxItems)
    (hlength : (elements.map Element.value).length ≤ limits.maxArrayItems) :
    parseArray limits value items (joined (elements.map Element.text) ++ 0x5d :: rest) =
      .ok (.array (elements.map Element.value), items + ((elements.map Element.value).map Node.count).sum, rest) := by
  obtain ⟨blanks, moved, hblank, hmoved, htext, hvalues, b, tail, hhead, hb, hclose⟩ := hread.strip
  rw [← hvalues] at hitems hlength ⊢
  have hrounds := length_joined (moved.map Element.text)
  rw [List.length_map] at hrounds
  unfold parseArray
  simp only
  rw [htext, List.append_assoc, skipWhitespace_blank hblank, hhead, List.cons_append, skipWhitespace_cons hb,
    ← List.cons_append, ← hhead, if_neg]
  · refine parseItems_complete hvalue hmoved ?_ hitems (by simpa using hlength)
    rw [List.length_append]
    omega
  · rw [hhead, List.cons_append, List.head?_cons, Option.some.injEq]
    exact hclose

/-! ## Objects -/

/-- The members of an object, as the text has them. -/
structure MembersRead (limits : ParseLimits) (levels : Nat) (entries : List (Entry (Number ρ))) : Prop where
  some : entries ≠ []
  spaced : ∀ e ∈ entries, e.Spaced
  keys : ∀ e ∈ entries, Characters e.keySource e.key ∧ e.key.length ≤ limits.maxStringBytes
  reads : ∀ e ∈ entries, ReadsAs limits levels e.element.source e.element.value

theorem parseKey_sound {key : Bytes} (h : parseKey limits rest = .ok (key, rest')) :
    ∃ before source between, rest = before ++ 0x22 :: (source ++ 0x22 :: (between ++ 0x3a :: rest')) ∧
      Whitespace before ∧ Whitespace between ∧ Characters source key ∧ key.length ≤ limits.maxStringBytes := by
  obtain ⟨before, hsplit, hbefore⟩ := skipWhitespace_split rest
  unfold parseKey at h
  simp only at h
  split_ifs at h with hquote
  obtain ⟨⟨key', tail⟩, hstring, h⟩ := bind_eq_ok.mp h
  obtain ⟨source, hsource, hcharacters, hshort⟩ := parseString_sound hstring
  obtain ⟨between, hbetween, hblank⟩ := skipWhitespace_split tail
  simp only at h
  split_ifs at h with hcolon
  simp only [Except.ok.injEq, Prod.mk.injEq] at h
  obtain ⟨rfl, rfl⟩ := h
  refine ⟨before, source, between, ?_, hbefore, hblank, hcharacters, hshort⟩
  calc rest = before ++ skipWhitespace rest := hsplit
    _ = before ++ 0x22 :: (source ++ 0x22 :: tail) := by rw [eq_cons_of_head (not_not.mp hquote), hsource]
    _ = before ++ 0x22 :: (source ++ 0x22 :: (between ++ skipWhitespace tail)) := by rw [← hbetween]
    _ = _ := by rw [eq_cons_of_head (not_not.mp hcolon), List.tail_cons]

theorem parseKey_complete {before source between key : Bytes} (hbefore : Whitespace before)
    (hbetween : Whitespace between) (hcharacters : Characters source key)
    (hshort : key.length ≤ limits.maxStringBytes) :
    parseKey limits (before ++ 0x22 :: (source ++ 0x22 :: (between ++ 0x3a :: rest))) = .ok (key, rest) := by
  unfold parseKey
  rw [skipWhitespace_blank hbefore, skipWhitespace_cons (by decide)]
  simp only [List.head?_cons, ne_eq, not_true, if_false, List.tail_cons]
  rw [parseString_complete hcharacters hshort, ok_bind]
  simp only
  rw [skipWhitespace_blank hbetween, skipWhitespace_cons (by decide)]
  rfl

/-- What the loop over an object took. -/
theorem parseMembers_sound (hvalue : SoundAt limits levels value) {rounds : Nat} {object : List (Bytes × Value ρ)}
    (h : parseMembers limits value rounds items rest object = .ok (v, items', rest')) :
    ∃ entries, rest = joined (entries.map Entry.text) ++ 0x7d :: rest' ∧ MembersRead limits levels entries ∧
      v = .object (object ++ entries.map Entry.member) ∧
      items' = items + ((entries.map Entry.member).map fun m => m.2.count).sum ∧ items' ≤ limits.maxItems ∧
      (object ++ entries.map Entry.member).length ≤ limits.maxObjectMembers ∧
      ((object.map Prod.fst).Nodup → ((object ++ entries.map Entry.member).map Prod.fst).Nodup) := by
  induction rounds generalizing items rest object with
  | zero => simp [parseMembers] at h
  | succ rounds ih =>
    unfold parseMembers at h
    obtain ⟨⟨key, rest₁⟩, hkey, hlater⟩ := bind_eq_ok.mp h
    simp only at hlater
    obtain ⟨⟨w, items₁, rest₂⟩, hone, h⟩ := bind_eq_ok.mp hlater
    obtain ⟨before, keySource, between, rfl, hbefore, hbetween, hcharacters, hshort⟩ := parseKey_sound hkey
    obtain ⟨inner, source, rfl, hinner, hreads, rfl, hitems⟩ := hvalue hone
    simp only at h
    obtain ⟨after, hafter, hblank⟩ := skipWhitespace_split rest₂
    obtain ⟨entry, hentry⟩ : ∃ e : Entry (Number ρ), e = ⟨before, keySource, key, between, inner, source, w, after⟩ :=
      ⟨_, rfl⟩
    have htext : ∀ tail, before ++ 0x22 :: (keySource ++ 0x22 :: (between ++ 0x3a ::
        (inner ++ (source ++ (after ++ tail))))) = entry.text ++ tail := by
      intro tail
      rw [hentry]
      simp [Entry.text, Element.text]
    have hspaced : entry.Spaced := by
      rw [hentry]
      exact ⟨hbefore, hbetween, hinner, hblank⟩
    have hkeys : Characters entry.keySource entry.key ∧ entry.key.length ≤ limits.maxStringBytes := by
      rw [hentry]
      exact ⟨hcharacters, hshort⟩
    have hread : ReadsAs limits levels entry.element.source entry.element.value := by
      rw [hentry]
      exact hreads
    have hmember : entry.member = (key, w) := by
      rw [hentry]
      rfl
    split_ifs at h with hfull hduplicate
    have hnew : (object.map Prod.fst).Nodup → ((object ++ [(key, w)]).map Prod.fst).Nodup := by
      intro hnodup
      rw [any_key] at hduplicate
      rw [List.map_append, List.nodup_append']
      exact ⟨hnodup, List.nodup_singleton _, by simpa using hduplicate⟩
    rw [hafter]
    split at h
    · simp at h
    · next b tail hskip =>
      rw [hskip, htext]
      split_ifs at h with hcomma hclose
      · obtain ⟨entries, rfl, hmembers, rfl, rfl, hmax, hlength, hnodup⟩ := ih h
        refine ⟨entry :: entries, ?_, ⟨by simp, ?_, ?_, ?_⟩, ?_, ?_, hmax, ?_, ?_⟩
        · rw [List.map_cons, joined_cons _ (by simpa using hmembers.some), hcomma, List.append_assoc,
            List.cons_append]
        · exact List.forall_mem_cons.mpr ⟨hspaced, hmembers.spaced⟩
        · exact List.forall_mem_cons.mpr ⟨hkeys, hmembers.keys⟩
        · exact List.forall_mem_cons.mpr ⟨hread, hmembers.reads⟩
        · simp [hmember]
        · simp [hmember, Nat.add_assoc]
        · simpa [hmember] using hlength
        · intro hdistinct
          simpa [hmember] using hnodup (hnew hdistinct)
      · simp only [Except.ok.injEq, Prod.mk.injEq] at h
        obtain ⟨rfl, rfl, rfl⟩ := h
        refine ⟨[entry], by rw [hclose]; rfl, ⟨by simp, ?_, ?_, ?_⟩, by simp [hmember], by simp [hmember], hitems,
          ?_, ?_⟩
        · exact List.forall_mem_singleton.mpr hspaced
        · exact List.forall_mem_singleton.mpr hkeys
        · exact List.forall_mem_singleton.mpr hread
        · simp
          omega
        · rw [List.map_singleton, hmember]
          exact hnew

/-- The loop takes every object. -/
theorem parseMembers_complete (hvalue : CompleteAt limits levels value) {entries : List (Entry (Number ρ))}
    (hmembers : MembersRead limits levels entries) {rounds : Nat} (hrounds : entries.length ≤ rounds)
    {object : List (Bytes × Value ρ)}
    (hitems : items + ((entries.map Entry.member).map fun m => m.2.count).sum ≤ limits.maxItems)
    (hlength : (object ++ entries.map Entry.member).length ≤ limits.maxObjectMembers)
    (hnodup : ((object ++ entries.map Entry.member).map Prod.fst).Nodup) :
    parseMembers limits value rounds items (joined (entries.map Entry.text) ++ 0x7d :: rest) object =
      .ok (.object (object ++ entries.map Entry.member),
        items + ((entries.map Entry.member).map fun m => m.2.count).sum, rest) := by
  obtain ⟨hsome, hspaced, hkeys, hreads⟩ := hmembers
  induction entries generalizing rounds items object with
  | nil => exact absurd rfl hsome
  | cons e entries ih =>
    obtain ⟨rounds, rfl⟩ : ∃ n, rounds = n + 1 := ⟨rounds - 1, by simp at hrounds; omega⟩
    obtain ⟨hbefore, hbetween, hinner, hafter⟩ := hspaced e (List.mem_cons_self ..)
    obtain ⟨hcharacters, hshort⟩ := hkeys e (List.mem_cons_self ..)
    simp only [List.map_cons, List.sum_cons] at hitems
    have hroom : ¬ limits.maxObjectMembers ≤ object.length := by
      simp at hlength
      omega
    have hnew : ¬ object.any (·.1 == e.key) = true := by
      rw [any_key]
      intro hold
      rw [List.map_append, List.nodup_append'] at hnodup
      exact hnodup.2.2 hold (List.mem_cons_self ..)
    have hkey : ∀ tail, parseKey limits (e.text ++ tail) = .ok (e.key, e.element.text ++ tail) := by
      intro tail
      have hparsed := @parseKey_complete limits (e.element.text ++ tail) _ _ _ _ hbefore hbetween hcharacters hshort
      simpa [Entry.text] using hparsed
    have hone : ∀ b tail, b = 0x2c ∨ b = 0x5d ∨ b = 0x7d → value items (e.element.text ++ b :: tail) =
        .ok (e.element.value, items + e.element.value.count, e.element.after ++ b :: tail) := by
      intro b tail hb
      have hread := @hvalue items _ _ _ _ hinner (hreads e (List.mem_cons_self ..))
        (by simp [Entry.member] at hitems; omega) (endsNumber_blank hafter hb tail)
      simpa [Element.text] using hread
    have hskip : ∀ b tail, isWhitespace b = false → skipWhitespace (e.element.after ++ b :: tail) = b :: tail := by
      intro b tail hb
      rw [skipWhitespace_blank hafter, skipWhitespace_cons hb]
    cases entries with
    | nil =>
      rw [List.map_cons, List.map_nil, joined, parseMembers, hkey, ok_bind]
      simp only
      rw [hone 0x7d rest (.inr (.inr rfl)), ok_bind]
      simp only
      rw [if_neg hroom, if_neg hnew, hskip _ _ (by decide)]
      simp [Entry.member]
    | cons next entries =>
      have hlater := @ih (items + e.element.value.count) rounds (by simpa using hrounds) (object ++ [e.member])
        (by simp [Entry.member] at hitems ⊢; omega) (by simpa using hlength) (by simpa using hnodup) (by simp)
        (fun d hd => hspaced d (List.mem_cons_of_mem _ hd)) (fun d hd => hkeys d (List.mem_cons_of_mem _ hd))
        (fun d hd => hreads d (List.mem_cons_of_mem _ hd))
      rw [List.map_cons, joined_cons _ (by simp), List.append_assoc, List.cons_append, parseMembers, hkey, ok_bind]
      simp only
      rw [hone _ _ (.inl rfl), ok_bind]
      simp only
      rw [if_neg hroom, if_neg hnew, hskip _ _ (by decide)]
      simp only [if_true]
      rw [show (e.key, e.element.value) = e.member from rfl, hlater]
      simp [Nat.add_assoc, Entry.member]

/-- The text of an object. -/
theorem MembersRead.object {entries : List (Entry (Number ρ))} (h : MembersRead limits levels entries)
    (hlength : (entries.map Entry.member).length ≤ limits.maxObjectMembers)
    (hnodup : ((entries.map Entry.member).map Prod.fst).Nodup) :
    ReadsAs limits (levels + 1) (0x7b :: (joined (entries.map Entry.text) ++ [0x7d]))
      (.object (entries.map Entry.member)) := by
  refine ⟨.object h.some h.spaced (fun e he => (h.keys e he).1) fun e he => (h.reads e he).denotes, ?_, ?_⟩
  · apply Nat.lt_succ_of_le
    rw [Node.depth_object_le, List.forall_mem_map]
    exact fun e he => (h.reads e he).depth
  · refine .object hlength hnodup ?_ ?_
    · exact List.forall_mem_map.mpr fun e he => (h.keys e he).2
    · exact List.forall_mem_map.mpr fun e he => (h.reads e he).within

/-- The blanks in front of the members are those in front of the first key. -/
theorem MembersRead.prepend {entries : List (Entry (Number ρ))} (h : MembersRead limits levels entries)
    {blanks : Bytes} (hblank : Whitespace blanks) : ∃ moved, MembersRead limits levels moved ∧
      joined (moved.map Entry.text) = blanks ++ joined (entries.map Entry.text) ∧
      moved.map Entry.member = entries.map Entry.member := by
  obtain ⟨hsome, hspaced, hkeys, hreads⟩ := h
  obtain ⟨e, others, rfl⟩ := List.exists_cons_of_ne_nil hsome
  obtain ⟨⟨hbefore, haround⟩, hspaced⟩ := List.forall_mem_cons.mp hspaced
  obtain ⟨hkey, hkeys⟩ := List.forall_mem_cons.mp hkeys
  obtain ⟨hread, hreads⟩ := List.forall_mem_cons.mp hreads
  refine ⟨{ e with before := blanks ++ e.before } :: others, ⟨by simp, ?_, ?_, ?_⟩, ?_, by simp [Entry.member]⟩
  · exact List.forall_mem_cons.mpr ⟨⟨List.forall_mem_append.mpr ⟨hblank, hbefore⟩, haround⟩, hspaced⟩
  · exact List.forall_mem_cons.mpr ⟨hkey, hkeys⟩
  · exact List.forall_mem_cons.mpr ⟨hread, hreads⟩
  · rw [List.map_cons, List.map_cons, ← joined_prepend]
    simp [Entry.text]

/-- The loop begins behind the blanks in front of the first key. -/
theorem MembersRead.strip {entries : List (Entry (Number ρ))} (h : MembersRead limits levels entries) :
    ∃ blanks moved tail, Whitespace blanks ∧ MembersRead limits levels moved ∧
      joined (entries.map Entry.text) = blanks ++ joined (moved.map Entry.text) ∧
      moved.map Entry.member = entries.map Entry.member ∧ joined (moved.map Entry.text) = 0x22 :: tail := by
  obtain ⟨hsome, hspaced, hkeys, hreads⟩ := h
  obtain ⟨e, others, rfl⟩ := List.exists_cons_of_ne_nil hsome
  obtain ⟨⟨hbefore, haround⟩, hspaced⟩ := List.forall_mem_cons.mp hspaced
  obtain ⟨hkey, hkeys⟩ := List.forall_mem_cons.mp hkeys
  obtain ⟨hread, hreads⟩ := List.forall_mem_cons.mp hreads
  refine ⟨e.before, { e with before := [] } :: others, _, hbefore, ⟨by simp, ?_, ?_, ?_⟩, ?_, by simp [Entry.member],
    joined_head ..⟩
  · exact List.forall_mem_cons.mpr ⟨⟨by simp [Whitespace], haround⟩, hspaced⟩
  · exact List.forall_mem_cons.mpr ⟨hkey, hkeys⟩
  · exact List.forall_mem_cons.mpr ⟨hread, hreads⟩
  · rw [List.map_cons, List.map_cons, ← joined_prepend]
    simp [Entry.text]

theorem parseObject_sound (hvalue : SoundAt limits levels value)
    (h : parseObject limits value (items + 1) rest = .ok (v, items', rest')) (hitems : items + 1 ≤ limits.maxItems) :
    ∃ source, 0x7b :: rest = source ++ rest' ∧ ReadsAs limits (levels + 1) source v ∧ items' = items + v.count ∧
      items' ≤ limits.maxItems := by
  obtain ⟨blanks, hblanks, hblank⟩ := skipWhitespace_split rest
  unfold parseObject at h
  simp only at h
  split_ifs at h with hempty
  · simp only [Except.ok.injEq, Prod.mk.injEq] at h
    obtain ⟨rfl, rfl, rfl⟩ := h
    refine ⟨0x7b :: (blanks ++ [0x7d]), ?_, ⟨.emptyObject hblank, ?_, ?_⟩, by simp, hitems⟩
    · have hclose := eq_cons_of_head hempty
      calc 0x7b :: rest = 0x7b :: (blanks ++ skipWhitespace rest) := by rw [← hblanks]
        _ = 0x7b :: (blanks ++ [0x7d]) ++ (skipWhitespace rest).tail := by
          rw [hclose]
          simp
    · exact Nat.lt_succ_of_le (Node.depth_object_le.mpr (by simp))
    · exact .object (by simp) (by simp) (by simp) (by simp)
  · obtain ⟨entries, hsplit, hread, rfl, rfl, hmax, hlength, hnodup⟩ := parseMembers_sound hvalue h
    obtain ⟨moved, hmoved, htext, hmembers⟩ := hread.prepend hblank
    rw [List.nil_append, ← hmembers] at hlength hnodup ⊢
    refine ⟨_, ?_, hmoved.object hlength (hnodup (by simp)), ?_, by rw [hmembers]; exact hmax⟩
    · rw [hblanks, hsplit, htext]
      simp
    · rw [Node.count_object, hmembers]
      omega

theorem parseObject_complete (hvalue : CompleteAt limits levels value) {entries : List (Entry (Number ρ))}
    (hread : MembersRead limits levels entries)
    (hitems : items + ((entries.map Entry.member).map fun m => m.2.count).sum ≤ limits.maxItems)
    (hlength : (entries.map Entry.member).length ≤ limits.maxObjectMembers)
    (hnodup : ((entries.map Entry.member).map Prod.fst).Nodup) :
    parseObject limits value items (joined (entries.map Entry.text) ++ 0x7d :: rest) =
      .ok (.object (entries.map Entry.member),
        items + ((entries.map Entry.member).map fun m => m.2.count).sum, rest) := by
  obtain ⟨blanks, moved, tail, hblank, hmoved, htext, hmembers, hhead⟩ := hread.strip
  rw [← hmembers] at hitems hlength hnodup ⊢
  have hrounds := length_joined (moved.map Entry.text)
  rw [List.length_map] at hrounds
  unfold parseObject
  simp only
  rw [htext, List.append_assoc, skipWhitespace_blank hblank, hhead, List.cons_append, skipWhitespace_cons (by decide),
    ← List.cons_append, ← hhead, if_neg]
  · refine parseMembers_complete hvalue hmoved ?_ hitems (by simpa using hlength) (by simpa using hnodup)
    rw [List.length_append]
    omega
  · rw [hhead, List.cons_append, List.head?_cons, Option.some.injEq]
    decide

end Items

/-! ## The parser -/

/-- A value of `ParseValue` is what its text denotes. -/
theorem parseValue_sound (levels : Nat) : SoundAt limits levels (parseValue (ρ := ρ) limits levels) := by
  induction levels with
  | zero =>
    intro items rest v items' rest' h
    simp [parseValue] at h
  | succ levels ih =>
    intro items rest v items' rest' h
    obtain ⟨before, hsplit, hbefore⟩ := skipWhitespace_split rest
    unfold parseValue at h
    simp only at h
    split_ifs at h with hfull hbrace hbracket
    · obtain ⟨source, hsource, hreads, hcount, hmax⟩ := parseObject_sound ih h (by omega)
      refine ⟨before, source, ?_, hbefore, hreads, hcount, hmax⟩
      rw [← hsource, ← eq_cons_of_head hbrace]
      exact hsplit
    · obtain ⟨source, hsource, hreads, hcount, hmax⟩ := parseArray_sound ih h (by omega)
      refine ⟨before, source, ?_, hbefore, hreads, hcount, hmax⟩
      rw [← hsource, ← eq_cons_of_head hbracket]
      exact hsplit
    · obtain ⟨source, hsource, hreads, rfl, hcount⟩ := @parseScalar_sound ρ _ limits _ _ levels _ _ _ h
      refine ⟨before, source, ?_, hbefore, hreads, by rw [hcount], by omega⟩
      rw [← hsource]
      exact hsplit

/-- `ParseValue` takes every value. -/
theorem parseValue_complete (levels : Nat) : CompleteAt limits levels (parseValue (ρ := ρ) limits levels) := by
  induction levels with
  | zero =>
    intro items before source v rest hbefore hreads
    exact absurd hreads.depth (Nat.not_lt_zero _)
  | succ levels ih =>
    intro items before source v rest hbefore hreads hitems hrest
    obtain ⟨hdenotes, hdepth, hwithin⟩ := hreads
    have hskip : skipWhitespace (before ++ (source ++ rest)) = source ++ rest := by
      obtain ⟨b, tail, hb, hblank, -⟩ := denotes_head hdenotes
      rw [skipWhitespace_blank hbefore, hb, List.cons_append, skipWhitespace_cons hblank]
    have hcount : 0 < v.count := v.count_pos
    unfold parseValue
    simp only
    rw [if_neg (by omega), hskip]
    cases hdenotes with
    | null =>
      rw [if_neg (by simp), if_neg (by simp)]
      exact parseScalar_word (.inr (.inr ⟨rfl, rfl⟩))
    | true =>
      rw [if_neg (by simp), if_neg (by simp)]
      exact parseScalar_word (.inl ⟨rfl, rfl⟩)
    | false =>
      rw [if_neg (by simp), if_neg (by simp)]
      exact parseScalar_word (.inr (.inl ⟨rfl, rfl⟩))
    | @number n x hvalid hmeaning =>
      obtain ⟨b, tail, hb, hhead⟩ := hvalid.head
      have hother : b ≠ 0x7b ∧ b ≠ 0x5b := by
        rcases hhead with rfl | hdigit
        · decide
        · constructor
          all_goals
            rintro rfl
            exact absurd hdigit (by decide)
      rw [if_neg (by simpa [hb] using hother.1), if_neg (by simpa [hb] using hother.2)]
      exact parseScalar_number hvalid hmeaning hrest
    | text h =>
      cases hwithin with
      | text hshort =>
        rw [if_neg (by simp), if_neg (by simp), List.cons_append, List.append_assoc]
        exact parseScalar_text h hshort
    | emptyArray h =>
      rw [if_neg (by simp), if_pos (by simp), List.cons_append, List.tail_cons, parseArray, List.append_assoc,
        skipWhitespace_blank h, List.singleton_append, skipWhitespace_cons (by decide)]
      rfl
    | @array elements hsome hspaced h =>
      cases hwithin with
      | array hlength hitemsWithin =>
        have hdepths := Node.depth_array_le.mp (Nat.le_of_lt_succ hdepth)
        have hread : ItemsRead limits levels elements := by
          refine ⟨hsome, hspaced, fun e he => ⟨h e he, ?_, ?_⟩⟩
          · exact hdepths _ (List.mem_map_of_mem he)
          · exact hitemsWithin _ (List.mem_map_of_mem he)
        rw [Node.count_array] at hitems ⊢
        rw [if_neg (by simp), if_pos (by simp), List.cons_append, List.tail_cons, List.append_assoc,
          List.singleton_append, parseArray_complete ih hread (by omega) hlength, Nat.add_assoc]
    | emptyObject h =>
      rw [if_pos (by simp), List.cons_append, List.tail_cons, parseObject, List.append_assoc,
        skipWhitespace_blank h, List.singleton_append, skipWhitespace_cons (by decide)]
      rfl
    | @object entries hsome hspaced hkeys h =>
      cases hwithin with
      | object hlength hdistinct hshort hmembersWithin =>
        have hdepths := Node.depth_object_le.mp (Nat.le_of_lt_succ hdepth)
        have hread : MembersRead limits levels entries := by
          refine ⟨hsome, hspaced, fun e he => ⟨hkeys e he, ?_⟩, fun e he => ⟨h e he, ?_, ?_⟩⟩
          · exact hshort _ (List.mem_map_of_mem he)
          · exact hdepths _ (List.mem_map_of_mem he)
          · exact hmembersWithin _ (List.mem_map_of_mem he)
        rw [Node.count_object] at hitems ⊢
        rw [if_pos (by simp), List.cons_append, List.tail_cons, List.append_assoc, List.singleton_append,
          parseObject_complete ih hread (by omega) hlength hdistinct, Nat.add_assoc]

/-- The language of `Parse` under its limits, and what a text of it denotes. -/
structure Language (limits : ParseLimits) (text : Bytes) (v : Value ρ) : Prop where
  some : text ≠ []
  bytes : text.length ≤ limits.maxBytes
  denotes : ∃ before source after, text = before ++ (source ++ after) ∧ Whitespace before ∧ Whitespace after ∧
    Denotes meaning source v
  depth : v.depth ≤ limits.maxDepth
  count : v.count ≤ limits.maxItems
  within : Within limits.bounds v

theorem run_ok {text : Bytes} : Parser.run limits text = .ok v ↔ Language limits text v := by
  unfold Parser.run
  constructor
  · intro h
    split_ifs at h with hempty hlong
    obtain ⟨⟨w, items, rest⟩, hvalue, h⟩ := bind_eq_ok.mp h
    simp only at h
    split_ifs at h with hrest
    rw [Except.ok.injEq] at h
    subst h
    obtain ⟨before, source, rfl, hbefore, hreads, rfl, hmax⟩ := parseValue_sound _ hvalue
    obtain ⟨after, hafter, hblank⟩ := skipWhitespace_split rest
    rw [hrest, List.append_nil] at hafter
    subst hafter
    rw [Nat.zero_add] at hmax
    exact ⟨hempty, not_lt.mp hlong, ⟨before, source, rest, rfl, hbefore, hblank, hreads.denotes⟩,
      Nat.le_of_lt_succ hreads.depth, hmax, hreads.within⟩
  · intro h
    obtain ⟨before, source, after, htext, hbefore, hafter, hdenotes⟩ := h.denotes
    have hreads : ReadsAs limits (limits.maxDepth + 1) source v := ⟨hdenotes, Nat.lt_succ_of_le h.depth, h.within⟩
    have hends : EndsNumber after := by
      intro b hb
      have hblank : isWhitespace b = true := hafter b (List.mem_of_head? hb)
      simp only [isWhitespace, Bool.or_eq_true, beq_iff_eq] at hblank
      rcases hblank with ((rfl | rfl) | rfl) | rfl <;> decide
    have hcount : 0 + v.count ≤ limits.maxItems := by
      rw [Nat.zero_add]
      exact h.count
    have hvalue := parseValue_complete _ hbefore hreads hcount hends
    have hrest : skipWhitespace after = [] := by
      have := skipWhitespace_blank hafter []
      rwa [List.append_nil] at this
    rw [if_neg h.some, if_neg (not_lt.mpr h.bytes), htext, hvalue, ok_bind]
    simp only
    rw [if_pos hrest]

/-- A text denotes one value at most. -/
theorem Language.unique {text : Bytes} {w : Value ρ} (hv : Language limits text v) (hw : Language limits text w) :
    v = w := by
  have hsame : Except.ok v = Except.ok w := (run_ok.mpr hv).symm.trans (run_ok.mpr hw)
  exact Except.ok.inj hsame

/-- **`parse_exact`**: `Parse` is OK on its language only, and gives what the text denotes; every other text is
rejected and leaves `out` as it was. -/
theorem parse_exact (limits : ParseLimits) (text : Bytes) (out : Value ρ) :
    ((parse limits text out).1.code = .ok ↔ ∃ v : Value ρ, Language limits text v) ∧
    (∀ v : Value ρ, Language limits text v → parse limits text out = (Status.ok, v)) ∧
    ((¬ ∃ v : Value ρ, Language limits text v) →
      (parse limits text out).1.code = .rejected ∧ (parse limits text out).2 = out) := by
  unfold parse
  cases hrun : Parser.run (ρ := ρ) limits text with
  | error reason =>
    have hno : ¬ ∃ v : Value ρ, Language limits text v := by
      rintro ⟨v, hv⟩
      rw [run_ok.mpr hv] at hrun
      exact absurd hrun (by simp)
    refine ⟨⟨fun h => ?_, fun h => absurd h hno⟩, fun v hv => absurd ⟨v, hv⟩ hno, fun _ => ⟨rfl, rfl⟩⟩
    simp [rejectJson] at h
  | ok v =>
    have hv := run_ok.mp hrun
    refine ⟨⟨fun _ => ⟨v, hv⟩, fun _ => rfl⟩, fun w hw => ?_, fun hno => absurd ⟨v, hv⟩ hno⟩
    rw [hv.unique hw]

end Reading

end FabricReconciliation
