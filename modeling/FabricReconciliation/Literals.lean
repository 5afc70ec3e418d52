import FabricReconciliation.Json

/-!
# What the JSON reader makes of strings and numbers (`json.cpp:208-416`)

Each function of the parser takes what the grammar has there, and all of it: a part of the text and what it
stands for, with whatever follows.

* **`parseString_sound`**, **`parseString_complete`** — the characters of a string, with their escapes;
* **`parseNumber_sound`**, **`parseNumber_complete`** — the literals of numbers and their ranges.
-/

namespace FabricReconciliation

open Lib Lib.Json

/-! ## Pieces of the text -/

theorem bind_eq_ok {ε α β : Type} {x : Except ε α} {f : α → Except ε β} {b : β} :
    (x >>= f) = .ok b ↔ ∃ a, x = .ok a ∧ f a = .ok b := by
  cases x <;> simp [bind, Except.bind]

theorem ok_bind {ε α β : Type} (a : α) (f : α → Except ε β) : ((Except.ok a : Except ε α) >>= f) = f a := rfl

theorem skipWhitespace_split (rest : Bytes) : ∃ blanks, rest = blanks ++ skipWhitespace rest ∧ Whitespace blanks :=
  ⟨rest.takeWhile isWhitespace, (List.takeWhile_append_dropWhile ..).symm, fun _ hb => List.mem_takeWhile_imp hb⟩

theorem skipWhitespace_blank {blanks : Bytes} (h : Whitespace blanks) (rest : Bytes) :
    skipWhitespace (blanks ++ rest) = skipWhitespace rest := by
  unfold skipWhitespace
  rw [List.dropWhile_append_of_pos h]

theorem skipWhitespace_cons {b : UInt8} (h : isWhitespace b = false) (rest : Bytes) :
    skipWhitespace (b :: rest) = b :: rest := by
  unfold skipWhitespace
  rw [List.dropWhile_cons, h]
  rfl

theorem appendCodePoint_eq {n : Nat} (h : n ≤ 0x10ffff) : appendCodePoint n = .ok (utf8 n) := by
  have hlow : ∀ k, k &&& 0x3f = k % 64 := fun k => Nat.and_two_pow_sub_one_eq_mod k 6
  have hor : ∀ k, k < 64 → 0x80 ||| k = 0x80 + k := by
    intro k hk
    exact (Nat.two_pow_add_eq_or_of_lt (i := 6) hk 2).symm
  unfold appendCodePoint utf8
  simp only [hlow, Nat.shiftRight_eq_div_pow, hor _ (Nat.mod_lt _ (by decide))]
  split
  · rfl
  split
  · have hhigh : 0xc0 ||| n / 2 ^ 6 = 0xc0 + n / 64 := (Nat.two_pow_add_eq_or_of_lt (i := 5) (by omega) 6).symm
    rw [hhigh]
  split
  · have hhigh : 0xe0 ||| n / 2 ^ 12 = 0xe0 + n / 4096 := (Nat.two_pow_add_eq_or_of_lt (i := 4) (by omega) 14).symm
    rw [hhigh]
  · have hhigh : 0xf0 ||| n / 2 ^ 18 = 0xf0 + n / 262144 := (Nat.two_pow_add_eq_or_of_lt (i := 3) (by omega) 30).symm
    rw [hhigh]

/-! ## Strings -/

theorem hexValue_lt {b : UInt8} {n : Nat} (h : hexValue b = some n) : n < 16 := by
  unfold hexValue at h
  have hb := b.toNat_lt
  split_ifs at h with h₁ h₂ h₃
  all_goals
    rw [Option.some.injEq] at h
    simp only [UInt8.le_iff_toNat_le] at *
    simp at *
    omega

theorem hex4_lt {a b c d : UInt8} {n : Nat} (h : hex4 a b c d = some n) : n < 65536 := by
  unfold hex4 at h
  simp only [bind, Option.bind_eq_some_iff] at h
  obtain ⟨x, hx, y, hy, z, hz, w, hw, hn⟩ := h
  have := hexValue_lt hx
  have := hexValue_lt hy
  have := hexValue_lt hz
  have := hexValue_lt hw
  have hvalue : ((16 * x + y) * 16 + z) * 16 + w = n := Option.some.inj hn
  omega

theorem parseHex4_ok {rest rest' : Bytes} {n : Nat} :
    parseHex4 rest = .ok (n, rest') ↔ ∃ a b c d, rest = a :: b :: c :: d :: rest' ∧ hex4 a b c d = some n := by
  unfold parseHex4
  split
  next a b c d tail =>
    cases hhex : hex4 a b c d with
    | none => simp [hhex]
    | some value =>
      constructor
      · intro h
        simp only [Except.ok.injEq, Prod.mk.injEq] at h
        exact ⟨a, b, c, d, by rw [h.2], by rw [hhex, h.1]⟩
      · rintro ⟨a', b', c', d', heq, hn⟩
        simp only [List.cons.injEq] at heq
        obtain ⟨rfl, rfl, rfl, rfl, rfl⟩ := heq
        rw [hhex, Option.some.injEq] at hn
        rw [hn]
  next hno =>
    constructor
    · simp
    · rintro ⟨a, b, c, d, rfl, -⟩
      exact absurd rfl (hno a b c d rest')

theorem eq_cons_of_head {b : UInt8} {rest : Bytes} (h : rest.head? = some b) : rest = b :: rest.tail :=
  (List.cons_head?_tail h).symm

theorem parseLowSurrogate_ok {first n : Nat} {rest rest' : Bytes} :
    parseLowSurrogate first rest = .ok (n, rest') ↔ ∃ a b c d second,
      rest = [0x5c, 0x75, a, b, c, d] ++ rest' ∧ hex4 a b c d = some second ∧ lowSurrogate second ∧
      n = 0x10000 + (first - 0xd800) * 1024 + (second - 0xdc00) := by
  have hshift : (first - 0xd800) <<< 10 = (first - 0xd800) * 1024 := Nat.shiftLeft_eq _ _
  unfold parseLowSurrogate
  constructor
  · intro h
    split_ifs at h with hmark
    obtain ⟨⟨second, tail⟩, hhex, h⟩ := bind_eq_ok.mp h
    obtain ⟨a, b, c, d, hrest, hvalue⟩ := parseHex4_ok.mp hhex
    simp only at h
    split_ifs at h with hrange
    rw [Except.ok.injEq, Prod.mk.injEq, hshift] at h
    refine ⟨a, b, c, d, second, ?_, hvalue, ?_, h.1.symm⟩
    · rw [← List.take_append_drop 2 rest, not_not.mp hmark, hrest, h.2]
      rfl
    · unfold lowSurrogate
      omega
  · rintro ⟨a, b, c, d, second, rfl, hvalue, hlow, hn⟩
    rw [if_neg (by simp), bind_eq_ok]
    refine ⟨(second, rest'), parseHex4_ok.mpr ⟨a, b, c, d, rfl, hvalue⟩, ?_⟩
    unfold lowSurrogate at hlow
    simp only
    rw [if_neg (by omega), hshift, hn]

/-- The escape `\u` takes a code point that is no surrogate, or a pair of surrogates. -/
theorem parseUnicode_ok {rest rest' pushed : Bytes} : parseUnicode rest = .ok (pushed, rest') ↔
    ∃ source, rest = source ++ rest' ∧ 4 ≤ source.length ∧ Character (0x5c :: 0x75 :: source) pushed := by
  unfold parseUnicode
  rw [bind_eq_ok]
  constructor
  · rintro ⟨⟨first, tail⟩, hhex, h⟩
    obtain ⟨a, b, c, d, rfl, hvalue⟩ := parseHex4_ok.mp hhex
    simp only at h
    split_ifs at h with hhigh hlow
    · obtain ⟨⟨n, tail'⟩, hsecond, hpushed⟩ := bind_eq_ok.mp h
      obtain ⟨a', b', c', d', second, rfl, hvalue', hlow', hn⟩ := parseLowSurrogate_ok.mp hsecond
      have hbound : n ≤ 0x10ffff := by
        have hlow'' := hlow'
        have hhigh' := hhigh
        unfold lowSurrogate at hlow''
        unfold highSurrogate at hhigh'
        omega
      simp only at hpushed
      rw [appendCodePoint_eq hbound, ok_bind] at hpushed
      simp only [pure, Except.pure, Except.ok.injEq, Prod.mk.injEq] at hpushed
      obtain ⟨rfl, rfl⟩ := hpushed
      rw [hn]
      exact ⟨[a, b, c, d, 0x5c, 0x75, a', b', c', d'], rfl, by simp, .pair hvalue hhigh hvalue' hlow'⟩
    · have hlt := hex4_lt hvalue
      rw [appendCodePoint_eq (by omega), ok_bind] at h
      simp only [pure, Except.pure, Except.ok.injEq, Prod.mk.injEq] at h
      obtain ⟨rfl, rfl⟩ := h
      exact ⟨[a, b, c, d], rfl, by simp, .unicode hvalue hhigh hlow⟩
  · rintro ⟨source, rfl, hlong, hcharacter⟩
    cases hcharacter with
    | escape h => simp at hlong
    | @unicode a b c d n h hhigh hlow =>
      have hlt := hex4_lt h
      refine ⟨(n, rest'), parseHex4_ok.mpr ⟨a, b, c, d, rfl, h⟩, ?_⟩
      simp only
      rw [if_neg hhigh, if_neg hlow, appendCodePoint_eq (by omega)]
      rfl
    | @pair a b c d a' b' c' d' n n' h hhigh h' hlow =>
      refine ⟨(n, [0x5c, 0x75, a', b', c', d'] ++ rest'), parseHex4_ok.mpr ⟨a, b, c, d, rfl, h⟩, ?_⟩
      have hsecond : parseLowSurrogate n ([0x5c, 0x75, a', b', c', d'] ++ rest') =
          .ok (0x10000 + (n - 0xd800) * 1024 + (n' - 0xdc00), rest') :=
        parseLowSurrogate_ok.mpr ⟨a', b', c', d', n', rfl, h', hlow, rfl⟩
      simp only
      rw [if_pos hhigh, bind_eq_ok]
      refine ⟨_, hsecond, ?_⟩
      unfold highSurrogate at hhigh
      unfold lowSurrogate at hlow
      simp only
      rw [appendCodePoint_eq (by omega)]
      rfl

/-- What follows a backslash is what makes it a character. -/
theorem parseEscape_ok {rest rest' pushed : Bytes} : parseEscape rest = .ok (pushed, rest') ↔
    ∃ source, rest = source ++ rest' ∧ source ≠ [] ∧ Character (0x5c :: source) pushed := by
  cases rest with
  | nil =>
    constructor
    · intro h
      simp [parseEscape] at h
    · rintro ⟨source, heq, hsome, -⟩
      exact absurd (List.append_eq_nil_iff.mp heq.symm).1 hsome
  | cons escape tail =>
    unfold parseEscape
    simp only
    by_cases hu : escape = 0x75
    · subst hu
      rw [if_pos rfl, parseUnicode_ok]
      constructor
      · rintro ⟨source, rfl, -, hcharacter⟩
        exact ⟨0x75 :: source, rfl, by simp, hcharacter⟩
      · rintro ⟨source, heq, -, hcharacter⟩
        cases hcharacter with
        | plain hcontrol hquote hbackslash => exact absurd rfl hbackslash
        | escape h =>
          simp only [List.singleton_append, List.cons.injEq] at heq
          rw [← heq.1] at h
          simp [escaped] at h
        | @unicode a b c d n h hhigh hlow =>
          simp only [List.cons_append, List.cons.injEq, true_and] at heq
          exact ⟨[a, b, c, d], heq, by simp, .unicode h hhigh hlow⟩
        | @pair a b c d a' b' c' d' n n' h hhigh h' hlow =>
          simp only [List.cons_append, List.cons.injEq, true_and] at heq
          exact ⟨[a, b, c, d, 0x5c, 0x75, a', b', c', d'], heq, by simp, .pair h hhigh h' hlow⟩
    · rw [if_neg hu]
      constructor
      · intro h
        split at h
        next c hescaped =>
          rw [Except.ok.injEq, Prod.mk.injEq] at h
          obtain ⟨rfl, rfl⟩ := h
          exact ⟨[escape], rfl, by simp, .escape hescaped⟩
        · simp at h
      · rintro ⟨source, heq, -, hcharacter⟩
        cases hcharacter with
        | plain hcontrol hquote hbackslash => exact absurd rfl hbackslash
        | escape h =>
          simp only [List.singleton_append, List.cons.injEq] at heq
          rw [heq.1, h, heq.2]
        | unicode h hhigh hlow =>
          simp only [List.cons_append, List.cons.injEq] at heq
          exact absurd heq.1 hu
        | pair h hhigh h' hlow =>
          simp only [List.cons_append, List.cons.injEq] at heq
          exact absurd heq.1 hu

section Characters

variable {limits : ParseLimits} {rest rest' result out : Bytes}

/-- What the loop over a string took. -/
theorem parseCharacters_sound {rounds : Nat} (h : parseCharacters limits rounds rest result = .ok (out, rest')) :
    ∃ source denoted, rest = source ++ 0x22 :: rest' ∧ Characters source denoted ∧ out = result ++ denoted ∧
      (result.length ≤ limits.maxStringBytes → out.length ≤ limits.maxStringBytes) := by
  induction rounds generalizing rest result with
  | zero => simp [parseCharacters] at h
  | succ rounds ih =>
    cases rest with
    | nil => simp [parseCharacters] at h
    | cons raw rest =>
      unfold parseCharacters at h
      split_ifs at h with hcontrol hquote hbackslash hlong
      · rw [Except.ok.injEq, Prod.mk.injEq] at h
        obtain ⟨rfl, rfl⟩ := h
        exact ⟨[], [], by rw [hquote]; rfl, .nil, by simp, id⟩
      · obtain ⟨⟨pushed, tail⟩, hescape, hlater⟩ := bind_eq_ok.mp h
        obtain ⟨source, hsource, -, hcharacter⟩ := parseEscape_ok.mp hescape
        simp only at hlater
        split_ifs at hlater with hlong
        obtain ⟨sources, denoted, rfl, hcharacters, rfl, hbound⟩ := ih hlater
        refine ⟨0x5c :: source ++ sources, pushed ++ denoted, by simp [hbackslash, hsource],
          .cons hcharacter hcharacters, by simp, fun _ => hbound (not_lt.mp hlong)⟩
      · obtain ⟨sources, denoted, rfl, hcharacters, rfl, hbound⟩ := ih h
        exact ⟨[raw] ++ sources, [raw] ++ denoted, by simp, .cons (.plain hcontrol hquote hbackslash) hcharacters,
          by simp, fun _ => hbound (not_lt.mp hlong)⟩

/-- The loop takes every string that is not too long. -/
theorem parseCharacters_complete {source denoted : Bytes} (h : Characters source denoted) {rounds : Nat}
    (hrounds : source.length < rounds) (rest result : Bytes)
    (hbound : (result ++ denoted).length ≤ limits.maxStringBytes) :
    parseCharacters limits rounds (source ++ 0x22 :: rest) result = .ok (result ++ denoted, rest) := by
  induction h generalizing rounds result with
  | nil =>
    obtain ⟨rounds, rfl⟩ : ∃ n, rounds = n + 1 := ⟨rounds - 1, by omega⟩
    rw [List.nil_append, parseCharacters, if_neg (by decide), if_pos rfl, List.append_nil]
  | @cons source denoted sources denoteds hcharacter hrest ih =>
    obtain ⟨rounds, rfl⟩ : ∃ n, rounds = n + 1 := ⟨rounds - 1, by omega⟩
    rw [← List.append_assoc] at hbound
    have hshort : (result ++ denoted).length ≤ limits.maxStringBytes := by
      rw [List.length_append] at hbound
      omega
    -- Only the first byte of a character tells the loop what it is.
    have hescape : ∀ tail, source = 0x5c :: tail → tail ≠ [] →
        parseCharacters limits (rounds + 1) (source ++ sources ++ 0x22 :: rest) result =
          .ok (result ++ denoted ++ denoteds, rest) := by
      intro tail hsource hsome
      subst hsource
      have hparsed : parseEscape (tail ++ (sources ++ 0x22 :: rest)) = .ok (denoted, sources ++ 0x22 :: rest) :=
        parseEscape_ok.mpr ⟨tail, rfl, hsome, hcharacter⟩
      rw [List.append_assoc, List.cons_append, parseCharacters, if_neg (by decide), if_neg (by decide), if_pos rfl,
        hparsed, ok_bind]
      simp only
      rw [if_neg (not_lt.mpr hshort)]
      exact ih (by simp at hrounds; omega) _ hbound
    rw [← List.append_assoc result]
    cases hcharacter with
    | plain hcontrol hquote hbackslash =>
      rw [List.append_assoc, List.singleton_append, parseCharacters, if_neg hcontrol, if_neg hquote,
        if_neg hbackslash, if_neg (not_lt.mpr hshort)]
      exact ih (by simp at hrounds; omega) _ hbound
    | escape h => exact hescape _ rfl (by simp)
    | unicode h hhigh hlow => exact hescape _ rfl (by simp)
    | pair h hhigh h' hlow => exact hescape _ rfl (by simp)

theorem parseString_sound (h : parseString limits rest = .ok (out, rest')) :
    ∃ source, rest = source ++ 0x22 :: rest' ∧ Characters source out ∧ out.length ≤ limits.maxStringBytes := by
  obtain ⟨source, denoted, hrest, hcharacters, hout, hbound⟩ := parseCharacters_sound h
  rw [List.nil_append] at hout
  subst hout
  exact ⟨source, hrest, hcharacters, hbound (by simp)⟩

theorem parseString_complete {source denoted : Bytes} (h : Characters source denoted)
    (hbound : denoted.length ≤ limits.maxStringBytes) :
    parseString limits (source ++ 0x22 :: rest) = .ok (denoted, rest) := by
  exact parseCharacters_complete h (by simp) rest [] (by simpa using hbound)

end Characters

/-! ## Numbers -/

/-- What follows a number does not go on with it. -/
def EndsNumber (rest : Bytes) : Prop :=
  ∀ b, rest.head? = some b → isDigit b = false ∧ b ≠ 0x2e ∧ b ≠ 0x65 ∧ b ≠ 0x45

section Numbers

variable {rest rest' : Bytes}

theorem parseWhole_sound {whole : Bytes} (h : parseWhole rest = .ok (whole, rest')) :
    rest = whole ++ rest' ∧ (whole = [0x30] ∨ Digits whole ∧ whole.head? ≠ some 0x30) := by
  cases rest with
  | nil => simp [parseWhole] at h
  | cons digit tail =>
    unfold parseWhole at h
    simp only at h
    split_ifs at h with hzero hlead hdigit
    · rw [Except.ok.injEq, Prod.mk.injEq] at h
      obtain ⟨rfl, rfl⟩ := h
      exact ⟨rfl, .inl (by rw [hzero])⟩
    · rw [Except.ok.injEq, Prod.mk.injEq] at h
      obtain ⟨rfl, rfl⟩ := h
      refine ⟨by rw [List.cons_append, List.takeWhile_append_dropWhile], .inr ⟨⟨by simp, ?_⟩, by simpa using hzero⟩⟩
      intro b hb
      rcases List.mem_cons.mp hb with rfl | hb
      · exact hdigit
      · exact List.mem_takeWhile_imp hb

theorem parseWhole_complete {whole : Bytes} (h : whole = [0x30] ∨ Digits whole ∧ whole.head? ≠ some 0x30)
    (hrest : ∀ b, rest.head? = some b → isDigit b = false) : parseWhole (whole ++ rest) = .ok (whole, rest) := by
  rcases h with rfl | ⟨hdigits, hzero⟩
  · have hno : rest.head?.any isDigit = false := by
      cases hhead : rest.head? with
      | none => rfl
      | some b => simpa using hrest b hhead
    rw [List.singleton_append, parseWhole, if_pos rfl, hno]
    rfl
  · obtain ⟨d, tail, rfl⟩ := List.exists_cons_of_ne_nil hdigits.1
    have hd := hdigits.2 d (List.mem_cons_self ..)
    have htail : ∀ b ∈ tail, isDigit b = true := fun b hb => hdigits.2 b (List.mem_cons_of_mem _ hb)
    obtain ⟨htake, hdrop⟩ := scan_digits htail hrest
    rw [List.cons_append, parseWhole, if_neg (by simpa using hzero), if_pos hd, htake, hdrop]

theorem parseFraction_sound {fraction : Bytes} (h : parseFraction rest = .ok (fraction, rest')) :
    rest = fraction ++ rest' ∧ (fraction = [] ∨ ∃ digits, fraction = 0x2e :: digits ∧ Digits digits) := by
  unfold parseFraction at h
  split_ifs at h with hpoint hdigit
  · rw [Except.ok.injEq, Prod.mk.injEq] at h
    obtain ⟨rfl, rfl⟩ := h
    refine ⟨?_, .inr ⟨_, rfl, digits_takeWhile hdigit⟩⟩
    rw [List.cons_append, List.takeWhile_append_dropWhile]
    exact eq_cons_of_head hpoint
  · rw [Except.ok.injEq, Prod.mk.injEq] at h
    obtain ⟨rfl, rfl⟩ := h
    exact ⟨rfl, .inl rfl⟩

theorem parseFraction_complete {fraction : Bytes}
    (h : fraction = [] ∨ ∃ digits, fraction = 0x2e :: digits ∧ Digits digits)
    (hrest : ∀ b, rest.head? = some b → isDigit b = false ∧ b ≠ 0x2e) :
    parseFraction (fraction ++ rest) = .ok (fraction, rest) := by
  unfold parseFraction
  rcases h with rfl | ⟨digits, rfl, hdigits⟩
  · rw [List.nil_append, if_neg]
    intro hhead
    exact (hrest _ hhead).2 rfl
  · obtain ⟨htake, hdrop⟩ := scan_digits hdigits.2 fun b hb => (hrest b hb).1
    rw [List.cons_append, if_pos List.head?_cons, List.tail_cons, if_pos (hdigits.head_append rest), htake, hdrop]

theorem exponentSign_split (rest : Bytes) : rest = (exponentSign rest).1 ++ (exponentSign rest).2 ∧
    ((exponentSign rest).1 = [] ∨ (exponentSign rest).1 = [0x2b] ∨ (exponentSign rest).1 = [0x2d]) := by
  unfold exponentSign
  split
  · split_ifs with hsign
    · refine ⟨rfl, ?_⟩
      rcases hsign with rfl | rfl <;> simp
    · exact ⟨rfl, .inl rfl⟩
  · exact ⟨rfl, .inl rfl⟩

theorem parseExponent_sound {exponent : Bytes} (h : parseExponent rest = .ok (exponent, rest')) :
    rest = exponent ++ rest' ∧ (exponent = [] ∨ ∃ letter sign digits, exponent = letter :: (sign ++ digits) ∧
      (letter = 0x65 ∨ letter = 0x45) ∧ (sign = [] ∨ sign = [0x2b] ∨ sign = [0x2d]) ∧ Digits digits) := by
  cases rest with
  | nil =>
    simp only [parseExponent, Except.ok.injEq, Prod.mk.injEq] at h
    obtain ⟨rfl, rfl⟩ := h
    exact ⟨rfl, .inl rfl⟩
  | cons letter tail =>
    obtain ⟨hsplit, hsign⟩ := exponentSign_split tail
    unfold parseExponent at h
    simp only at h
    split_ifs at h with hletter hdigit
    · rw [Except.ok.injEq, Prod.mk.injEq] at h
      obtain ⟨rfl, rfl⟩ := h
      refine ⟨?_, .inr ⟨letter, _, _, rfl, hletter, hsign, digits_takeWhile hdigit⟩⟩
      rw [List.cons_append, List.append_assoc, List.takeWhile_append_dropWhile, ← hsplit]
    · rw [Except.ok.injEq, Prod.mk.injEq] at h
      obtain ⟨rfl, rfl⟩ := h
      exact ⟨rfl, .inl rfl⟩

theorem parseExponent_complete {exponent : Bytes} (h : exponent = [] ∨ ∃ letter sign digits,
      exponent = letter :: (sign ++ digits) ∧ (letter = 0x65 ∨ letter = 0x45) ∧
      (sign = [] ∨ sign = [0x2b] ∨ sign = [0x2d]) ∧ Digits digits) (hrest : EndsNumber rest) :
    parseExponent (exponent ++ rest) = .ok (exponent, rest) := by
  rcases h with rfl | ⟨letter, sign, digits, rfl, hletter, hsign, hdigits⟩
  · cases rest with
    | nil => rfl
    | cons b tail =>
      obtain ⟨-, -, hlow, hhigh⟩ := hrest b rfl
      rw [List.nil_append, parseExponent, if_neg (by simp [hlow, hhigh])]
  · have hscan := scan_digits hdigits.2 fun b hb => (hrest b hb).1
    have hsigned : exponentSign (sign ++ (digits ++ rest)) = (sign, digits ++ rest) := by
      rcases hsign with rfl | rfl | rfl
      · obtain ⟨d, tail, rfl⟩ := List.exists_cons_of_ne_nil hdigits.1
        have hd := hdigits.2 d (List.mem_cons_self ..)
        have hno : ¬ (d = 0x2b ∨ d = 0x2d) := by
          rintro (rfl | rfl)
          all_goals exact absurd hd (by decide)
        simp only [List.nil_append, List.cons_append, exponentSign, if_neg hno]
      · rfl
      · rfl
    rw [List.cons_append, List.append_assoc, parseExponent, if_pos hletter, hsigned]
    simp only
    rw [if_pos (hdigits.head_append rest), hscan.1, hscan.2]

theorem parseLiteral_sound {n : Numeral} (h : parseLiteral rest = .ok (n, rest')) :
    n.Valid ∧ rest = n.text ++ rest' := by
  unfold parseLiteral at h
  obtain ⟨negative, hnegative⟩ : ∃ negative, negative = (rest.head? == some 0x2d) := ⟨_, rfl⟩
  simp only [← hnegative] at h
  obtain ⟨unsigned, hunsigned⟩ : ∃ unsigned, unsigned = if negative = true then rest.tail else rest := ⟨_, rfl⟩
  rw [← hunsigned] at h
  split_ifs at h with htruncated
  obtain ⟨⟨whole, rest₁⟩, hwhole, h⟩ := bind_eq_ok.mp h
  obtain ⟨⟨fraction, rest₂⟩, hfraction, h⟩ := bind_eq_ok.mp h
  obtain ⟨⟨exponent, rest₃⟩, hexponent, h⟩ := bind_eq_ok.mp h
  simp only [pure, Except.pure, Except.ok.injEq, Prod.mk.injEq] at h
  obtain ⟨rfl, rfl⟩ := h
  obtain ⟨hsplit₁, hvalid₁⟩ := parseWhole_sound hwhole
  obtain ⟨hsplit₂, hvalid₂⟩ := parseFraction_sound hfraction
  obtain ⟨hsplit₃, hvalid₃⟩ := parseExponent_sound hexponent
  refine ⟨⟨hvalid₁, hvalid₂, hvalid₃⟩, ?_⟩
  have hrest : rest = (if negative = true then [0x2d] else []) ++ unsigned := by
    rw [hunsigned]
    cases hsign : negative with
    | false => rfl
    | true =>
      rw [hsign] at hnegative
      exact eq_cons_of_head (beq_iff_eq.mp hnegative.symm)
  simp only at hsplit₂ hsplit₃
  rw [hrest, hsplit₁, hsplit₂, hsplit₃]
  simp only [Numeral.text, List.append_assoc]

theorem parseLiteral_complete {n : Numeral} (h : n.Valid) (hrest : EndsNumber rest) :
    parseLiteral (n.text ++ rest) = .ok (n, rest) := by
  obtain ⟨negative, whole, fraction, exponent⟩ := n
  have hdot : ∀ b, (exponent ++ rest).head? = some b → isDigit b = false ∧ b ≠ 0x2e := by
    intro b hb
    rcases h.exponent with rfl | ⟨letter, sign, digits, rfl, hletter, -⟩
    · exact ⟨(hrest b hb).1, (hrest b hb).2.1⟩
    · rw [List.cons_append, List.head?_cons, Option.some.injEq] at hb
      subst hb
      rcases hletter with rfl | rfl <;> decide
  have hdigit : ∀ b, (fraction ++ (exponent ++ rest)).head? = some b → isDigit b = false := by
    intro b hb
    rcases h.fraction with rfl | ⟨digits, rfl, -⟩
    · exact (hdot b hb).1
    · rw [List.cons_append, List.head?_cons, Option.some.injEq] at hb
      subst hb
      decide
  have hparts := parseWhole_complete h.whole hdigit
  have hfraction := parseFraction_complete h.fraction hdot
  have hexponent := parseExponent_complete h.exponent hrest
  obtain ⟨d, tail, hwhole, hd⟩ : ∃ d tail, whole = d :: tail ∧ isDigit d = true := by
    rcases h.whole with rfl | ⟨hdigits, -⟩
    · exact ⟨0x30, [], rfl, by decide⟩
    · obtain ⟨d, tail, rfl⟩ := List.exists_cons_of_ne_nil hdigits.1
      exact ⟨d, tail, rfl, hdigits.2 d (List.mem_cons_self ..)⟩
  have hunsigned : whole ++ (fraction ++ (exponent ++ rest)) ≠ [] := by simp [hwhole]
  unfold parseLiteral
  cases negative with
  | true =>
    have htext : Numeral.text ⟨true, whole, fraction, exponent⟩ ++ rest =
        0x2d :: (whole ++ (fraction ++ (exponent ++ rest))) := by
      simp [Numeral.text]
    rw [htext]
    simp only [List.head?_cons, beq_self_eq_true, if_true, List.tail_cons, true_and, if_neg hunsigned, hparts,
      ok_bind, hfraction, hexponent]
    rfl
  | false =>
    have htext : Numeral.text ⟨false, whole, fraction, exponent⟩ ++ rest =
        whole ++ (fraction ++ (exponent ++ rest)) := by
      simp [Numeral.text]
    have hminus : ((whole ++ (fraction ++ (exponent ++ rest))).head? == some 0x2d) = false := by
      rw [hwhole, List.cons_append, List.head?_cons]
      rw [beq_eq_false_iff_ne]
      intro hsame
      rw [Option.some.inj hsame] at hd
      exact absurd hd (by decide)
    rw [htext]
    simp only [hminus, Bool.false_eq_true, false_and, if_false, hparts, ok_bind, hfraction, hexponent]
    rfl

variable {ρ : Type} [Double ρ]

/-- What a literal means: an integer of the range from `-2^63` to `2^64 - 1`, with the kind that holds it, or what
`strtod` makes of the rest unless it is out of range. -/
def meaning (n : Numeral) : Option (Number ρ) :=
  if n.isInteger then
    if n.int < -2 ^ 63 ∨ 2 ^ 64 ≤ n.int then none
    else if n.int < 2 ^ 63 then some (.integer (Int64.ofInt n.int))
    else some (.unsigned (UInt64.ofNat n.int.toNat))
  else
    let (value, outOfRange) := Double.strtod (ρ := ρ) n.text
    if Double.isFinite value = true ∧ ¬ (outOfRange = true ∧ Double.isZero value = true) then some (.real value)
    else none

theorem numberOf_ok {n : Numeral} {x : Number ρ} : numberOf n = .ok x ↔ meaning n = some x := by
  unfold numberOf meaning
  cases hinteger : n.isInteger with
  | false =>
    simp only [Bool.not_false, if_true, Bool.false_eq_true, if_false]
    obtain ⟨value, outOfRange⟩ := Double.strtod (ρ := ρ) n.text
    simp only
    cases hfinite : Double.isFinite value <;> cases hzero : Double.isZero value <;> cases outOfRange <;> simp
  | true =>
    simp only [Bool.not_true, Bool.false_eq_true, if_false, if_true]
    unfold strtoll strtoull Numeral.int
    cases hnegative : n.negative with
    | true =>
      simp only [if_true]
      by_cases hover : 2 ^ 63 < natOf n.whole
      · rw [if_pos hover, if_pos (.inl (by omega))]
        simp
      · rw [if_neg hover, if_neg (by omega), if_pos (by omega)]
        simp
    | false =>
      simp only [Bool.false_eq_true, if_false]
      by_cases hover : 2 ^ 64 ≤ natOf n.whole
      · rw [if_pos hover, if_pos (.inr (by omega))]
        simp
      · have hsame : (UInt64.ofNat (natOf n.whole)).toNat = natOf n.whole :=
          UInt64.toNat_ofNat_of_lt' (not_le.mp hover)
        rw [if_neg hover, if_neg (by omega)]
        simp only [hsame]
        by_cases hsmall : natOf n.whole ≤ 2 ^ 63 - 1
        · rw [if_pos hsmall, if_pos (by omega)]
          simp
        · rw [if_neg hsmall, if_neg (by omega)]
          simp

theorem parseNumber_sound {x : Number ρ} (h : parseNumber rest = .ok (x, rest')) :
    ∃ n : Numeral, n.Valid ∧ rest = n.text ++ rest' ∧ meaning n = some x := by
  unfold parseNumber at h
  obtain ⟨⟨n, tail⟩, hliteral, h⟩ := bind_eq_ok.mp h
  obtain ⟨x', hnumber, h⟩ := bind_eq_ok.mp h
  simp only [pure, Except.pure, Except.ok.injEq, Prod.mk.injEq] at h
  obtain ⟨rfl, rfl⟩ := h
  obtain ⟨hvalid, hsplit⟩ := parseLiteral_sound hliteral
  exact ⟨n, hvalid, hsplit, numberOf_ok.mp hnumber⟩

theorem parseNumber_complete {n : Numeral} {x : Number ρ} (hvalid : n.Valid) (hmeaning : meaning n = some x)
    (hrest : EndsNumber rest) : parseNumber (n.text ++ rest) = .ok (x, rest) := by
  unfold parseNumber
  rw [parseLiteral_complete hvalid hrest, ok_bind]
  simp only
  rw [numberOf_ok.mpr hmeaning]
  rfl

end Numbers

end FabricReconciliation
