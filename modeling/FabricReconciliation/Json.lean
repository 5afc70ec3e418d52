import FabricReconciliation.Lib.Json
import FabricReconciliation.Vocabulary

/-!
# The JSON reader (`json.hpp`, `json.cpp:36-422`)

A position in the text is what is left of it. The recursion of `ParseValue` is on the levels of nesting that
`max_depth` leaves; a loop has as many rounds as there are bytes left, and each takes at least one. What the
machine does to a double is a parameter.

* **`parseValue`** — `ParseValue` and what it calls;
* **`parse`** — `Parse`.
-/

namespace FabricReconciliation

open Lib Lib.Json

/-- What the code uses of `double`. -/
class Double (ρ : Type) where
  /-- `std::strtod`, and whether it set `ERANGE`. -/
  strtod : Bytes → ρ × Bool
  isFinite : ρ → Bool
  isZero : ρ → Bool
  /-- `real_ < -9223372036854775808.0 || real_ > 9223372036854775807.0`. -/
  outsideInt64 : ρ → Bool
  toInt64 : ρ → Int64
  /-- `real_ < 0.0 || real_ > 18446744073709551615.0`. -/
  outsideUInt64 : ρ → Bool
  toUInt64 : ρ → UInt64
  /-- `%.17g`. -/
  print : ρ → Bytes

/-- The three kinds of number of `class Value`. -/
inductive Number (ρ : Type)
  | integer (i : Int64)
  | unsigned (u : UInt64)
  | real (x : ρ)

/-- `class Value` (`json.hpp:50`). -/
abbrev Value (ρ : Type) := Node (Number ρ)

/-- `struct ParseLimits`; each field is only compared. -/
structure ParseLimits where
  maxBytes : Nat := 16777216
  maxDepth : Nat := 64
  maxItems : Nat := 4000000
  maxStringBytes : Nat := 1048576
  maxObjectMembers : Nat := 1000000
  maxArrayItems : Nat := 4000000

/-- `Reject` (`json.cpp:23`): every failure is one of these, so the parser's own failures are their reasons. -/
def rejectJson (reason : String) : Status := ⟨.rejected, .none, "json: " ++ reason⟩

abbrev Parsed (α : Type) := Except String α

/-! ## `class Parser` -/

/-- `SkipWhitespace`. -/
def skipWhitespace (rest : Bytes) : Bytes := rest.dropWhile isWhitespace

/-- `AppendCodePoint` (`json.cpp:208`). -/
def appendCodePoint (codePoint : Nat) : Parsed Bytes :=
  if codePoint ≤ 0x7f then .ok [UInt8.ofNat codePoint]
  else if codePoint ≤ 0x7ff then
    .ok [UInt8.ofNat (0xc0 ||| codePoint >>> 6), UInt8.ofNat (0x80 ||| codePoint &&& 0x3f)]
  else if codePoint ≤ 0xffff then
    .ok [UInt8.ofNat (0xe0 ||| codePoint >>> 12), UInt8.ofNat (0x80 ||| (codePoint >>> 6) &&& 0x3f),
      UInt8.ofNat (0x80 ||| codePoint &&& 0x3f)]
  else if codePoint ≤ 0x10ffff then
    .ok [UInt8.ofNat (0xf0 ||| codePoint >>> 18), UInt8.ofNat (0x80 ||| (codePoint >>> 12) &&& 0x3f),
      UInt8.ofNat (0x80 ||| (codePoint >>> 6) &&& 0x3f), UInt8.ofNat (0x80 ||| codePoint &&& 0x3f)]
  else .error "code point out of range"

/-- `ParseHex4` (`json.cpp:236`). -/
def parseHex4 : Bytes → Parsed (Nat × Bytes)
  | a :: b :: c :: d :: rest => match hex4 a b c d with
    | some value => .ok (value, rest)
    | none => .error "invalid hex digit in unicode escape"
  | _ => .error "truncated unicode escape"

/-- What follows a high surrogate. -/
def parseLowSurrogate (first : Nat) (rest : Bytes) : Parsed (Nat × Bytes) :=
  if rest.take 2 ≠ [0x5c, 0x75] then .error "high surrogate without a low surrogate"
  else do
    let (second, rest) ← parseHex4 (rest.drop 2)
    if second < 0xdc00 ∨ 0xdfff < second then .error "high surrogate followed by a non low surrogate"
    else .ok (0x10000 + (first - 0xd800) <<< 10 + (second - 0xdc00), rest)

/-- The escape `\u` (`json.cpp:285`). -/
def parseUnicode (rest : Bytes) : Parsed (Bytes × Bytes) := do
  let (first, rest) ← parseHex4 rest
  if highSurrogate first then do
    let (codePoint, rest) ← parseLowSurrogate first rest
    return (← appendCodePoint codePoint, rest)
  else if lowSurrogate first then .error "lone low surrogate"
  else return (← appendCodePoint first, rest)

/-- What follows a backslash: the bytes that are pushed. -/
def parseEscape : Bytes → Parsed (Bytes × Bytes)
  | [] => .error "unterminated escape sequence"
  | escape :: rest =>
    if escape = 0x75 then parseUnicode rest
    else match escaped escape with
      | some c => .ok ([c], rest)
      | none => .error "invalid escape character"

/-- The loop of `ParseString` (`json.cpp:260`), behind the opening quote. -/
def parseCharacters (limits : ParseLimits) : Nat → Bytes → Bytes → Parsed (Bytes × Bytes)
  | 0, _, _ => .error "unterminated string"
  | _ + 1, [], _ => .error "unterminated string"
  | rounds + 1, raw :: rest, result =>
    if raw < 0x20 then .error "raw control character inside a string"
    else if raw = 0x22 then .ok (result, rest)
    else if raw = 0x5c then do
      let (pushed, rest) ← parseEscape rest
      if limits.maxStringBytes < (result ++ pushed).length then .error "string exceeds max_string_bytes"
      else parseCharacters limits rounds rest (result ++ pushed)
    else if limits.maxStringBytes < (result ++ [raw]).length then .error "string exceeds max_string_bytes"
    else parseCharacters limits rounds rest (result ++ [raw])

/-- `ParseString`. -/
def parseString (limits : ParseLimits) (rest : Bytes) : Parsed (Bytes × Bytes) :=
  parseCharacters limits rest.length rest []

/-- The integer part of `ParseNumber` (`json.cpp:338`). -/
def parseWhole : Bytes → Parsed (Bytes × Bytes)
  | [] => .error "number has no integer part"
  | digit :: rest =>
    if digit = 0x30 then
      if rest.head?.any isDigit then .error "number has a leading zero" else .ok ([digit], rest)
    else if isDigit digit then .ok (digit :: rest.takeWhile isDigit, rest.dropWhile isDigit)
    else .error "number has no integer part"

/-- Its fraction. -/
def parseFraction (rest : Bytes) : Parsed (Bytes × Bytes) :=
  if rest.head? = some 0x2e then
    if rest.tail.head?.any isDigit then .ok (0x2e :: rest.tail.takeWhile isDigit, rest.tail.dropWhile isDigit)
    else .error "fraction has no digits"
  else .ok ([], rest)

/-- The sign of an exponent. -/
def exponentSign : Bytes → Bytes × Bytes
  | sign :: rest => if sign = 0x2b ∨ sign = 0x2d then ([sign], rest) else ([], sign :: rest)
  | [] => ([], [])

/-- Its exponent. -/
def parseExponent : Bytes → Parsed (Bytes × Bytes)
  | [] => .ok ([], [])
  | letter :: rest =>
    if letter = 0x65 ∨ letter = 0x45 then
      let (sign, rest) := exponentSign rest
      if rest.head?.any isDigit then .ok (letter :: (sign ++ rest.takeWhile isDigit), rest.dropWhile isDigit)
      else .error "exponent has no digits"
    else .ok ([], letter :: rest)

/-- The literal that `ParseNumber` takes. -/
def parseLiteral (rest : Bytes) : Parsed (Numeral × Bytes) := do
  let negative := rest.head? == some 0x2d
  let unsigned := if negative then rest.tail else rest
  if negative ∧ unsigned = [] then .error "truncated number"
  else do
    let (whole, rest) ← parseWhole unsigned
    let (fraction, rest) ← parseFraction rest
    let (exponent, rest) ← parseExponent rest
    return ({ negative, whole, fraction, exponent }, rest)

/-- `std::strtoll` of a negative literal, with `ERANGE` none. -/
def strtoll (digits : Bytes) : Option Int64 :=
  if 2 ^ 63 < natOf digits then none else some (Int64.ofInt (-natOf digits))

/-- `std::strtoull` of digits. -/
def strtoull (digits : Bytes) : Option UInt64 :=
  if 2 ^ 64 ≤ natOf digits then none else some (UInt64.ofNat (natOf digits))

section Values

variable {ρ : Type} [Double ρ]

/-- What `ParseNumber` makes of a literal (`json.cpp:383`). -/
def numberOf (n : Numeral) : Parsed (Number ρ) :=
  if !n.isInteger then
    let (value, outOfRange) := Double.strtod (ρ := ρ) n.text
    if outOfRange && (Double.isZero value || !Double.isFinite value) then .error "real number is out of range"
    else if !Double.isFinite value then .error "real number is not finite"
    else .ok (.real value)
  else if n.negative then
    match strtoll n.whole with
    | none => .error "integer literal is out of range"
    | some value => .ok (.integer value)
  else match strtoull n.whole with
    | none => .error "integer literal is out of range"
    | some value =>
      if value.toNat ≤ 2 ^ 63 - 1 then .ok (.integer (Int64.ofInt value.toNat)) else .ok (.unsigned value)

/-- `ParseNumber` (`json.cpp:332`). -/
def parseNumber (rest : Bytes) : Parsed (Number ρ × Bytes) := do
  let (literal, rest) ← parseLiteral rest
  return (← numberOf literal, rest)

/-- `ParseLiteral` (`json.cpp:110`). -/
def parseWord (word : Bytes) (value : Value ρ) (rest : Bytes) : Parsed (Value ρ × Bytes) :=
  if word.isPrefixOf rest then .ok (value, rest.drop word.length) else .error "invalid literal"

/-- The loop of `ParseArray` (`json.cpp:170`); `value` is `ParseValue(depth + 1, ·)`. -/
def parseItems (limits : ParseLimits) (value : Nat → Bytes → Parsed (Value ρ × Nat × Bytes)) :
    Nat → Nat → Bytes → List (Value ρ) → Parsed (Value ρ × Nat × Bytes)
  | 0, _, _, _ => .error "unexpected end of input"
  | rounds + 1, items, rest, array => do
    let (v, items, rest) ← value items rest
    if limits.maxArrayItems ≤ array.length then .error "array exceeds max_array_items"
    else match skipWhitespace rest with
      | [] => .error "unterminated array"
      | b :: rest =>
        if b = 0x2c then parseItems limits value rounds items rest (array ++ [v])
        else if b = 0x5d then .ok (.array (array ++ [v]), items, rest)
        else .error "expected a comma or a closing bracket"

/-- `ParseArray`, behind the bracket. -/
def parseArray (limits : ParseLimits) (value : Nat → Bytes → Parsed (Value ρ × Nat × Bytes)) (items : Nat)
    (rest : Bytes) : Parsed (Value ρ × Nat × Bytes) :=
  let rest := skipWhitespace rest
  if rest.head? = some 0x5d then .ok (.array [], items, rest.tail)
  else parseItems limits value (rest.length + 1) items rest []

/-- The key of a member, its colon, and what follows. -/
def parseKey (limits : ParseLimits) (rest : Bytes) : Parsed (Bytes × Bytes) :=
  let rest := skipWhitespace rest
  if rest.head? ≠ some 0x22 then .error "object key must be a string"
  else do
    let (key, rest) ← parseString limits rest.tail
    let rest := skipWhitespace rest
    if rest.head? ≠ some 0x3a then .error "object member is missing its colon" else .ok (key, rest.tail)

/-- The loop of `ParseObject` (`json.cpp:130`). -/
def parseMembers (limits : ParseLimits) (value : Nat → Bytes → Parsed (Value ρ × Nat × Bytes)) :
    Nat → Nat → Bytes → List (Bytes × Value ρ) → Parsed (Value ρ × Nat × Bytes)
  | 0, _, _, _ => .error "object key must be a string"
  | rounds + 1, items, rest, object => do
    let (key, rest) ← parseKey limits rest
    let (v, items, rest) ← value items rest
    if limits.maxObjectMembers ≤ object.length then .error "object exceeds max_object_members"
    else if object.any (·.1 == key) then .error "duplicate object key"
    else match skipWhitespace rest with
      | [] => .error "unterminated object"
      | b :: rest =>
        if b = 0x2c then parseMembers limits value rounds items rest (object ++ [(key, v)])
        else if b = 0x7d then .ok (.object (object ++ [(key, v)]), items, rest)
        else .error "expected a comma or a closing brace"

/-- `ParseObject`, behind the brace. -/
def parseObject (limits : ParseLimits) (value : Nat → Bytes → Parsed (Value ρ × Nat × Bytes)) (items : Nat)
    (rest : Bytes) : Parsed (Value ρ × Nat × Bytes) :=
  let rest := skipWhitespace rest
  if rest.head? = some 0x7d then .ok (.object [], items, rest.tail)
  else parseMembers limits value (rest.length + 1) items rest []

/-- The values that are not made of others, with the count of items that `AccountItem` made. -/
def parseScalar (limits : ParseLimits) (items : Nat) : Bytes → Parsed (Value ρ × Nat × Bytes)
  | [] => .error "unexpected end of input"
  | b :: rest =>
    if b = 0x22 then do
      let (text, rest) ← parseString limits rest
      return (.text text, items, rest)
    else if b = 0x74 then do
      let (v, rest) ← parseWord [0x74, 0x72, 0x75, 0x65] (.boolean true) (b :: rest)
      return (v, items, rest)
    else if b = 0x66 then do
      let (v, rest) ← parseWord [0x66, 0x61, 0x6c, 0x73, 0x65] (.boolean false) (b :: rest)
      return (v, items, rest)
    else if b = 0x6e then do
      let (v, rest) ← parseWord [0x6e, 0x75, 0x6c, 0x6c] .null (b :: rest)
      return (v, items, rest)
    else if b = 0x2d ∨ isDigit b then do
      let (n, rest) ← parseNumber (b :: rest)
      return (.number n, items, rest)
    else .error "unexpected character where a value was expected"

/-- `ParseValue` (`json.cpp:75`): the levels are `max_depth + 1 - depth`, and none is a depth over `max_depth`. -/
def parseValue (limits : ParseLimits) : Nat → Nat → Bytes → Parsed (Value ρ × Nat × Bytes)
  | 0, _, _ => .error "depth exceeds max_depth"
  | levels + 1, items, rest =>
    if limits.maxItems ≤ items then .error "document exceeds max_items"
    else
      let rest := skipWhitespace rest
      if rest.head? = some 0x7b then parseObject limits (parseValue limits levels) (items + 1) rest.tail
      else if rest.head? = some 0x5b then parseArray limits (parseValue limits levels) (items + 1) rest.tail
      else parseScalar limits (items + 1) rest

/-- `Parser::Run` (`json.cpp:40`). -/
def Parser.run (limits : ParseLimits) (text : Bytes) : Parsed (Value ρ) :=
  if text = [] then .error "empty input"
  else if limits.maxBytes < text.length then .error "input exceeds max_bytes"
  else do
    let (v, _, rest) ← parseValue limits (limits.maxDepth + 1) 0 text
    if skipWhitespace rest = [] then .ok v else .error "trailing content after the top-level value"

/-- `Parse` (`json.cpp:746`): the status, and what `out` holds then. -/
def parse (limits : ParseLimits) (text : Bytes) (out : Value ρ) : Status × Value ρ :=
  match Parser.run limits text with
  | .error reason => (rejectJson reason, out)
  | .ok v => (Status.ok, v)

end Values

end FabricReconciliation
