import ViewSchema.Json.Basic
import ViewSchema.Text.Hexadecimal

/-! Reading JSON text. The grammar is strict: no comments, no trailing commas, no text after the value,
and at most 127 containers inside each other. Numbers beyond the doubles and escapes that name half a
surrogate pair are refused, except in parts that the caller only skips.

A reader takes the characters that are left and gives back what it read with those after it. -/

namespace ViewSchema.Json.Reader

/-- What has to be checked besides the grammar. A skipped part is held to the grammar alone. -/
inductive Mode where
  | checked
  | skipped
deriving DecidableEq

/-- White space of JSON, which is less than that of Unicode. -/
def isSpace (c : Char) : Bool := c == ' ' || c == '\n' || c == '\t' || c == '\r'

def skipSpace (cs : List Char) : List Char := cs.dropWhile isSpace

def expect : List Char → List Char → Option (List Char)
  | [], cs => some cs
  | e :: expected, c :: cs => if e = c then expect expected cs else none
  | _ :: _, [] => none

/-- The decimal digits at the front, and the rest. -/
def digits (cs : List Char) : List Nat × List Char :=
  let (ds, rest) := cs.span Char.isDigit
  (ds.map fun d => d.toNat - '0'.toNat, rest)

/-- Digits taken into an integer while it stays at most `limit`, and the digits left over. -/
def accumulate (limit n : Nat) : List Nat → Nat × List Nat
  | [] => (n, [])
  | d :: ds => if 10 * n + d ≤ limit then accumulate limit (10 * n + d) ds else (n, d :: ds)

/-- The largest significand that is kept; digits beyond it do not count. -/
def maxSignificand : Nat := 18446744073709551615

/-- The largest power of ten that is told from an endless one. -/
def maxPower : Nat := 2147483647

/-- The largest magnitude of a negative integer that is kept exact. -/
def maxNegated : Nat := 9223372036854775808

/-- The parts of a written number. -/
structure NumberText where
  negative : Bool
  whole : List Nat
  fraction : Option (List Nat)
  /-- The power of ten: whether it is negative, and its digits. -/
  power : Option (Bool × List Nat)

/-- A sign and at least one digit after an `e`. -/
def readPower (cs : List Char) : Option ((Bool × List Nat) × List Char) :=
  let (negative, cs) :=
    match cs with
    | '-' :: rest => (true, rest)
    | '+' :: rest => (false, rest)
    | _ => (false, cs)
  match digits cs with
  | ([], _) => none
  | (ds, rest) => some ((negative, ds), rest)

/-- Whether digits may stand before the point: there is one, and no needless zero in front. -/
def isWholePart : List Nat → Bool
  | [] => false
  | [_] => true
  | d :: _ => d != 0

/-- The parts of a number. A whole part has no needless zero in front, and a point or an `e` is
followed by a digit. -/
def readNumberText (cs : List Char) : Option (NumberText × List Char) := do
  let (negative, cs) := match cs with
    | '-' :: rest => (true, rest)
    | _ => (false, cs)
  let (whole, cs) := digits cs
  guard (isWholePart whole)
  let (fraction, cs) ← match cs with
    | '.' :: rest =>
      match digits rest with
      | ([], _) => none
      | (ds, rest) => some (some ds, rest)
    | _ => some (none, cs)
  match cs with
  | 'e' :: rest | 'E' :: rest => do
    let (power, rest) ← readPower rest
    return (⟨negative, whole, fraction, some power⟩, rest)
  | _ => return (⟨negative, whole, fraction, none⟩, cs)

/-- The value of a written number. Whole numbers of 64 bits stay exact, negative zero apart; every
other number is a double, made from the leading digits and a power of ten. -/
def NumberText.value? (t : NumberText) : Option Number :=
  let (leading, dropped) := accumulate maxSignificand 0 t.whole
  let (significand, taken) := match t.fraction with
    | none => (leading, 0)
    | some ds =>
      let (n, rest) := accumulate maxSignificand leading ds
      (n, ds.length - rest.length)
  let exponent : Int := dropped.length - taken
  let float (exponent : Int) := .float <$> Binary64.ofDecimal? t.negative significand exponent
  match t.power with
  | some (negativePower, ds) =>
    let (power, beyond) := accumulate maxPower 0 ds
    if beyond.isEmpty then float (if negativePower then exponent - power else exponent + power)
    else if significand = 0 || negativePower then some (.float ⟨t.negative, 0, 0⟩)
    else none
  | none =>
    if t.fraction.isSome || !dropped.isEmpty then float exponent
    else if !t.negative then some (.integer significand)
    else if 0 < significand ∧ significand ≤ maxNegated then some (.integer (-significand))
    else float 0

def readNumber (mode : Mode) (cs : List Char) : Option (Number × List Char) := do
  let (parts, rest) ← readNumberText cs
  match mode with
  | .checked => return (← parts.value?, rest)
  | .skipped => return (.integer 0, rest)

def readHex4 : List Char → Option (Nat × List Char)
  | a :: b :: c :: d :: rest => do return (← Text.hexNumber? [a, b, c, d], rest)
  | _ => none

/-- The character of a `\u` escape. Characters beyond the first 65536 take two escapes, one for each
half of a surrogate pair. -/
def readUnicodeEscape (mode : Mode) (cs : List Char) : Option (Char × List Char) := do
  let (code, rest) ← readHex4 cs
  if mode = .skipped then return ('?', rest)
  if 0xDC00 ≤ code ∧ code ≤ 0xDFFF then none
  else if 0xD800 ≤ code ∧ code ≤ 0xDBFF then do
    let (low, rest) ← readHex4 (← expect ['\\', 'u'] rest)
    guard (0xDC00 ≤ low ∧ low ≤ 0xDFFF)
    return (Char.ofNat (0x10000 + 0x400 * (code - 0xD800) + (low - 0xDC00)), rest)
  else return (Char.ofNat code, rest)

/-- The character of an escape, after its backslash. -/
def readEscape (mode : Mode) : List Char → Option (Char × List Char)
  | '"' :: rest => some ('"', rest)
  | '\\' :: rest => some ('\\', rest)
  | '/' :: rest => some ('/', rest)
  | 'b' :: rest => some (Char.ofNat 8, rest)
  | 'f' :: rest => some (Char.ofNat 12, rest)
  | 'n' :: rest => some ('\n', rest)
  | 'r' :: rest => some ('\r', rest)
  | 't' :: rest => some ('\t', rest)
  | 'u' :: rest => readUnicodeEscape mode rest
  | _ => none

/-- The characters of a string up to its closing quote. `fuel` bounds the number of characters. -/
def readChars (mode : Mode) : Nat → List Char → Option (List Char × List Char)
  | 0, _ => none
  | _, [] => none
  | fuel + 1, c :: rest =>
    if c = '"' then some ([], rest)
    else if c = '\\' then do
      let (escaped, rest) ← readEscape mode rest
      let (text, rest) ← readChars mode fuel rest
      return (escaped :: text, rest)
    else if c.toNat < 32 then none
    else do
      let (text, rest) ← readChars mode fuel rest
      return (c :: text, rest)

def readText (mode : Mode) (cs : List Char) : Option (String × List Char) := do
  let (text, rest) ← readChars mode (cs.length + 1) cs
  return (.ofList text, rest)

/-- One level of containers is used up; skipped parts have as many as they like. -/
def enter (mode : Mode) (depth : Nat) : Option Nat :=
  match mode with
  | .skipped => some depth
  | .checked => if depth ≤ 1 then none else some (depth - 1)

mutual

/-- A value at the front, white space before it included. `fuel` bounds the number of steps, of
which a character takes at most two, and `depth` is one more than the number of containers that may
still be opened. -/
def readValue (mode : Mode) : Nat → Nat → List Char → Option (Json × List Char)
  | 0, _, _ => none
  | fuel + 1, depth, cs =>
    match skipSpace cs with
    | '"' :: rest => do
      let (text, rest) ← readText mode rest
      return (.string text, rest)
    | '[' :: rest => do
      let depth ← enter mode depth
      match skipSpace rest with
      | ']' :: rest => return (.array [], rest)
      | _ =>
        let (items, rest) ← readItems mode fuel depth rest
        return (.array items, rest)
    | '\x7b' :: rest => do
      let depth ← enter mode depth
      match skipSpace rest with
      | '\x7d' :: rest => return (.object [], rest)
      | _ =>
        let (members, rest) ← readMembers mode fuel depth rest
        return (.object members, rest)
    | 'n' :: rest => do return (.null, ← expect ['u', 'l', 'l'] rest)
    | 't' :: rest => do return (.bool true, ← expect ['r', 'u', 'e'] rest)
    | 'f' :: rest => do return (.bool false, ← expect ['a', 'l', 's', 'e'] rest)
    | cs => do
      let (value, rest) ← readNumber mode cs
      return (.number value, rest)

/-- At least one item, and the closing bracket. -/
def readItems (mode : Mode) : Nat → Nat → List Char → Option (List Json × List Char)
  | 0, _, _ => none
  | fuel + 1, depth, cs => do
    let (item, rest) ← readValue mode fuel depth cs
    match skipSpace rest with
    | ']' :: rest => return ([item], rest)
    | ',' :: rest =>
      let (items, rest) ← readItems mode fuel depth rest
      return (item :: items, rest)
    | _ => none

/-- At least one member, and the closing brace. -/
def readMembers (mode : Mode) : Nat → Nat → List Char → Option (List (String × Json) × List Char)
  | 0, _, _ => none
  | fuel + 1, depth, cs => do
    let (key, rest) ← readText mode (← expect ['"'] (skipSpace cs))
    let (value, rest) ← readValue mode fuel depth (← expect [':'] (skipSpace rest))
    match skipSpace rest with
    | '\x7d' :: rest => return ([(key, value)], rest)
    | ',' :: rest =>
      let (members, rest) ← readMembers mode fuel depth rest
      return ((key, value) :: members, rest)
    | _ => none

end

/-- One more than the number of containers that may stand inside each other. -/
def maxDepth : Nat := 128

/-- Members of an object, one of them at least, and the closing brace. Those that are not wanted are
skipped and left out. -/
def readWanted (wanted : String → Bool) : Nat → List Char → Option (List (String × Json) × List Char)
  | 0, _ => none
  | fuel + 1, cs => do
    let (key, rest) ← readText .checked (← expect ['"'] (skipSpace cs))
    let rest ← expect [':'] (skipSpace rest)
    let mode := if wanted key then Mode.checked else .skipped
    let (value, rest) ← readValue mode (2 * rest.length + 2) (maxDepth - 1) rest
    let kept := if wanted key then [(key, value)] else []
    match skipSpace rest with
    | '\x7d' :: rest => return (kept, rest)
    | ',' :: rest =>
      let (members, rest) ← readWanted wanted fuel rest
      return (kept ++ members, rest)
    | _ => none

/-- A value with nothing but white space after it. -/
def readWhole (cs : List Char) : Option Json := do
  let (value, rest) ← readValue .checked (2 * cs.length + 2) maxDepth cs
  guard (skipSpace rest).isEmpty
  return value

end Reader

/-- The value that a text holds, as it is written. -/
def parse? (text : String) : Option Json := Reader.readWhole text.toList

/-- The document that a text holds, in canonical form. -/
def document? (text : String) : Option Json := (parse? text).map canonical

/-- What a text holds for a reader that wants some members only: the wanted members of an object, in
the order in which they are written, or any other value. -/
def parseWanted? (wanted : String → Bool) (text : String) : Option Json :=
  match Reader.skipSpace text.toList with
  | '\x7b' :: rest =>
    match Reader.skipSpace rest with
    | '\x7d' :: rest => if (Reader.skipSpace rest).isEmpty then some (.object []) else none
    | _ => do
      let (members, rest) ← Reader.readWanted wanted (rest.length + 1) rest
      guard (Reader.skipSpace rest).isEmpty
      return .object members
  | cs => Reader.readWhole cs

end ViewSchema.Json
