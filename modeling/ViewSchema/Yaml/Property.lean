import ViewSchema.Text.Hexadecimal
import ViewSchema.Yaml.Glyph
import ViewSchema.Yaml.Token

/-! Anchors, references and tags. A tag is written in full between angle brackets, or as a handle and a
suffix; percent escapes stand for the bytes of UTF-8. -/

namespace ViewSchema.Yaml

/-- The name of an anchor or of a reference to one, after its sign. -/
def takeName (gs : List Glyph) : Option (String × List Glyph) := do
  let (name, rest) := takeChars isWordChar gs
  guard (!name.isEmpty)
  guard (endsWord rest || rest.head?.any fun g => "?:,]\x7d%@`".toList.contains g.char)
  return (.ofList name, rest)

/-- A character of a tag. Brackets and commas would end a tag in a flow collection, so they are allowed
only where nothing follows it. -/
def isTagChar (enclosed : Bool) (c : Char) : Bool :=
  isWordChar c || ";/?:@&=+$.!~*'()".toList.contains c || (enclosed && ",[]".toList.contains c)

/-- The number of bytes that follow the first byte of a character. -/
def bytesAfter? (byte : Nat) : Option Nat :=
  if byte < 0x80 then some 0
  else if byte < 0xC0 then none
  else if byte < 0xE0 then some 1
  else if byte < 0xF0 then some 2
  else if byte < 0xF8 then some 3
  else none

/-- The number of bytes to come after one more byte of a character, of which `pending` were to come. -/
def bytesLeft? (pending byte : Nat) : Option Nat :=
  if pending = 0 then bytesAfter? byte
  else if 0x80 ≤ byte ∧ byte < 0xC0 then some (pending - 1)
  else none

/-- The bytes of a part of a tag. `pending` is the number of bytes that the last character still needs. -/
def takeTagBytes (enclosed : Bool) (pending : Nat) : List Glyph → Option (Tag × List Glyph)
  | [] => if pending = 0 then some ([], []) else none
  | g :: rest =>
    if g.char = '%' then
      match rest with
      | high :: low :: rest => do
        let byte ← Text.hexNumber? [high.char, low.char]
        let (bytes, rest) ← takeTagBytes enclosed (← bytesLeft? pending byte) rest
        return (byte.toUInt8 :: bytes, rest)
      | _ => none
    else if pending ≠ 0 then none
    else if isTagChar enclosed g.char then do
      let (bytes, rest) ← takeTagBytes enclosed 0 rest
      return (g.char.toNat.toUInt8 :: bytes, rest)
    else some ([], g :: rest)

/-- Bytes up to the first zero, which ends a tag. -/
def beforeZero (bytes : Tag) : Tag := bytes.takeWhile (· != 0)

/-- A part of a tag that must not be missing. -/
def takeTagPart (enclosed : Bool) (gs : List Glyph) : Option (Tag × List Glyph) := do
  let (bytes, rest) ← takeTagBytes enclosed 0 gs
  guard (!bytes.isEmpty)
  return (beforeZero bytes, rest)

/-- A tag with a handle, after its sign. The short handle is a sign alone; a tag that consists of nothing
else has no handle. -/
def takeShortTag (gs : List Glyph) : Option (Token × List Glyph) := do
  let (name, rest) := takeChars isWordChar gs
  match expect? '!' rest with
  | some rest => do
    let (suffix, rest) ← takeTagPart false rest
    return (.tag (.ofList ('!' :: name ++ ['!'])) suffix, rest)
  | none =>
    let (bytes, rest) ← takeTagBytes false 0 gs
    let suffix := beforeZero bytes
    return (if suffix.isEmpty then .tag "" "!".toUTF8.toList else .tag "!" suffix, rest)

/-- A tag that is written in full, after its sign and the opening bracket. -/
def takeFullTag (gs : List Glyph) : Option (Token × List Glyph) := do
  let (bytes, rest) ← takeTagPart true gs
  return (.tag "" bytes, ← expect? '>' rest)

/-- A tag after its sign. Only a comma in a flow collection may follow it without a gap. -/
def takeTag (inFlow : Bool) (gs : List Glyph) : Option (Token × List Glyph) := do
  let (tag, rest) ← match expect? '<' gs with
    | some inside => takeFullTag inside
    | none => takeShortTag gs
  guard (endsWord rest || (inFlow && startsWith ',' rest))
  return (tag, rest)

end ViewSchema.Yaml
