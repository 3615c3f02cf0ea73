import ViewSchema.Yaml.Glyph

/-! Block scalars. Their lines are the lines below the header that are indented as far as the first one, or
as far as the header says. A literal scalar keeps its line breaks. A folded one makes a space of a line
break between two lines, unless one of them starts with a blank. -/

namespace ViewSchema.Yaml

/-- What becomes of the line breaks at the end of a block scalar. -/
inductive Chomping where
  | strip
  | clip
  | keep
deriving DecidableEq

/-- The first line of a block scalar: what becomes of the last line breaks, and how far the lines are
indented, if this is said. -/
structure BlockHeader where
  chomping : Chomping
  indentation : Option Nat

/-- A sign that says what becomes of the last line breaks. -/
def takeChomping : List Glyph → Chomping × List Glyph
  | [] => (.clip, [])
  | g :: rest =>
    if g.char = '+' then (.keep, rest)
    else if g.char = '-' then (.strip, rest)
    else (.clip, g :: rest)

/-- A digit that says how far the lines are indented; it is not zero. -/
def takeIndentation : List Glyph → Option (Option Nat × List Glyph)
  | [] => some (none, [])
  | g :: rest =>
    if g.char = '0' then none
    else if g.char.isDigit then some (some (g.char.toNat - '0'.toNat), rest)
    else some (none, g :: rest)

/-- The rest of a line with a block scalar's sign. The sign and the digit come in either order. -/
def takeHeader (gs : List Glyph) : Option (BlockHeader × List Glyph) := do
  let (before, rest) := takeChomping gs
  let (indentation, rest) ← takeIndentation rest
  let (after, rest) := if before = .clip && indentation.isSome then takeChomping rest else (before, rest)
  return (⟨after, indentation⟩, ← finishLine? rest)

/-- The line breaks of empty lines at the front, the rightmost column at which one of them or the line
after them starts, and that line with the rest. A column of `0` says that the indentation is not known
yet. A tab must not stand for indentation. -/
def takeEmptyLines (indentation rightmost : Nat) :
    List Glyph → Option (List Char × Nat × List Glyph)
  | [] => some ([], rightmost, [])
  | g :: rest =>
    let isIndentation := indentation = 0 || g.column < indentation
    if isIndentation && g.char == ' ' then takeEmptyLines indentation rightmost rest
    else if isIndentation && g.char == '\t' then none
    else if g.isBreak then do
      let (breaks, column, rest) ← takeEmptyLines indentation (max rightmost g.column) rest
      return (g.char :: breaks, column, rest)
    else some ([], max rightmost g.column, g :: rest)

/-- A line break between the parts of a block scalar, and those of the empty lines after it. -/
structure BlockGap where
  first : List Char
  more : List Char

/-- The text of the line breaks between two lines, given whether they are folded. -/
def BlockGap.text (gap : BlockGap) (folded : Bool) : List Char :=
  if folded && gap.first == ['\n'] then if gap.more.isEmpty then [' '] else gap.more
  else gap.first ++ gap.more

/-- The lines of a block scalar after a gap, the gap at their end, and the rest. `afterBlank` says whether
the line before starts with a blank, and `fuel` bounds the number of lines. -/
def takeBlockLines (isFolded : Bool) (indentation : Nat) :
    Nat → BlockGap → (afterBlank : Bool) → List Glyph → Option (List Char × BlockGap × List Glyph)
  | 0, _, _, _ => none
  | _, gap, _, [] => some ([], gap, [])
  | fuel + 1, gap, afterBlank, g :: rest =>
    if g.column ≠ indentation then some ([], gap, g :: rest)
    else do
      let line := (g :: rest).takeWhile (!·.isBreak)
      let beyond := (g :: rest).dropWhile (!·.isBreak)
      let (more, _, below) ← takeEmptyLines indentation 0 (beyond.drop 1)
      let (text, last, rest) ←
        takeBlockLines isFolded indentation fuel ⟨chars (beyond.take 1), more⟩ g.isGap below
      return (gap.text (isFolded && !afterBlank && !g.isGap) ++ chars line ++ text, last, rest)

/-- What is left of the line breaks at the end of a block scalar. -/
def Chomping.rest (chomping : Chomping) (gap : BlockGap) : List Char :=
  match chomping with
  | .strip => []
  | .clip => gap.first
  | .keep => gap.first ++ gap.more

/-- The text of a block scalar after its sign. `margin` is the least column at which it may start, and `0`
outside of every collection. -/
def takeBlockScalar (isFolded : Bool) (margin : Nat) (gs : List Glyph) :
    Option (List Char × List Glyph) := do
  let (header, rest) ← takeHeader gs
  let said := match header.indentation with
    | none => 0
    | some n => margin - 1 + n
  let (breaks, rightmost, rest) ← takeEmptyLines said 0 rest
  let indentation := if said = 0 then max (max rightmost margin) 1 else said
  let (text, last, rest) ← takeBlockLines isFolded indentation (rest.length + 1) ⟨[], breaks⟩ false rest
  return (text ++ header.chomping.rest last, rest)

end ViewSchema.Yaml
