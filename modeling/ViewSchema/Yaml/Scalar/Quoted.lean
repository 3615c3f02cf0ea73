import ViewSchema.Text.Hexadecimal
import ViewSchema.Yaml.Scalar.Folding

/-! Quoted scalars. Between single quotes only the quote itself is special, and written twice; between
double quotes a backslash starts an escape. Lines are folded, and no document may start or end inside. -/

namespace ViewSchema.Yaml

/-- A part of a quoted scalar. -/
inductive Piece where
  /-- A character that stands for itself, or an escape. -/
  | char (c : Char)
  /-- A blank or a line break as it is written. -/
  | gap (c : Char)
  /-- A line break after a backslash, which joins two lines. -/
  | joint

/-- The text of a gap; after a joint only its line breaks count. -/
def gapText (joined : Bool) (gap : List Char) : List Char :=
  if joined then gap.filter isBreak else foldGap gap

def foldPieces (joined : Bool) (gap : List Char) : List Piece → List Char
  | [] => gapText joined gap
  | .gap c :: rest => foldPieces joined (gap ++ [c]) rest
  | .joint :: rest => gapText joined gap ++ foldPieces true [] rest
  | .char c :: rest => gapText joined gap ++ c :: foldPieces false [] rest

def Piece.ofGlyph (g : Glyph) : Piece := if g.isGap || g.isBreak then .gap g.char else .char g.char

/-- The pieces of a single-quoted scalar up to its closing quote. -/
def takeSingleQuoted : List Glyph → Option (List Piece × List Glyph)
  | [] => none
  | g :: rest =>
    if startsDocumentMarker (g :: rest) then none
    else if g.char = '\'' then
      match rest with
      | next :: rest =>
        if next.char = '\'' then do
          let (pieces, rest) ← takeSingleQuoted rest
          return (.char '\'' :: pieces, rest)
        else some ([], next :: rest)
      | [] => some ([], [])
    else do
      let (pieces, rest) ← takeSingleQuoted rest
      return (.ofGlyph g :: pieces, rest)

/-- Escapes of one letter, with the code points that they stand for. -/
def letterEscapes : List (Char × Nat) :=
  [('0', 0), ('a', 7), ('b', 8), ('t', 9), ('\t', 9), ('n', 10), ('v', 11), ('f', 12), ('r', 13),
    ('e', 27), (' ', 0x20), ('"', 0x22), ('/', 0x2F), ('\\', 0x5C), ('N', 0x85), ('_', 0xA0),
    ('L', 0x2028), ('P', 0x2029)]

/-- Letters of escapes that are followed by hexadecimal digits, with the number of these. -/
def codeEscapes : List (Char × Nat) := [('x', 2), ('u', 4), ('U', 8)]

/-- The character of an escape with hexadecimal digits, of which it takes as many as given. -/
def takeCode (digits : Nat) (gs : List Glyph) : Option (Char × List Glyph) := do
  let ds := chars (gs.take digits)
  guard (ds.length = digits)
  let code ← Text.hexNumber? ds
  guard (code < 0xD800 ∨ (0xDFFF < code ∧ code ≤ 0x10FFFF))
  return (Char.ofNat code, gs.drop digits)

/-- The piece that an escape stands for, after its backslash. -/
def takeEscape : List Glyph → Option (Piece × List Glyph)
  | [] => none
  | g :: rest =>
    if g.isBreak then some (.joint, rest)
    else
      match codeEscapes.lookup g.char with
      | some digits => do
        let (c, rest) ← takeCode digits rest
        return (.char c, rest)
      | none => do return (.char (Char.ofNat (← letterEscapes.lookup g.char)), rest)

/-- The pieces of a double-quoted scalar up to its closing quote. `fuel` bounds their number. -/
def takeDoubleQuoted : Nat → List Glyph → Option (List Piece × List Glyph)
  | 0, _ => none
  | _, [] => none
  | fuel + 1, g :: rest =>
    if startsDocumentMarker (g :: rest) then none
    else if g.char = '"' then some ([], rest)
    else do
      let (first, rest) ← if g.char = '\\' then takeEscape rest else some (.ofGlyph g, rest)
      let (pieces, rest) ← takeDoubleQuoted fuel rest
      return (first :: pieces, rest)

/-- The text of a quoted scalar after its opening quote. -/
def takeQuoted (double : Bool) (gs : List Glyph) : Option (List Char × List Glyph) := do
  let (pieces, rest) ← if double then takeDoubleQuoted (gs.length + 1) gs else takeSingleQuoted gs
  return (foldPieces false [] pieces, rest)

end ViewSchema.Yaml
