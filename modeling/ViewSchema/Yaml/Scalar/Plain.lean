import ViewSchema.Yaml.Scalar.Folding

/-! Plain scalars. A colon before a gap and a hash after a gap end them; in a flow collection brackets,
braces and commas do so too; outside of one, a line that is not indented further than the collection
around the scalar. -/

namespace ViewSchema.Yaml

/-- Whether a plain scalar may start with a character, given whether a word ends after it. -/
def startsPlain (inFlow : Bool) (c : Char) (alone : Bool) : Bool :=
  if c == '-' then !alone
  else if c == '?' || c == ':' then !inFlow && !alone
  else !isGap c && !isBreak c && !isFlowIndicator c && !"#&*!|>'\"%@`".toList.contains c

/-- Whether a word of a plain scalar ends before a character with a rest after it. -/
def endsPlain (inFlow : Bool) (g : Glyph) (rest : List Glyph) : Bool :=
  (g.char == ':' && endsWord rest) || (inFlow && isFlowIndicator g.char)

/-- Whether a colon is followed by what must not follow it in a flow collection. -/
def isMisplacedColon (inFlow : Bool) (g : Glyph) (rest : List Glyph) : Bool :=
  inFlow && g.char == ':' && rest.head?.any fun next => isFlowIndicator next.char || next.char == '?'

/-- Whether a plain scalar stops after a gap. `margin` is the least column of its further lines. -/
def stopsPlain (inFlow : Bool) (margin : Nat) (gs : List Glyph) : Bool :=
  startsWith '#' gs || startsDocumentMarker gs || gs.head?.any fun g => !inFlow && g.column < margin

/-- A plain scalar at the front, the gap before the rest, and the rest. `gap` is the gap just read; it
belongs to the scalar if another word follows. A tab must not stand for indentation. -/
def takePlain (inFlow : Bool) (margin : Nat) :
    (gap : List Char) → List Glyph → Option (List Char × List Char × List Glyph)
  | gap, [] => some ([], gap, [])
  | gap, g :: rest =>
    if g.isGap || g.isBreak then
      if gap.any isBreak && g.char == '\t' && g.column < margin then none
      else takePlain inFlow margin (gap ++ [g.char]) rest
    else if !gap.isEmpty && stopsPlain inFlow margin (g :: rest) then some ([], gap, g :: rest)
    else if isMisplacedColon inFlow g rest then none
    else if endsPlain inFlow g rest then some ([], gap, g :: rest)
    else do
      let (text, last, rest) ← takePlain inFlow margin [] rest
      return (foldGap gap ++ g.char :: text, last, rest)

end ViewSchema.Yaml
