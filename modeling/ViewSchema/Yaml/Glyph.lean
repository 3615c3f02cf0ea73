/-! The characters of a YAML text, each with its place. Lines and columns carry the structure of a YAML
text, so every character knows its own; what is left of a text is then a plain list, and no reader has to
count. -/

namespace ViewSchema.Yaml

def isGap (c : Char) : Bool := c == ' ' || c == '\t'

def isBreak (c : Char) : Bool :=
  c == '\n' || c == '\r' || c.toNat == 0x85 || c.toNat == 0x2028 || c.toNat == 0x2029

/-- A line break that is kept as it is, while every other one counts as a line feed. -/
def isLasting (c : Char) : Bool := c.toNat == 0x2028 || c.toNat == 0x2029

/-- A character that may stand in a YAML text. -/
def isPrintable (c : Char) : Bool :=
  let code := c.toNat
  c == '\t' || c == '\n' || c == '\r' || (0x20 ≤ code && code ≤ 0x7E) || code == 0x85 ||
    (0xA0 ≤ code && code ≤ 0xFFFD) || 0x10000 ≤ code

/-- A letter or digit of ASCII, an underscore or a hyphen. -/
def isWordChar (c : Char) : Bool := c.isAlphanum || c == '_' || c == '-'

def isFlowIndicator (c : Char) : Bool := ",[]\x7b\x7d".toList.contains c

/-- A character of a text and where it stands. -/
structure Glyph where
  char : Char
  /-- The number of bytes before it. -/
  offset : Nat
  line : Nat
  column : Nat

/-- Whether the character is a space or a tab. -/
def Glyph.isGap (g : Glyph) : Bool := Yaml.isGap g.char

def Glyph.isBreak (g : Glyph) : Bool := Yaml.isBreak g.char

/-- The characters of a text that starts at a place. Every line break is one character. -/
def glyphs (offset line column : Nat) : List Char → List Glyph
  | [] => []
  | '\r' :: '\n' :: rest => ⟨'\n', offset, line, column⟩ :: glyphs (offset + 2) (line + 1) 0 rest
  | c :: rest =>
    if isBreak c then
      ⟨if isLasting c then c else '\n', offset, line, column⟩ ::
        glyphs (offset + c.utf8Size) (line + 1) 0 rest
    else ⟨c, offset, line, column⟩ :: glyphs (offset + c.utf8Size) line (column + 1) rest

def chars (gs : List Glyph) : List Char := gs.map Glyph.char

/-- Whether a word ends here: the text is over, or goes on with a gap or a line break. -/
def endsWord : List Glyph → Bool
  | [] => true
  | g :: _ => g.isGap || g.isBreak

def startsWith (c : Char) : List Glyph → Bool
  | [] => false
  | g :: _ => g.char == c

def expect? (c : Char) : List Glyph → Option (List Glyph)
  | [] => none
  | g :: rest => if g.char = c then some rest else none

/-- Whether a line starts here with a mark of three equal characters and nothing else in the word. -/
def startsMarker (c : Char) : List Glyph → Bool
  | x :: y :: z :: rest =>
    x.column == 0 && x.char == c && y.char == c && z.char == c && endsWord rest
  | _ => false

def startsDocumentMarker (gs : List Glyph) : Bool := startsMarker '-' gs || startsMarker '.' gs

/-- The longest front of characters with a property, and the rest. -/
def takeChars (p : Char → Bool) (gs : List Glyph) : List Char × List Glyph :=
  (chars (gs.takeWhile fun g => p g.char), gs.dropWhile fun g => p g.char)

def skipGap (gs : List Glyph) : List Glyph := gs.dropWhile Glyph.isGap

/-- The rest of the text from the next line on, if nothing but a gap and a comment is left of this one. -/
def finishLine? (gs : List Glyph) : Option (List Glyph) :=
  let rest := skipGap gs
  match if startsWith '#' rest then rest.dropWhile (!·.isBreak) else rest with
  | [] => some []
  | g :: rest => if g.isBreak then some rest else none

example : (glyphs 0 0 0 "é\r\n#".toList).map (fun g => (g.offset, g.line, g.column)) =
    [(0, 0, 0), (2, 0, 1), (4, 1, 0)] := by decide

end ViewSchema.Yaml
