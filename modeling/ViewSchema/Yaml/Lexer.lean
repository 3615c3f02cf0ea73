import ViewSchema.Yaml.Directive
import ViewSchema.Yaml.Scalar.Plain
import ViewSchema.Yaml.Scalar.Quoted
import ViewSchema.Yaml.Scalar.Block

/-! From the characters of a YAML text to its tokens. Indentation is settled here: a line further to the
right opens a block collection, and one further to the left closes all collections that start beyond it.

Whether something is a key shows only at the colon after it. Until then the place where it starts is
remembered as a candidate, one for each flow collection and one outside of all; the tokens of a key are
put in at that place. A key ends on its line and within 1024 bytes. -/

namespace ViewSchema.Yaml

/-- The place of something that may turn out to be a key. -/
structure Candidate where
  /-- Whether it has to be a key, because nothing else may start at this column. -/
  required : Bool
  /-- The number of tokens before it. -/
  index : Nat
  /-- Its first character. -/
  start : Glyph

/-- Whether a key that starts at the candidate would have ended before a character. -/
def Candidate.isPast (k : Candidate) (g : Glyph) : Bool :=
  k.start.line < g.line || k.start.offset + 1024 < g.offset

/-- What is known before the next token. -/
structure Lexer where
  /-- The tokens so far, the latest first. -/
  tokens : List Token := []
  /-- The columns of the open block collections, the innermost first. -/
  columns : List Nat := []
  /-- What may be a key in the innermost flow collection, or outside of all. -/
  candidate : Option Candidate := none
  /-- What may be a key around each open flow collection, the innermost first. -/
  outer : List (Option Candidate) := []
  /-- Whether a key may start here. -/
  keyAllowed : Bool := true

namespace Lexer

def inFlow (l : Lexer) : Bool := !l.outer.isEmpty

/-- The least column of what belongs to the innermost block collection. -/
def margin (l : Lexer) : Nat :=
  match l.columns with
  | [] => 0
  | column :: _ => column + 1

def emit (l : Lexer) (t : Token) : Lexer := { l with tokens := t :: l.tokens }

/-- A block collection is open at the column, unless one is already. -/
def openBlock (l : Lexer) (column : Nat) (t : Token) : Lexer :=
  if !l.inFlow && l.margin ≤ column then { l.emit t with columns := column :: l.columns } else l

/-- The block collections that start at a column or to the right of it are closed. -/
def closeBlocks (l : Lexer) (column : Nat) : Lexer :=
  if l.inFlow then l
  else
    let closed := l.columns.takeWhile (column ≤ ·)
    { l with
      tokens := closed.map (fun _ => .blockEnd) ++ l.tokens
      columns := l.columns.dropWhile (column ≤ ·) }

/-- The candidate has not become a key. -/
def rejectKey? (l : Lexer) : Option Lexer :=
  match l.candidate with
  | some k => if k.required then none else some { l with candidate := none }
  | none => some l

/-- Something that starts with `g` may be a key, if a key is allowed. -/
def markKey? (l : Lexer) (g : Glyph) : Option Lexer :=
  if l.keyAllowed then do
    let required := !l.inFlow && l.columns.head? == some g.column
    return { (← l.rejectKey?) with candidate := some ⟨required, l.tokens.length, g⟩ }
  else some l

/-- A candidate, unless it is past. -/
def keepKey? (g : Glyph) : Option Candidate → Option (Option Candidate)
  | none => some none
  | some k => if !k.isPast g then some (some k) else if k.required then none else some none

def dropPastKeys? (l : Lexer) (g : Glyph) : Option Lexer := do
  return { l with candidate := ← keepKey? g l.candidate, outer := ← l.outer.mapM (keepKey? g) }

/-- The lexer between documents, after one more token. -/
def emitBetween? (l : Lexer) (t : Token) : Option Lexer := do
  return { (← (l.closeBlocks 0).rejectKey?).emit t with keyAllowed := false }

/-- A flow collection is open, which may itself be a key. -/
def openFlow? (l : Lexer) (g : Glyph) (t : Token) : Option Lexer := do
  let l ← l.markKey? g
  return { l.emit t with candidate := none, outer := l.candidate :: l.outer, keyAllowed := true }

def closeFlow? (l : Lexer) (t : Token) : Option Lexer := do
  let l ← l.rejectKey?
  let l := { l.emit t with keyAllowed := false }
  match l.outer with
  | [] => return l
  | candidate :: outer => return { l with candidate, outer }

/-- A token after which a key may start. -/
def emitSeparator? (l : Lexer) (t : Token) : Option Lexer := do
  return { (← l.rejectKey?).emit t with keyAllowed := true }

/-- A token at a column that opens a block collection there. -/
def openEntry? (l : Lexer) (column : Nat) (t : Token) : Option Lexer :=
  if l.inFlow then some l
  else if l.keyAllowed then some (l.openBlock column t)
  else none

def emitEntry? (l : Lexer) (g : Glyph) : Option Lexer := do
  (← l.openEntry? g.column .blockSequenceStart).emitSeparator? .blockEntry

/-- A key with a question mark in front. -/
def emitKey? (l : Lexer) (g : Glyph) : Option Lexer := do
  let l ← (← l.openEntry? g.column .blockMappingStart).emitSeparator? .key
  return { l with keyAllowed := !l.inFlow }

/-- The tokens in front of a key put in at the place of the candidate. -/
def acceptKey (l : Lexer) (k : Candidate) : Lexer :=
  let since := l.tokens.length - k.index
  let before := { l with tokens := l.tokens.drop since }.openBlock k.start.column .blockMappingStart
  { before with
    tokens := l.tokens.take since ++ .key :: before.tokens
    candidate := none
    keyAllowed := false }

/-- A value after a colon. The candidate becomes a key; without one the key is empty. -/
def emitValue? (l : Lexer) (g : Glyph) : Option Lexer :=
  match l.candidate with
  | some k => some ((l.acceptKey k).emit .value)
  | none => do
    return { (← l.openEntry? g.column .blockMappingStart).emit .value with keyAllowed := !l.inFlow }

/-- A token of a node that starts with `g`. -/
def emitNode? (l : Lexer) (g : Glyph) (t : Token) : Option Lexer := do
  return { (← l.markKey? g).emit t with keyAllowed := false }

/-- The lexer after a plain scalar at the front. A key may start after it if it ends with its line. -/
def takePlain? (l : Lexer) (g : Glyph) (rest : List Glyph) : Option (Lexer × List Glyph) := do
  guard (startsPlain l.inFlow g.char (endsWord rest))
  let (text, gap, beyond) ← takePlain l.inFlow l.margin [] (g :: rest)
  let l ← l.emitNode? g (.scalar .plain (.ofList text))
  return ({ l with keyAllowed := gap.any isBreak }, beyond)

/-- The lexer after a quoted scalar, given what is after its opening quote. -/
def takeQuoted? (l : Lexer) (g : Glyph) (style : Style) (rest : List Glyph) :
    Option (Lexer × List Glyph) := do
  let (text, beyond) ← takeQuoted (style = .doubleQuoted) rest
  return (← l.emitNode? g (.scalar style (.ofList text)), beyond)

/-- The lexer after a block scalar, given what is after its sign. -/
def takeBlock? (l : Lexer) (style : Style) (rest : List Glyph) : Option (Lexer × List Glyph) := do
  guard !l.inFlow
  let (text, beyond) ← takeBlockScalar (style = .folded) l.margin rest
  return (← l.emitSeparator? (.scalar style (.ofList text)), beyond)

/-- The lexer after the token that starts with `g` and is neither a directive nor a document marker. -/
def takeToken? (l : Lexer) (g : Glyph) (rest : List Glyph) : Option (Lexer × List Glyph) :=
  let alone := endsWord rest
  match g.char with
  | '[' => do return (← l.openFlow? g .flowSequenceStart, rest)
  | '\x7b' => do return (← l.openFlow? g .flowMappingStart, rest)
  | ']' => do return (← l.closeFlow? .flowSequenceEnd, rest)
  | '\x7d' => do return (← l.closeFlow? .flowMappingEnd, rest)
  | ',' => do return (← l.emitSeparator? .flowEntry, rest)
  | '-' => if alone then do return (← l.emitEntry? g, rest) else l.takePlain? g rest
  | '?' => if l.inFlow || alone then do return (← l.emitKey? g, rest) else l.takePlain? g rest
  | ':' => if l.inFlow || alone then do return (← l.emitValue? g, rest) else l.takePlain? g rest
  | '*' => do
    let (name, rest) ← takeName rest
    return (← l.emitNode? g (.reference name), rest)
  | '&' => do
    let (name, rest) ← takeName rest
    return (← l.emitNode? g (.anchor name), rest)
  | '!' => do
    let (tag, rest) ← takeTag l.inFlow rest
    return (← l.emitNode? g tag, rest)
  | '|' => l.takeBlock? .literal rest
  | '>' => l.takeBlock? .folded rest
  | '\'' => l.takeQuoted? g .singleQuoted rest
  | '"' => l.takeQuoted? g .doubleQuoted rest
  | _ => l.takePlain? g rest

/-- The lexer after the token that starts with `g`. -/
def next? (l : Lexer) (g : Glyph) (rest : List Glyph) : Option (Lexer × List Glyph) :=
  if g.column = 0 && g.char == '%' then do
    let (directive, rest) ← takeDirective rest
    return (← l.emitBetween? directive, rest)
  else if startsMarker '-' (g :: rest) then do
    return (← l.emitBetween? .documentStart, rest.drop 2)
  else if startsMarker '.' (g :: rest) then do
    return (← l.emitBetween? .documentEnd, rest.drop 2)
  else l.takeToken? g rest

end Lexer

/-- A byte order mark, which may start any line. -/
def byteOrderMark : Char := '\ufeff'

/-- The rest from the next token on, and whether a key may start there: on a new line outside of flow
collections it always may. A tab before a key is refused. -/
def skipToToken (inFlow : Bool) : (inComment keyAllowed : Bool) → List Glyph → Bool × List Glyph
  | _, keyAllowed, [] => (keyAllowed, [])
  | inComment, keyAllowed, g :: rest =>
    if g.isBreak then skipToToken inFlow false (keyAllowed || !inFlow) rest
    else if inComment || g.char == '#' then skipToToken inFlow true keyAllowed rest
    else if g.char == ' ' || (g.char == '\t' && (inFlow || !keyAllowed)) ||
        (g.char == byteOrderMark && g.column == 0) then
      skipToToken inFlow false keyAllowed rest
    else (keyAllowed, g :: rest)

/-- All tokens of a text. `fuel` bounds the number of steps, of which each takes a character. -/
def lex (l : Lexer) : Nat → List Glyph → Option (List Token)
  | 0, _ => none
  | fuel + 1, gs =>
    let (keyAllowed, gs) := skipToToken l.inFlow false l.keyAllowed gs
    let l := { l with keyAllowed }
    match gs with
    | [] => do return (← (l.closeBlocks 0).rejectKey?).tokens.reverse
    | g :: rest => do
      let l ← l.dropPastKeys? g
      let (l, rest) ← (l.closeBlocks (g.column + 1)).next? g rest
      lex l fuel rest

/-- The tokens of a text, of which every character has to be printable. -/
def tokens? (text : String) : Option (List Token) := do
  let cs := text.toList
  guard (cs.all isPrintable)
  lex {} (cs.length + 1) (glyphs 0 0 0 cs)

/-- A sequence at the column of its key needs no tokens for its start and end. -/
example : tokens? "a:\n- b" = some [.blockMappingStart, .key, .scalar .plain "a", .value, .blockEntry,
    .scalar .plain "b", .blockEnd] := by decide

end ViewSchema.Yaml
