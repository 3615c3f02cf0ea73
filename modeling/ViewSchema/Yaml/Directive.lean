import ViewSchema.Yaml.Property

/-! Directives: lines before a document that name a version of YAML or a handle for tags. Any other
directive is refused. -/

namespace ViewSchema.Yaml

/-- A part of a version number, at most nine digits long. -/
def takeVersionPart (gs : List Glyph) : Option (Nat × List Glyph) := do
  let (ds, rest) := takeChars Char.isDigit gs
  guard (0 < ds.length ∧ ds.length ≤ 9)
  return (ds.foldl (fun n d => 10 * n + (d.toNat - '0'.toNat)) 0, rest)

/-- The version of YAML that a document asks for. -/
def takeVersion (gs : List Glyph) : Option (Token × List Glyph) := do
  let (major, rest) ← takeVersionPart (skipGap gs)
  let (minor, rest) ← takeVersionPart (← expect? '.' rest)
  return (.version major minor, rest)

/-- A handle and the text that it stands for. Only the short handle has no sign at its end. -/
def takeHandle (gs : List Glyph) : Option (Token × List Glyph) := do
  let (name, rest) := takeChars isWordChar (← expect? '!' (skipGap gs))
  let (handle, rest) ← match expect? '!' rest with
    | some rest => some ('!' :: name ++ ['!'], rest)
    | none => if name.isEmpty then some (['!'], rest) else none
  guard (rest.head?.any Glyph.isGap)
  let (start, rest) ← takeTagPart true (skipGap rest)
  guard (endsWord rest)
  return (.handle (.ofList handle) start, rest)

/-- A directive after its sign, with the rest of its line. -/
def takeDirective (gs : List Glyph) : Option (Token × List Glyph) := do
  let (name, rest) := takeChars isWordChar gs
  guard (endsWord rest)
  let (directive, rest) ←
    if name = "YAML".toList then takeVersion rest
    else if name = "TAG".toList then takeHandle rest
    else none
  return (directive, ← finishLine? rest)

end ViewSchema.Yaml
