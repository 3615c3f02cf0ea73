import ViewSchema.Yaml.Glyph

/-! Line folding: what the gap between two words of a scalar means. On one line it is itself. Over several
lines its blanks do not count; one line break becomes a space, and of several the first is dropped. -/

namespace ViewSchema.Yaml

/-- The text of some line breaks between words. A lasting line break in front is kept. -/
def foldBreaks : List Char → List Char
  | [] => []
  | b :: more => if isLasting b then b :: more else if more.isEmpty then [' '] else more

/-- The text of a gap of blanks and line breaks. -/
def foldGap (gap : List Char) : List Char :=
  if gap.any isBreak then foldBreaks (gap.filter isBreak) else gap

example : foldGap [' ', '\n', ' '] = [' '] ∧ foldGap ['\n', ' ', '\n'] = ['\n'] ∧
    foldGap [' ', '\t'] = [' ', '\t'] := by decide

end ViewSchema.Yaml
