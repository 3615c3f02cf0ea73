/-! The two spellings that generated code accepts: identifiers, and dotted namespaces. Both are plain
ASCII, and both speak of a whole text: a line break at the end is a character like any other. -/

namespace ViewSchema.Text

def isNameStart (c : Char) : Bool := c.isAlpha || c == '_'

/-- An ASCII letter, an ASCII digit or an underscore. -/
def isNameChar (c : Char) : Bool := c.isAlphanum || c == '_'

/-- A name that starts with a letter or an underscore and goes on with letters, digits and
underscores. -/
def isIdentifier (s : String) : Bool :=
  match s.toList with
  | [] => false
  | c :: rest => isNameStart c && rest.all isNameChar

/-- Words of letters, digits and underscores, joined by single dots. -/
def isDottedWords (s : String) : Bool :=
  (s.toList.splitOn '.').all fun word => !word.isEmpty && word.all isNameChar

example : isIdentifier "Card_1" ∧ ¬ isIdentifier "1Card" ∧ ¬ isIdentifier "" ∧ ¬ isIdentifier "X\n" := by
  decide

example : isDottedWords "com.9.x" ∧ ¬ isDottedWords "com..x" ∧ ¬ isDottedWords "a." ∧
    ¬ isDottedWords "" := by
  decide

end ViewSchema.Text
