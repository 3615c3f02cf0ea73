import ViewSchema.Text.Blank
import ViewSchema.Text.Pieces
import ViewSchema.Text.Uppercase

/-! Class names from file names. The words of a file name are joined, each with its first letter in upper
case; what separates words is dropped, and nothing else is changed, so that a character no class name
may hold stays visible. -/

namespace ViewSchema.Naming

/-- A hyphen, an underscore, a dot or a blank, which separate the words of a name. -/
def isWordSeparator (c : Char) : Bool := c == '-' || c == '_' || c == '.' || Text.isBlank c

/-- A word with its first character in upper case, which may take several characters. -/
def capitalize : List Char → List Char
  | [] => []
  | c :: rest => Text.upper c ++ rest

/-- The words of a name, each capitalized, without what separates them. -/
def pascalChars (cs : List Char) : List Char := (cs.splitOnP isWordSeparator).flatMap capitalize

def pascalCase (s : String) : String := .ofList (pascalChars s.toList)

/-- A file name without its last extension. A name that starts with its only dot has none. -/
def fileStem (name : String) : String :=
  match Text.cutAtLast '.' name with
  | some (stem, _) => if stem.isEmpty then name else stem
  | none => name

example : pascalCase "my-big_card.v2" = "MyBigCardV2" ∧ pascalCase "--" = "" ∧
    pascalCase "straße" = "Straße" := by
  decide

example : fileStem "card.body.hbs" = "card.body" ∧ fileStem ".hbs" = ".hbs" := by decide

end ViewSchema.Naming
