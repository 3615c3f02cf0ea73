import ViewSchema.Order.SortedSet
import ViewSchema.Text.Blank
import ViewSchema.Text.Pieces

/-! A view is known by the path of its source file. Different spellings of one path (absolute or
relative, with either slash) make one key, so that samples from different documents meet. -/

namespace ViewSchema

/-- The path of a view's source file, in the spelling that all uses of the view share. -/
structure ViewKey where
  path : String
deriving DecidableEq

namespace ViewKey

/-- A path without the separators and `./` steps that it starts with. -/
def dropRoot : List Char → List Char
  | '.' :: '/' :: rest => dropRoot rest
  | '/' :: rest => dropRoot rest
  | path => path

/-- The shared spelling of a path: blanks around it are dropped, backslashes are slashes, and it
starts at the root. -/
def normalize (path : List Char) : List Char :=
  dropRoot ((Text.trimChars path).map fun c => if c = '\\' then '/' else c)

def ofPath (path : String) : ViewKey := ⟨.ofList (normalize path.toList)⟩

instance : Inhabited ViewKey := ⟨⟨""⟩⟩

instance : ToString ViewKey := ⟨path⟩

/-- Keys are ordered by their paths, character by character. -/
instance : Ord ViewKey := ⟨fun a b => compare a.path b.path⟩

instance : Std.LawfulEqOrd ViewKey where
  compare_self {a} := @Std.ReflCmp.compare_self String compare _ a.path
  eq_of_compare {a b} h := by
    have : a.path = b.path := Std.LawfulEqOrd.eq_of_compare h
    cases a; cases b; simp_all

instance : Std.TransOrd ViewKey where
  eq_swap {a b} := @Std.OrientedCmp.eq_swap String compare _ a.path b.path
  isLE_trans {a b c} := @Std.TransCmp.isLE_trans String compare _ a.path b.path c.path

/-- The steps of the path, empty ones left out. -/
def segments (key : ViewKey) : List String :=
  (Text.cutAt (· == '/') key.path).filter (!·.isEmpty)

/-- The directories that lead to the file. -/
def directories (key : ViewKey) : List String := key.segments.dropLast

/-- The name of the file, empty if the path has no step at all. -/
def fileName (key : ViewKey) : String := key.segments.getLast?.getD ""

example : ofPath " ./\\a\\b/card.hbs " = ofPath "//a/b/card.hbs" := by decide

example : (ofPath "/a//b/card.hbs").directories = ["a", "b"] ∧
    (ofPath "/a//b/card.hbs").fileName = "card.hbs" := by
  decide

end ViewKey

end ViewSchema
