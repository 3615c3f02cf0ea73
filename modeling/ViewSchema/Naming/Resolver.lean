import ViewSchema.Config.Basic
import ViewSchema.Naming.Identity
import ViewSchema.Naming.PascalCase

/-! The classes of a set of views. Directories that all the views share say nothing about any one of them,
so they are left out of the namespaces; the other directories of a view become the steps of its
namespace, and its file name becomes the local name. -/

namespace ViewSchema

namespace Naming

/-- The longest list that both lists start with. -/
def sharedStart [DecidableEq α] : List α → List α → List α
  | x :: xs, y :: ys => if x = y then x :: sharedStart xs ys else []
  | _, _ => []

/-- The directories that all the views are in, from the root on; none for no views. -/
def commonDirectories : List ViewKey → List String
  | [] => []
  | key :: rest => rest.foldl (fun shared other => sharedStart shared other.directories) key.directories

def trimDots (s : String) : String :=
  .ofList ((s.toList.dropWhile (· == '.')).reverse.dropWhile (· == '.')).reverse

end Naming

/-- How the views of one run are named. -/
structure Naming where
  /-- The namespace that all namespaces start with. -/
  root : String
  /-- What every local name starts with. -/
  before : String
  /-- What every local name ends with. -/
  after : String
  /-- The directories that are left out. -/
  elided : List String

namespace Naming

/-- The naming of a list of views under a configuration. -/
def ofViews (config : Config) (keys : List ViewKey) : Naming where
  root := trimDots config.namespacePrefix
  before := config.namePrefix.getD ""
  after := config.nameSuffix
  elided := commonDirectories keys

def namespaceOf (naming : Naming) (key : ViewKey) : String :=
  ".".intercalate ((naming.root :: key.directories.drop naming.elided.length).filter (!·.isEmpty))

def localNameOf (naming : Naming) (key : ViewKey) : String :=
  naming.before ++ pascalCase (fileStem key.fileName) ++ naming.after

def identify (naming : Naming) (key : ViewKey) : Identity :=
  ⟨key, naming.namespaceOf key, naming.localNameOf key⟩

end Naming

end ViewSchema
