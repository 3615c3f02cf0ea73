import ViewSchema.ViewKey
import ViewSchema.Text.Grammar

/-! The settings of one run: how class names are made from paths, how strictly observed kinds are
unified, and which objects are bags of values rather than views. -/

namespace ViewSchema

/-- What becomes of a field whose kinds cannot be unified. -/
inductive ConflictPolicy where
  /-- The field has no type and an error is recorded. -/
  | reject
  /-- The field may hold anything and a warning is recorded, unless the run is strict. -/
  | degrade
deriving DecidableEq

/-- Settings of one run. -/
structure Config where
  /-- The namespace that every view's namespace starts with. -/
  namespacePrefix : String := ""
  /-- What every class name starts with. -/
  namePrefix : Option String := none
  /-- What every class name ends with. -/
  nameSuffix : String := "View"
  /-- Whether a text in the place of a view is refused. -/
  strict : Bool := false
  conflictPolicy : ConflictPolicy := .reject
  /-- Paths of views whose instances are bags of values. -/
  mapTemplates : SortedSet String := .empty
  /-- Fields whose object values are bags of values. -/
  mapKeys : SortedSet String := .ofList ["displayOptions", "extraAttributes", "jsonObject"]
  /-- Namespaces whose classes need no import. -/
  implicitNamespaces : SortedSet String := .empty
deriving DecidableEq

/-- Why a configuration is refused. -/
inductive ConfigFault where
  | namespacePrefix (value : String)
  | namePrefix (value : String)
deriving DecidableEq

namespace Config

instance : Inhabited Config := ⟨{}⟩

/-- Whether the view is listed among those whose instances are bags of values. -/
def isMapTemplate (config : Config) (key : ViewKey) : Bool :=
  config.mapTemplates.toList.any fun template => ViewKey.ofPath template == key

/-- Whether objects under this field are always bags of values. -/
def isMapField (config : Config) (field : String) : Bool := config.mapKeys.toList.contains field

/-- The first fault of a configuration, if it has one. A namespace is made of dotted words, and what
class names start with is made of letters, digits and underscores; either may be empty. -/
def fault? (config : Config) : Option ConfigFault :=
  if !config.namespacePrefix.isEmpty && !Text.isDottedWords config.namespacePrefix then
    some (.namespacePrefix config.namespacePrefix)
  else
    match config.namePrefix with
    | some name => if name.toList.all Text.isNameChar then none else some (.namePrefix name)
    | none => none

/-- The configuration with one more view whose instances are bags of values. -/
def withMapTemplate (config : Config) (path : String) : Config :=
  { config with mapTemplates := config.mapTemplates.insert (ViewKey.ofPath path).path }

/-- The configuration with one more namespace whose classes need no import. -/
def withImplicitNamespace (config : Config) (name : String) : Config :=
  { config with implicitNamespaces := config.implicitNamespaces.insert name }

end Config

end ViewSchema
