import ViewSchema.Config.Basic
import ViewSchema.Json.Reader

/-! Configurations in JSON. A configuration is an object with any of the known keys, or an array of the
settings in a fixed order; what is left out has its default. A value of the wrong type, a known key that
is written twice and an array that is too long are refused, unknown keys are not. -/

namespace ViewSchema

/-- A choice among names: the name itself, or an object with the name as its only key and a null. -/
def choiceName? : Json → Option String
  | .string name => some name
  | .object [(name, .null)] => some name
  | _ => none

def ConflictPolicy.ofName? (name : String) : Option ConflictPolicy :=
  if name = "error" then some .reject else if name = "opaque" then some .degrade else none

def ConflictPolicy.ofJson? (value : Json) : Option ConflictPolicy := do ofName? (← choiceName? value)

def textSet? (value : Json) : Option (SortedSet String) := do
  return .ofList (← (← value.items?).mapM Json.text?)

/-- A text, or nothing in place of it. -/
def optionalText? : Json → Option (Option String)
  | .null => some none
  | .string text => some (some text)
  | _ => none

namespace Config

/-- The keys of the settings in the order that an array has. -/
def settingKeys : List String :=
  ["namespace_prefix", "name_prefix", "name_suffix", "strict", "conflict_policy", "map_templates",
    "map_keys", "implicit_namespaces"]

/-- The configuration with one setting taken from a value; an unknown key changes nothing. -/
def withSetting? (config : Config) (key : String) (value : Json) : Option Config :=
  match key with
  | "namespace_prefix" => do return { config with namespacePrefix := ← value.text? }
  | "name_prefix" => do return { config with namePrefix := ← optionalText? value }
  | "name_suffix" => do return { config with nameSuffix := ← value.text? }
  | "strict" => do return { config with strict := ← value.bool? }
  | "conflict_policy" => do return { config with conflictPolicy := ← ConflictPolicy.ofJson? value }
  | "map_templates" => do return { config with mapTemplates := ← textSet? value }
  | "map_keys" => do return { config with mapKeys := ← textSet? value }
  | "implicit_namespaces" => do return { config with implicitNamespaces := ← textSet? value }
  | _ => some config

/-- The configuration with settings taken from members, one after the other. -/
def withSettings? (config : Config) (members : List (String × Json)) : Option Config :=
  members.foldlM (fun config (key, value) => config.withSetting? key value) config

/-- Whether no key of a setting is there twice. -/
def settingsAreUnique (members : List (String × Json)) : Bool :=
  settingKeys.all fun key => (members.filter fun (k, _) => k == key).length ≤ 1

def ofJson? : Json → Option Config
  | .object members => if settingsAreUnique members then ({} : Config).withSettings? members else none
  | .array items =>
    if items.length ≤ settingKeys.length then ({} : Config).withSettings? (settingKeys.zip items) else none
  | _ => none

def ofJsonText? (text : String) : Option Config := do
  ofJson? (← Json.parseWanted? settingKeys.contains text)

end Config

end ViewSchema
