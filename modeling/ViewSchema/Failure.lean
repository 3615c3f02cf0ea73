import ViewSchema.Config.Basic

/-! Conditions that stop a run. Each is a cause; its wording is in one place. -/

namespace ViewSchema

/-- Why a run stops. -/
inductive Failure where
  /-- A configuration cannot be used. -/
  | config (message : String)
  /-- A setting has a value that it must not have. -/
  | invalidConfigValue (field message : String)
  /-- A YAML text does not have the expected form. -/
  | yamlParse
  /-- A JSON text does not have the expected form. -/
  | jsonParse
  /-- A class would stand for another one under its local name. -/
  | importConflict (localName existing rejected : String)
  /-- Some views have findings against them. -/
  | validation (errorCount viewCount : Nat)
  /-- A file cannot be read. -/
  | io (message : String)
  | fileNotFound (path : String)
  /-- Any other condition, often one with a context around it. -/
  | other (message : String)
deriving DecidableEq

namespace Failure

/-- The text of a failure. What is wrong inside a JSON or YAML text is not told. -/
def message : Failure → String
  | config message => "Configuration error: " ++ message
  | invalidConfigValue field message => "Invalid config value for '" ++ field ++ "': " ++ message
  | yamlParse => "Failed to parse YAML"
  | jsonParse => "Failed to parse JSON"
  | importConflict localName existing rejected =>
    "Import conflict on '" ++ localName ++ "': '" ++ rejected ++
      "' would shadow already imported '" ++ existing ++ "'"
  | validation errorCount viewCount =>
    "Validation failed with " ++ toString errorCount ++ " error(s) across " ++ toString viewCount ++
      " view(s)"
  | io message => "IO error: " ++ message
  | fileNotFound path => "File not found: " ++ path
  | other message => message

/-- The failure with what was going on when it happened. -/
def inContext (failure : Failure) (context : String) : Failure :=
  other (context ++ ": " ++ failure.message)

/-- Whether naming a class in full would avoid the failure. -/
def isImportConflict : Failure → Bool
  | importConflict _ _ _ => true
  | _ => false

end Failure

/-- The failure that a fault of a configuration comes to. -/
def ConfigFault.toFailure : ConfigFault → Failure
  | namespacePrefix value =>
    .invalidConfigValue "namespace_prefix" ("[" ++ value ++ "] must be a valid dotted namespace")
  | namePrefix value =>
    .invalidConfigValue "name_prefix"
      ("[" ++ value ++ "] may only contain letters, digits and underscores")

/-- The configuration itself, if it has no fault. -/
def Config.validate (config : Config) : Except Failure Config :=
  match config.fault? with
  | some fault => .error fault.toFailure
  | none => .ok config

end ViewSchema
