import ViewSchema.Config.Yaml
import ViewSchema.Failure

/-! Configurations from files. What a file holds is asked of a reader, so that loading says nothing of where
files are kept. -/

namespace ViewSchema

/-- Why a file cannot be read. -/
inductive ReadFailure where
  | notFound
  /-- Any other reason, in the words of the system. -/
  | other (reason : String)
deriving DecidableEq

def decodeText (content : ByteArray) : Except ReadFailure String :=
  match String.fromUTF8? content with
  | some text => .ok text
  | none => .error (.other "stream did not contain valid UTF-8")

abbrev FileReader := String → Except ReadFailure String

def lastStep (path : String) : String :=
  ((Text.cutAt (· == '/') path).filter fun step => !step.isEmpty && step != ".").getLast?.getD ""

/-- What stands after the last dot of the file name at the end of a path. A name that starts with its only
dot has no extension. -/
def extension? (path : String) : Option String :=
  match Text.cutAtLast '.' (lastStep path) with
  | some (stem, extension) => if stem.isEmpty || lastStep path == ".." then none else some extension
  | none => none

/-- Whether the file at a path is written in JSON. -/
def isJsonPath (path : String) : Bool :=
  match extension? path with
  | some extension => extension.toList.map Char.toLower == "json".toList
  | none => false

namespace Config

/-- The configuration that a YAML text describes, if it has no fault. -/
def fromYaml (text : String) : Except Failure Config :=
  match ofYamlText? text with
  | some config => config.validate
  | none => .error .yamlParse

/-- The configuration that a JSON text describes, if it has no fault. -/
def fromJson (text : String) : Except Failure Config :=
  match ofJsonText? text with
  | some config => config.validate
  | none => .error .jsonParse

/-- The configuration in a file: JSON if the file says so by its extension, and YAML otherwise. -/
def load (read : FileReader) (path : String) : Except Failure Config :=
  match read path with
  | .error .notFound => .error (.fileNotFound path)
  | .error (.other reason) =>
    .error (.config ("Failed to read config file '" ++ path ++ "': " ++ reason))
  | .ok text => if isJsonPath path then fromJson text else fromYaml text

end Config

end ViewSchema
