import ViewSchema.CommandLine.Arguments
import ViewSchema.Config.Load
import ViewSchema.Encoding
import ViewSchema.Json.Printer
import ViewSchema.Registry.Assembly

/-! What a call does: it loads the configuration, then the documents, builds the registry, and writes the
report or, if nothing was found against any view, the views themselves. -/

namespace ViewSchema.CommandLine

/-- What a call leaves behind. -/
structure Outcome where
  /-- What is written to the standard output. -/
  output : String
  /-- Why the call failed, if it did. -/
  failure : Option Failure

/-- The configuration of a call: that of the file, with the options of the call in its place. -/
def loadConfig (read : FileReader) (args : Arguments) : Except Failure Config := do
  let config ← match args.config with
    | some path => Config.load read path
    | none => .ok {}
  let config := match args.namespacePrefix with
    | some value => { config with namespacePrefix := value }
    | none => config
  let config := match args.namePrefix with
    | some value => { config with namePrefix := some value }
    | none => config
  let config := if args.strict then { config with strict := true } else config
  config.validate

def readDocument (read : FileReader) (path : String) : Except Failure Json :=
  match read path with
  | .error .notFound => .error (.fileNotFound path)
  | .error (.other reason) => .error (.io reason)
  | .ok text =>
    match Json.document? text with
    | some document => .ok document
    | none => .error (Failure.jsonParse.inContext ("Invalid corpus JSON in " ++ path))

/-- The corpus of some files. No document is looked into before all of them are read. -/
def loadCorpus (read : FileReader) (config : Config) (files : List String) : Except Failure Corpus := do
  let documents ← files.mapM fun path => do return (path, ← readDocument read path)
  return documents.foldl (fun corpus (path, document) => corpus.extract config document path) ∅

def loadRegistry (read : FileReader) (args : Arguments) : Except Failure Registry := do
  let config ← loadConfig read args
  let corpus ← loadCorpus read config args.files
  return .build config corpus

def writeMessage (format : Format) (message : Json) : String :=
  match format with
  | .json => message.compact ++ "\n"
  | .pretty => message.pretty ++ "\n"

def writeReport (format : Format) (report : Report) : String :=
  match format with
  | .json =>
    writeMessage .json (.record [("type", .string "REPORT"), ("report", report.toJson)])
  | .pretty => report.text ++ "\n"

def writeSchema (format : Format) (registry : Registry) : String :=
  writeMessage format <|
    .record
      [("type", .string "SCHEMA"), ("views", registry.toJson), ("references", registry.plansJson)]

/-- The failure of a result, if it is one. -/
def failure? : Except Failure α → Option Failure
  | .ok _ => none
  | .error failure => some failure

def run (read : FileReader) (args : Arguments) : Outcome :=
  match loadRegistry read args with
  | .error failure => ⟨"", some failure⟩
  | .ok registry =>
    match args.command with
    | .check => ⟨writeReport args.format registry.report, failure? registry.validated⟩
    | .schema =>
      match registry.validated with
      | .error failure => ⟨"", some failure⟩
      | .ok registry => ⟨writeSchema args.format registry, none⟩

end ViewSchema.CommandLine
