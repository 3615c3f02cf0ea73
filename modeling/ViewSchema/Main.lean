import ViewSchema.CommandLine.Run
import ViewSchema.CommandLine.Usage

/-! The program. It reads the files that its arguments name, and leaves everything else to the run: what
the run puts out goes to the standard output, and why it failed to the standard error. -/

namespace ViewSchema

/-- Why the system could not read a file. -/
def ReadFailure.ofError : IO.Error → ReadFailure
  | .noFileOrDirectory _ _ _ => .notFound
  | error => .other (toString error)

namespace CommandLine

def readFile (path : String) : IO (Except ReadFailure String) := do
  match ← (IO.FS.readBinFile path).toBaseIO with
  | .ok content => return decodeText content
  | .error error => return .error (.ofError error)

/-- A reader of files that have been read already; it finds no others. -/
def readerOf (files : List (String × Except ReadFailure String)) : FileReader := fun path =>
  (files.lookup path).getD (.error .notFound)

/-- Runs a call on the files that it names. -/
def execute (args : Arguments) : IO UInt32 := do
  let files ← (args.config.toList ++ args.files).mapM fun path => return (path, ← readFile path)
  let outcome := run (readerOf files) args
  (← IO.getStdout).putStr outcome.output
  match outcome.failure with
  | none => return 0
  | some failure =>
    IO.eprintln ("Error: " ++ failure.message)
    return 1

/-- Tells why a call does not run. -/
def refuse (error : UsageError) : IO UInt32 := do
  if error.isRequest then
    IO.println error.message
    return 0
  else
    IO.eprintln error.message
    return 2

end CommandLine

end ViewSchema

open ViewSchema.CommandLine in
/-- The program, given its arguments without its own name. -/
def main (args : List String) : IO UInt32 :=
  match Arguments.parse args with
  | .ok args => execute args
  | .error error => refuse error
