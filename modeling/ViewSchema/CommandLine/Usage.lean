import ViewSchema.CommandLine.Arguments

/-! What a call is told that does not run: help and the version as asked for, or what is wrong with the
arguments. Only what was asked for is a success. -/

namespace ViewSchema.CommandLine

def programName : String := "viewgen"

def programVersion : String := "0.1.0"

def helpText : String :=
  "\n".intercalate
    ["Infers and validates typed view schemas from JSON usage samples", "",
      "Usage: " ++ programName ++ " [OPTIONS] <COMMAND>", "",
      "Commands:",
      "  check   Validate a corpus and print every error and warning",
      "  schema  Print the validated view definitions with their imports",
      "  help    Print this message or the help of the given subcommand(s)", "",
      "Options:",
      "  -C, --config <CONFIG>                      Generator configuration file (YAML or JSON)",
      "  -p, --namespace-prefix <NAMESPACE_PREFIX>  Namespace every generated class is placed under",
      "  -n, --name-prefix <NAME_PREFIX>            Prefix prepended to every generated class name",
      "      --strict                               Refuse the reference-or-string loosening",
      "  -f, --format <FORMAT>                      Output format: json or pretty",
      "  -v, --verbose                              Verbose output",
      "  -h, --help                                 Print help",
      "  -V, --version                              Print version"]

namespace UsageError

/-- Whether the call asked for what it is told. -/
def isRequest : UsageError → Bool
  | helpWanted => true
  | versionWanted => true
  | _ => false

def message : UsageError → String
  | helpWanted => helpText
  | versionWanted => programName ++ " " ++ programVersion
  | nothingGiven => helpText
  | missingCommand => "error: a command is missing"
  | unknownCommand => "error: there is no such command"
  | missingFiles => "error: no files are given"
  | unknownArgument => "error: there is no such argument"
  | badValue => "error: an option has no value, or one that it cannot have"
  | unwantedValue => "error: a value is given to a switch"
  | givenTwice => "error: an option is given twice"

end UsageError

end ViewSchema.CommandLine
