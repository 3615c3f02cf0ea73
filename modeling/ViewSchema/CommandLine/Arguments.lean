/-! The arguments of a call. Options may stand before and after the command, which is `check` or `schema`
with the files to read; an option after the command wins over one before it. Options of one letter can
be written together, a value follows its option directly, after an equals sign or as the next argument,
and after `--` everything is a file.

A value is looked at when the next argument shows that it is complete. So of two mistakes the one that
is complete first is reported, and those after the command come before one in the last option in front
of it. -/

namespace ViewSchema.CommandLine

/-- How results are written. -/
inductive Format where
  | json
  | pretty
deriving DecidableEq

/-- What a call does with the files. -/
inductive Command where
  | check
  | schema
deriving DecidableEq

/-- The arguments of a call. -/
structure Arguments where
  config : Option String := none
  namespacePrefix : Option String := none
  namePrefix : Option String := none
  strict : Bool := false
  format : Format := .json
  verbose : Bool := false
  command : Command
  files : List String
deriving DecidableEq

/-- Why a call does not run. -/
inductive UsageError where
  /-- Help was asked for. -/
  | helpWanted
  /-- The version was asked for. -/
  | versionWanted
  /-- Nothing was given at all. -/
  | nothingGiven
  | missingCommand
  | unknownCommand
  | missingFiles
  | unknownArgument
  /-- A value is missing, empty where it must not be, or none of the choices. -/
  | badValue
  /-- A value was given to a switch. -/
  | unwantedValue
  | givenTwice
deriving DecidableEq

/-- Options with a value. -/
inductive ValueOption where
  | config
  | namespacePrefix
  | namePrefix
  | format
deriving DecidableEq

/-- Options without a value. -/
inductive Switch where
  | strict
  | verbose
deriving DecidableEq

/-- All that an option can be. -/
inductive OptionName where
  | value (option : ValueOption)
  | switch (switch : Switch)
  | help
  | version
deriving DecidableEq

/-- The option with a long name. The version can be asked for in front of the command only. -/
def OptionName.ofLong? (inFront : Bool) (name : String) : Option OptionName :=
  match name with
  | "config" => some (.value .config)
  | "namespace-prefix" => some (.value .namespacePrefix)
  | "name-prefix" => some (.value .namePrefix)
  | "format" => some (.value .format)
  | "strict" => some (.switch .strict)
  | "verbose" => some (.switch .verbose)
  | "help" => some .help
  | "version" => if inFront then some .version else none
  | _ => none

def OptionName.ofShort? (inFront : Bool) (letter : Char) : Option OptionName :=
  match letter with
  | 'C' => some (.value .config)
  | 'p' => some (.value .namespacePrefix)
  | 'n' => some (.value .namePrefix)
  | 'f' => some (.value .format)
  | 'v' => some (.switch .verbose)
  | 'h' => some .help
  | 'V' => if inFront then some .version else none
  | _ => none

def Command.ofName? (name : String) : Option Command :=
  if name = "check" then some .check else if name = "schema" then some .schema else none

def Format.ofName? (name : String) : Option Format :=
  if name = "json" then some .json else if name = "pretty" then some .pretty else none

/-- What an argument looks like. -/
inductive Word where
  /-- Two dashes alone. -/
  | escape
  /-- Two dashes and a name, perhaps with a value. -/
  | long (name : String) (value : Option String)
  /-- A dash and letters. -/
  | short (letters : List Char)
  | plain

def Word.ofString (s : String) : Word :=
  match s.toList with
  | ['-', '-'] => .escape
  | '-' :: '-' :: rest =>
    let name := String.ofList (rest.takeWhile (· != '='))
    match rest.dropWhile (· != '=') with
    | _ :: value => .long name (some (.ofList value))
    | [] => .long name none
  | '-' :: c :: rest => .short (c :: rest)
  | _ => .plain

/-- The part of a call before or after the command, as far as it is settled. -/
structure Given where
  values : List (ValueOption × String) := []
  switches : List Switch := []
  files : List String := []

/-- What has been read last and is not settled yet. -/
inductive Pending where
  | nothing
  /-- An option that still lacks its value. -/
  | option (option : ValueOption)
  | value (option : ValueOption) (value : String)
  | files (files : List String)

/-- How far a part of a call has been read. -/
structure Progress where
  given : Given := {}
  pending : Pending := .nothing

/-- Whether a value can be given to an option. -/
def ValueOption.accepts : ValueOption → String → Bool
  | config, value => !value.isEmpty
  | format, value => (Format.ofName? value).isSome
  | namespacePrefix, _ => true
  | namePrefix, _ => true

namespace Given

/-- The part with one more option and its value. -/
def withValue (given : Given) (option : ValueOption) (value : String) : Except UsageError Given :=
  if (given.values.lookup option).isSome then .error .givenTwice
  else if !option.accepts value then .error .badValue
  else .ok { given with values := (option, value) :: given.values }

/-- The part with one more switch. -/
def withSwitch (given : Given) (switch : Switch) : Except UsageError Given :=
  if given.switches.contains switch then .error .givenTwice
  else .ok { given with switches := switch :: given.switches }

def withFiles (given : Given) (files : List String) : Except UsageError Given :=
  if files.any String.isEmpty then .error .badValue
  else .ok { given with files := given.files ++ files }

def hasNoOption (given : Given) : Bool := given.values.isEmpty && given.switches.isEmpty

end Given

namespace Progress

/-- The part of the call that is known once what was read last is taken as complete. -/
def settle (progress : Progress) : Except UsageError Given :=
  match progress.pending with
  | .nothing => .ok progress.given
  | .option _ => .error .badValue
  | .value option value => progress.given.withValue option value
  | .files files => progress.given.withFiles files

/-- Goes on with an option that has its value with it, or waits for the value. -/
def takeValueOption (progress : Progress) (option : ValueOption) (value : Option String) :
    Except UsageError Progress := do
  let given ← progress.settle
  match value with
  | some value => return ⟨← given.withValue option value, .nothing⟩
  | none => return ⟨given, .option option⟩

def takePlainOption (progress : Progress) (name : OptionName) : Except UsageError Progress := do
  let given ← progress.settle
  match name with
  | .switch switch => return ⟨← given.withSwitch switch, .nothing⟩
  | .version => .error .versionWanted
  | _ => .error .helpWanted

/-- Goes on with an option by its long name. -/
def takeLong (inFront : Bool) (progress : Progress) (name : String) (value : Option String) :
    Except UsageError Progress :=
  match OptionName.ofLong? inFront name with
  | none => .error .unknownArgument
  | some (.value option) => progress.takeValueOption option value
  | some name => if value.isSome then .error .unwantedValue else progress.takePlainOption name

/-- Goes on with options by their letters. What follows the letter of an option with a value is the
value. -/
def takeShort (inFront : Bool) (progress : Progress) : List Char → Except UsageError Progress
  | [] => .ok progress
  | letter :: rest =>
    match OptionName.ofShort? inFront letter with
    | none => .error .unknownArgument
    | some (.value option) =>
      progress.takeValueOption option <|
        match rest with
        | [] => none
        | '=' :: value => some (.ofList value)
        | value => some (.ofList value)
    | some name => do takeShort inFront (← progress.takePlainOption name) rest

def takeFile (progress : Progress) (file : String) : Except UsageError Progress :=
  match progress.pending with
  | .files files => .ok { progress with pending := .files (files ++ [file]) }
  | _ => do return ⟨← progress.settle, .files [file]⟩

end Progress

/-- The part of a call after the command. `escaped` says that no more options are expected. -/
def readAfter (escaped : Bool) (progress : Progress) : List String → Except UsageError Given
  | [] => do
    let given ← progress.settle
    if given.files.isEmpty then .error .missingFiles else .ok given
  | arg :: rest =>
    if escaped then do readAfter true (← progress.takeFile arg) rest
    else
      match Word.ofString arg with
      | .escape => readAfter true progress rest
      | .long name value => do readAfter false (← progress.takeLong false name value) rest
      | .short letters => do readAfter false (← progress.takeShort false letters) rest
      | .plain =>
        match progress.pending with
        | .option option => readAfter false { progress with pending := .value option arg } rest
        | _ => do readAfter false (← progress.takeFile arg) rest

/-- Help about commands: about the program, or about one command that exists. -/
def readHelp : List String → UsageError
  | [] => .helpWanted
  | [name] => if name = "help" || (Command.ofName? name).isSome then .helpWanted else .unknownCommand
  | _ => .unknownCommand

/-- The arguments of a call from the parts before and after the command. -/
def Arguments.ofGiven (command : Command) (front after : Given) : Arguments :=
  let value (option : ValueOption) := (after.values.lookup option) <|> front.values.lookup option
  let switch (switch : Switch) := after.switches.contains switch || front.switches.contains switch
  { config := value .config
    namespacePrefix := value .namespacePrefix
    namePrefix := value .namePrefix
    strict := switch .strict
    format := ((value .format).bind Format.ofName?).getD .json
    verbose := switch .verbose
    command
    files := after.files }

/-- A call from its part before the command on. -/
def readFront (progress : Progress) : List String → Except UsageError Arguments
  | [] => do
    let given ← progress.settle
    .error (if given.hasNoOption then .nothingGiven else .missingCommand)
  | arg :: rest =>
    match progress.pending, Word.ofString arg with
    | .option option, .plain => readFront { progress with pending := .value option arg } rest
    | _, .plain =>
      if arg = "help" then .error (readHelp rest)
      else
        match Command.ofName? arg with
        | none => .error .unknownCommand
        | some command => do
          let after ← readAfter false {} rest
          let front ← progress.settle
          return .ofGiven command front after
    | _, .escape =>
      match rest with
      | [] => readFront progress rest
      | next :: _ =>
        .error (if next = "help" || (Command.ofName? next).isSome then .unknownArgument else .unknownCommand)
    | _, .long name value => do readFront (← progress.takeLong true name value) rest
    | _, .short letters => do readFront (← progress.takeShort true letters) rest

def Arguments.parse (args : List String) : Except UsageError Arguments := readFront {} args

end ViewSchema.CommandLine
