import ViewSchema.Config.Decode

/-! How much a run tells about itself while it goes on. -/

namespace ViewSchema

/-- How much a run tells about itself. -/
inductive LogLevel where
  | trace
  | debug
  | info
  | warn
  | error
deriving DecidableEq

namespace LogLevel

instance : Inhabited LogLevel := ⟨.info⟩

def name : LogLevel → String
  | trace => "TRACE"
  | debug => "DEBUG"
  | info => "INFO"
  | warn => "WARN"
  | error => "ERROR"

/-- All levels, from the most talkative on. -/
def all : List LogLevel := [trace, debug, info, warn, error]

/-- The level that a value names, in capital letters. -/
def ofJson? (value : Json) : Option LogLevel := do
  let wanted ← choiceName? value
  all.find? (·.name == wanted)

end LogLevel

end ViewSchema
