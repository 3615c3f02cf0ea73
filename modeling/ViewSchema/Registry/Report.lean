import ViewSchema.Registry.Basic

/-! The summary of a run: how much there is, and everything that was found. -/

namespace ViewSchema

/-- The summary of a run. -/
structure Report where
  /-- The number of views. -/
  views : Nat
  /-- The number of fields of all views. -/
  fields : Nat
  errors : List DefinitionError
  warnings : List Warning
deriving DecidableEq

def Registry.report (registry : Registry) : Report where
  views := registry.views.size
  fields := (registry.views.values.flatMap fun view => view.fields.values).length
  errors := registry.errors
  warnings := registry.warnings

namespace Report

def isSuccess (report : Report) : Bool := report.errors.isEmpty

def totals (report : Report) : String :=
  toString report.views ++ " view(s), " ++ toString report.fields ++ " field(s), " ++
    toString report.errors.length ++ " error(s), " ++ toString report.warnings.length ++ " warning(s)"

/-- The lines of a summary: warnings, errors, and the totals. -/
def lines (report : Report) : List String :=
  report.warnings.map (fun warning => "WARN: " ++ warning.message) ++
    report.errors.map (fun error => "ERROR: " ++ error.message) ++ [report.totals]

def text (report : Report) : String := "\n".intercalate report.lines

end Report

end ViewSchema
