import ViewSchema.Field

/-! A view as it goes into generated code: its class, its fields, and the findings against it. Findings are
collected once, in a fixed order, and a finding that is there already is not repeated. -/

namespace ViewSchema

/-- A view as it goes into generated code. -/
structure ViewDefinition where
  identity : Identity
  fields : SortedMap String FieldDefinition
  /-- What the documents say about the view. -/
  notes : SortedSet String
  /-- The documents that use the view. -/
  origins : SortedSet String
  errors : List DefinitionError := []
  warnings : List Warning := []
  /-- Whether the findings of the class and of the fields have been collected. -/
  validated : Bool := false

/-- A list with one more element at the end, unless it is there already. -/
def appendNew [DecidableEq α] (l : List α) (a : α) : List α := if a ∈ l then l else l ++ [a]

namespace ViewDefinition

/-- The definition of a view before its findings are collected. Of two fields with one name the later
counts. -/
def ofFields (identity : Identity) (fields : List FieldDefinition) (usage : Option ViewUsage) :
    ViewDefinition where
  identity := identity
  fields := .ofList (fields.map fun field => (field.name, field))
  notes := (usage.getD {}).notes
  origins := (usage.getD {}).origins

def key (view : ViewDefinition) : ViewKey := view.identity.key

def fullName (view : ViewDefinition) : String := view.identity.fullName

/-- The view with one more finding, unless it is recorded already. -/
def pushError (view : ViewDefinition) (error : DefinitionError) : ViewDefinition :=
  { view with errors := appendNew view.errors error }

/-- The findings against the class and the fields of the view, in this order. -/
def ownErrors (view : ViewDefinition) : List DefinitionError :=
  view.identity.errors ++ view.fields.values.flatMap FieldDefinition.errors

/-- The mixtures of kinds that were tolerated in the fields of the view. -/
def ownWarnings (view : ViewDefinition) : List Warning :=
  view.fields.values.flatMap FieldDefinition.warnings

/-- The view with its findings collected; nothing happens the second time. -/
def validate (view : ViewDefinition) : ViewDefinition :=
  if view.validated then view
  else
    { view with
      errors := view.ownErrors.foldl appendNew view.errors
      warnings := view.ownWarnings.foldl appendNew view.warnings
      validated := true }

/-- The fields that have a type, in the order of their names. -/
def typedFields (view : ViewDefinition) : List FieldDefinition :=
  view.fields.values.filter fun field => field.type?.isSome

def field? (view : ViewDefinition) (name : String) : Option FieldDefinition := view.fields.get? name

def hasErrors (view : ViewDefinition) : Bool := !view.errors.isEmpty

end ViewDefinition

end ViewSchema
