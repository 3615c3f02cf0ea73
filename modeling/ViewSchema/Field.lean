import ViewSchema.Corpus
import ViewSchema.Diagnostic

/-! A field of a view: the samples that were seen of it, and what unifying their kinds came to. Its type,
its errors and its warnings are read off that one outcome, so they can never disagree. -/

namespace ViewSchema

/-- A field of a view. -/
structure FieldDefinition where
  view : ViewKey
  name : String
  /-- The samples of the field in the order in which they were seen. -/
  samples : List Sample
  /-- The type of the field, or why it has none. -/
  outcome : Except UnifyError Unified

namespace FieldDefinition

/-- The field that some samples belong to; there is none without a sample. -/
def ofSamples? (options : UnifyOptions) (view : ViewKey) (name : String) (samples : List Sample) :
    Option FieldDefinition :=
  if samples.isEmpty then none
  else some ⟨view, name, samples, unify options (samples.map Sample.kind)⟩

def observedKinds (field : FieldDefinition) : SortedSet Kind := .ofList (field.samples.map Sample.kind)

def notes (field : FieldDefinition) : SortedSet String := .ofList (field.samples.filterMap Sample.note)

/-- The type of the field, if it has one. -/
def type? (field : FieldDefinition) : Option FieldType := field.outcome.toOption.map Unified.type

/-- Whether texts are let pass where views are expected. -/
def looselyTyped (field : FieldDefinition) : Bool :=
  match field.outcome with
  | .ok unified => unified.isLooselyTyped
  | .error _ => false

def errors (field : FieldDefinition) : List DefinitionError :=
  match field.outcome with
  | .ok _ => []
  | .error cause => [.untypedField field.view field.name cause]

/-- The mixtures of kinds that were tolerated in the field. -/
def warnings (field : FieldDefinition) : List Warning :=
  match field.outcome with
  | .ok unified => unified.loosenings.map (⟨field.view, field.name, ·⟩)
  | .error _ => []

def hasErrors (field : FieldDefinition) : Bool := !field.errors.isEmpty

end FieldDefinition

end ViewSchema
