import ViewSchema.Failure
import ViewSchema.View
import ViewSchema.Reference.ImportSet

/-! The views of one run by their keys, with what generated code has to know of them together: which
names are shared, and how one view refers to the others. -/

namespace ViewSchema

/-- The views of one run. -/
structure Registry where
  views : SortedMap ViewKey ViewDefinition := .empty
  /-- Namespaces whose classes need no import. -/
  implicitNamespaces : SortedSet String := .empty

namespace Registry

instance : EmptyCollection Registry := ⟨⟨.empty, .empty⟩⟩

instance : Inhabited Registry := ⟨∅⟩

/-- The registry with one more view; a view with the same key is replaced. -/
def register (registry : Registry) (view : ViewDefinition) : Registry :=
  { registry with views := registry.views.insert view.key view }

def get? (registry : Registry) (key : ViewKey) : Option ViewDefinition := registry.views.get? key

def atPath? (registry : Registry) (path : String) : Option ViewDefinition := registry.get? (.ofPath path)

def identity? (registry : Registry) (key : ViewKey) : Option Identity :=
  (registry.get? key).map ViewDefinition.identity

/-- The findings against all views, view by view. -/
def errors (registry : Registry) : List DefinitionError :=
  registry.views.values.flatMap ViewDefinition.errors

/-- The warnings of all views, view by view. -/
def warnings (registry : Registry) : List Warning :=
  registry.views.values.flatMap ViewDefinition.warnings

def hasErrors (registry : Registry) : Bool := registry.views.values.any ViewDefinition.hasErrors

/-- The registry itself, if nothing was found against any view. -/
def validated (registry : Registry) : Except Failure Registry :=
  if registry.hasErrors then
    .error (.validation registry.errors.length
      (registry.views.values.filter ViewDefinition.hasErrors).length)
  else .ok registry

/-! ### Shared names -/

/-- The keys of the other views with the class name of a view. -/
def namesakes (registry : Registry) (view : ViewDefinition) : List ViewKey :=
  (registry.views.values.filter fun other =>
    other.fullName == view.fullName && other.key != view.key).map ViewDefinition.key

/-- The registry with a finding recorded against every view whose class name is shared. -/
def recordCollisions (registry : Registry) : Registry :=
  { registry with
    views := registry.views.map fun _ view =>
      match registry.namesakes view with
      | [] => view
      | others => view.pushError (.nameCollision view.key view.fullName others) }

/-! ### References between views -/

/-- How generated code refers to a view: by its class, or by its path if the view is not registered. -/
def typeReference (registry : Registry) (key : ViewKey) : TypeReference :=
  match registry.identity? key with
  | some identity => .ofIdentity identity
  | none => .ofFullName key.path

/-- The names of the types that the values of a field have, below all lists and maps. -/
def valueTypes (registry : Registry) (field : FieldDefinition) : SortedSet String :=
  match field.type? with
  | none => .empty
  | some type =>
    match type.leaf with
    | .objectReference views =>
      .ofList (views.toList.map fun key => (registry.typeReference key).fullName)
    | leaf => .ofList [leaf.name]

/-- The views that the typed fields of a view refer to, field by field. -/
def targets (view : ViewDefinition) : List ViewKey :=
  view.typedFields.flatMap fun field =>
    match field.type? with
    | some type => type.references.toList
    | none => []

def planOf (registry : Registry) (view : ViewDefinition) : ReferencePlan :=
  .ofReferences
    ((ImportSet.forView view.identity).withImplicitNamespaces registry.implicitNamespaces.toList)
    ((targets view).map registry.typeReference)

/-- How the view with a key refers to the others. -/
def plan? (registry : Registry) (key : ViewKey) : Option ReferencePlan :=
  (registry.get? key).map registry.planOf

def plans (registry : Registry) : SortedMap ViewKey ReferencePlan :=
  registry.views.map fun _ view => registry.planOf view

end Registry

end ViewSchema
