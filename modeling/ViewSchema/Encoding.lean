import ViewSchema.Registry.Report

/-! JSON forms of what a run takes and gives. A value with several forms is an object that names its form
under one key and holds the rest under others; a set is an array in ascending order, and a map from
views or fields is an object. -/

namespace ViewSchema

def taggedForm (tag form : String) : Json := .record [(tag, .string form)]

def taggedContent (tag form : String) (content : Json) : Json :=
  .record [(tag, .string form), ("of", content)]

def SortedSet.toJson (set : SortedSet String) : Json := .texts set.toList

/-- A map from views, as an object. -/
def viewMapJson (encode : β → Json) (map : SortedMap ViewKey β) : Json :=
  .object (map.entries.map fun (key, value) => (key.path, encode value))

/-- A text or nothing. -/
def optionalText : Option String → Json
  | some text => .string text
  | none => .null

def ViewKey.toJson (key : ViewKey) : Json := .string key.path

def viewsJson (keys : List ViewKey) : Json := .array (keys.map ViewKey.toJson)

def Category.toJson : Category → Json
  | boolean => .string "boolean"
  | string => .string "string"
  | number => .string "number"
  | list => .string "list"
  | map => .string "map"
  | objectReference => .string "object_reference"

mutual

/-- The kind with the kinds of what it holds. -/
def Kind.toJson : Kind → Json
  | .boolean => taggedForm "kind" "boolean"
  | .string => taggedForm "kind" "string"
  | .number => taggedForm "kind" "number"
  | .list items => taggedContent "kind" "list" (.array (Kind.toJsonItems items))
  | .map items => taggedContent "kind" "map" (.array (Kind.toJsonItems items))
  | .objectReference view => taggedContent "kind" "object_reference" view.toJson

def Kind.toJsonItems : List Kind → List Json
  | [] => []
  | kind :: rest => kind.toJson :: Kind.toJsonItems rest

end

def FieldType.toJson : FieldType → Json
  | boolean => taggedForm "type" "boolean"
  | string => taggedForm "type" "string"
  | number => taggedForm "type" "number"
  | list item => taggedContent "type" "list" item.toJson
  | map item => taggedContent "type" "map" item.toJson
  | objectReference views => taggedContent "type" "object_reference" (viewsJson views.toList)
  | anything => taggedForm "type" "opaque"

/-- The sample with its value; a sample without a note has no note key. -/
def Sample.toJson (sample : Sample) : Json :=
  .record <|
    [("view", sample.view.toJson), ("field_name", .string sample.field), ("kind", sample.kind.toJson),
      ("raw_payload", sample.payload), ("origin", .string sample.origin)] ++
      (sample.note.map fun note => ("note", Json.string note)).toList

def ViewUsage.toJson (usage : ViewUsage) : Json :=
  .record [("origins", usage.origins.toJson), ("notes", usage.notes.toJson)]

def ConflictPolicy.toJson : ConflictPolicy → Json
  | reject => .string "error"
  | degrade => .string "opaque"

def Config.toJson (config : Config) : Json :=
  .record
    [("namespace_prefix", .string config.namespacePrefix),
      ("name_prefix", optionalText config.namePrefix), ("name_suffix", .string config.nameSuffix),
      ("strict", .bool config.strict), ("conflict_policy", config.conflictPolicy.toJson),
      ("map_templates", config.mapTemplates.toJson), ("map_keys", config.mapKeys.toJson),
      ("implicit_namespaces", config.implicitNamespaces.toJson)]

def Identity.toJson (identity : Identity) : Json :=
  .record
    [("key", identity.key.toJson), ("namespace", .string identity.nameSpace),
      ("local_name", .string identity.localName)]

/-- The reference; only one to a built-in type says so. -/
def TypeReference.toJson (reference : TypeReference) : Json :=
  .record <|
    [("namespace", .string reference.nameSpace), ("local_name", .string reference.localName)] ++
      if reference.builtin then [("builtin", .bool true)] else []

def ReferencePlan.toJson (plan : ReferencePlan) : Json :=
  .record [("imports", plan.imports.toJson), ("qualified", plan.qualified.toJson)]

def DefinitionError.toJson : DefinitionError → Json
  | untypedField view field .noValue =>
    .record [("kind", .string "no_value"), ("view", view.toJson), ("field", .string field)]
  | untypedField view field (.conflictingTypes kinds) =>
    .record
      [("kind", .string "conflicting_types"), ("view", view.toJson), ("field", .string field),
        ("kinds", .texts kinds)]
  | invalidIdentity view className fault =>
    .record
      [("kind", .string "invalid_identity"), ("view", view.toJson), ("identity", .string className),
        ("reason", .string fault.reason)]
  | nameCollision view className others =>
    .record
      [("kind", .string "name_collision"), ("view", view.toJson), ("class_name", .string className),
        ("others", viewsJson others)]

def Warning.toJson (warning : Warning) : Json :=
  let (kind, kinds) := match warning.loosening with
    | .referenceOrString kinds => ("loosely_typed", kinds)
    | .fallback kinds => ("conflict_fallback", kinds)
  .record
    [("kind", .string kind), ("view", warning.view.toJson), ("field", .string warning.field),
      ("kinds", .texts kinds)]

def errorsJson (errors : List DefinitionError) : Json := .array (errors.map DefinitionError.toJson)

def warningsJson (warnings : List Warning) : Json := .array (warnings.map Warning.toJson)

/-- The field without its samples; errors and warnings are left out where there are none. -/
def FieldDefinition.toJson (field : FieldDefinition) : Json :=
  .record <|
    [("name", .string field.name),
      ("effective_type", (field.type?.map FieldType.toJson).getD .null),
      ("loosely_typed", .bool field.looselyTyped), ("notes", field.notes.toJson)] ++
      (if field.errors.isEmpty then [] else [("errors", errorsJson field.errors)]) ++
      if field.warnings.isEmpty then [] else [("warnings", warningsJson field.warnings)]

/-- The view with its fields and the findings against it. -/
def ViewDefinition.toJson (view : ViewDefinition) : Json :=
  .record
    [("identity", view.identity.toJson),
      ("fields", .object (view.fields.entries.map fun (name, field) => (name, field.toJson))),
      ("notes", view.notes.toJson), ("origins", view.origins.toJson),
      ("errors", errorsJson view.errors), ("warnings", warningsJson view.warnings)]

def Registry.toJson (registry : Registry) : Json :=
  .record [("views", viewMapJson ViewDefinition.toJson registry.views)]

def Registry.plansJson (registry : Registry) : Json := viewMapJson ReferencePlan.toJson registry.plans

def Report.toJson (report : Report) : Json :=
  .record
    [("views", .count report.views), ("fields", .count report.fields),
      ("errors", errorsJson report.errors), ("warnings", warningsJson report.warnings)]

end ViewSchema
