import ViewSchema.Encoding
import ViewSchema.Proofs.RegistryContents

/-! A run is decided by what its samples say and not by how they came. Neither the order of the samples,
nor their number, nor the values and documents that they were taken from can be told from anything that
is read off the registry. -/
namespace ViewSchema.RunIndependence
open UnificationSemantics RegistryContents

/-- What a sample says, without its value and its document. -/
def evidence (sample : Sample) : ViewKey × String × Kind × Option String :=
  (sample.view, sample.field, sample.kind, sample.note)

/-- Two corpora that know the same of their views and whose samples say the same, each at least once. -/
structure SameEvidence (a b : Corpus) : Prop where
  views : a.views = b.views
  samples : ∀ said, said ∈ a.samples.map evidence ↔ said ∈ b.samples.map evidence

/-- What is read off a field, its samples apart. -/
structure FieldFacts where
  name : String
  type : Option FieldType
  looselyTyped : Bool
  notes : SortedSet String
  errors : List DefinitionError
  warnings : List Warning

def fieldFacts (field : FieldDefinition) : FieldFacts :=
  ⟨field.name, field.type?, field.looselyTyped, field.notes, field.errors, field.warnings⟩

/-- What is read off a view. -/
structure ViewFacts where
  identity : Identity
  fields : SortedMap String FieldFacts
  notes : SortedSet String
  origins : SortedSet String
  errors : List DefinitionError
  warnings : List Warning

def viewFacts (view : ViewDefinition) : ViewFacts :=
  ⟨view.identity, view.fields.map fun _ field => fieldFacts field, view.notes, view.origins, view.errors,
    view.warnings⟩

/-- The names of the types of every field's values, view by view. -/
def allValueTypes (registry : Registry) : SortedMap ViewKey (SortedMap String (SortedSet String)) :=
  registry.views.map fun _ view => view.fields.map fun _ field => registry.valueTypes field

/-! ### What the pipeline reads is in the evidence -/

section
variable {a b : Corpus}

private theorem exists_sample_of_included
    (included : ∀ said, said ∈ a.samples.map evidence → said ∈ b.samples.map evidence)
    {shows : ViewKey → String → Kind → Option String → Prop} :
    (∃ sample ∈ a.samples, shows sample.view sample.field sample.kind sample.note) →
      ∃ sample ∈ b.samples, shows sample.view sample.field sample.kind sample.note := by
  rintro ⟨sample, seen, shown⟩
  obtain ⟨other, held, equal⟩ := List.mem_map.mp (included _ (List.mem_map_of_mem seen))
  obtain ⟨view, field, kind, note⟩ : other.view = sample.view ∧ other.field = sample.field ∧
      other.kind = sample.kind ∧ other.note = sample.note := by
    simpa [evidence] using equal
  exact ⟨other, held, by rwa [view, field, kind, note]⟩

/-- Nothing that a sample shows by what it says tells the corpora apart. -/
theorem exists_sample_iff (same : SameEvidence a b)
    (shows : ViewKey → String → Kind → Option String → Prop) :
    (∃ sample ∈ a.samples, shows sample.view sample.field sample.kind sample.note) ↔
      ∃ sample ∈ b.samples, shows sample.view sample.field sample.kind sample.note :=
  ⟨exists_sample_of_included fun said => (same.samples said).mp,
    exists_sample_of_included fun said => (same.samples said).mpr⟩

theorem sameKinds (same : SameEvidence a b) : SameKinds a b where
  used := congrArg SortedMap.keys same.views
  sampled view field kind := exists_sample_iff same fun seenView seenField seenKind _ =>
    seenView = view ∧ seenField = field ∧ seenKind = kind

theorem viewKeys_eq (same : SameEvidence a b) (config : Config) :
    viewKeys config a = viewKeys config b :=
  (sameKinds same).viewKeys_eq config

theorem fieldNames_eq (same : SameEvidence a b) (key : ViewKey) : fieldNames a key = fieldNames b key :=
  (sameKinds same).fieldNames_eq key

theorem outcomeOf_eq (same : SameEvidence a b) (config : Config) (key : ViewKey) (name : String) :
    outcomeOf config a key name = outcomeOf config b key name :=
  (sameKinds same).outcomeOf_eq config key name

theorem classOf_eq (same : SameEvidence a b) (config : Config) : classOf config a = classOf config b := by
  funext key
  rw [classOf, classOf, viewKeys_eq same]

theorem notes_fieldOf (same : SameEvidence a b) (config : Config) (key : ViewKey) (name : String) :
    (fieldOf config a key name).notes = (fieldOf config b key name).notes := by
  ext note
  have sampled := exists_sample_iff same fun view field _ said =>
    (view = key ∧ field = name) ∧ said = some note
  simpa only [FieldDefinition.notes, fieldOf, SortedSet.mem_ofList, List.mem_filterMap, mem_fieldSamples,
    and_assoc] using sampled

/-! ### Fields -/

theorem fieldFacts_eq (same : SameEvidence a b) (config : Config) (key : ViewKey) (name : String) :
    fieldFacts (fieldOf config a key name) = fieldFacts (fieldOf config b key name) := by
  have outcome := outcomeOf_eq same config key name
  have notes := notes_fieldOf same config key name
  simp only [fieldFacts, notes]
  simp only [FieldDefinition.type?, FieldDefinition.looselyTyped, FieldDefinition.errors,
    FieldDefinition.warnings, fieldOf, outcome]

/-- The serialized form of a field is made of its facts. -/
theorem field_toJson_eq {field other : FieldDefinition} (facts : fieldFacts field = fieldFacts other) :
    field.toJson = other.toJson := by
  obtain ⟨name, type, loose, notes, errors, warnings⟩ := FieldFacts.mk.inj facts
  simp only [FieldDefinition.toJson, name, type, loose, notes, errors, warnings]

/-! ### Views -/

theorem ownFindings_eq (same : SameEvidence a b) (config : Config) (key : ViewKey) :
    ownFindings config a key = ownFindings config b key := by
  have ofFields : (fun name => (fieldOf config a key name).errors) =
      fun name => (fieldOf config b key name).errors := by
    funext name
    exact congrArg FieldFacts.errors (fieldFacts_eq same config key name)
  rw [ownFindings, ownFindings, classOf_eq same, fieldNames_eq same, ofFields]

theorem collisionOf_eq (same : SameEvidence a b) (config : Config) (key : ViewKey) :
    collisionOf config a key = collisionOf config b key := by
  simp only [collisionOf, namesakesOf, classOf_eq same, viewKeys_eq same]

theorem warningsOf_eq (same : SameEvidence a b) (config : Config) (key : ViewKey) :
    warningsOf config a key = warningsOf config b key := by
  have ofFields : (fun name => (fieldOf config a key name).warnings) =
      fun name => (fieldOf config b key name).warnings := by
    funext name
    exact congrArg FieldFacts.warnings (fieldFacts_eq same config key name)
  rw [warningsOf, warningsOf, fieldNames_eq same, ofFields]

/-- The definitions of a view differ in the samples of its fields at most. -/
theorem viewOf_eq (same : SameEvidence a b) (config : Config) (key : ViewKey) :
    viewOf config a key =
      { viewOf config b key with fields := .ofKeys (fieldNames b key) (fieldOf config a key) } := by
  have usage : a.usage? key = b.usage? key := congrArg (·.get? key) same.views
  simp only [viewOf, classOf_eq same, fieldNames_eq same, usage, ownFindings_eq same, collisionOf_eq same,
    warningsOf_eq same]

theorem viewFacts_eq (same : SameEvidence a b) (config : Config) (key : ViewKey) :
    viewFacts (viewOf config a key) = viewFacts (viewOf config b key) := by
  have fields : (SortedMap.ofKeys (fieldNames b key) (fieldOf config a key)).map
        (fun _ field => fieldFacts field) =
      (viewOf config b key).fields.map fun _ field => fieldFacts field := by
    simp only [viewOf, SortedMap.map_ofKeys, fieldFacts_eq same]
  rw [viewOf_eq same, viewFacts, viewFacts, fields]

theorem view_toJson_eq (same : SameEvidence a b) (config : Config) (key : ViewKey) :
    (viewOf config a key).toJson = (viewOf config b key).toJson := by
  have fields : (SortedMap.ofKeys (fieldNames b key) (fieldOf config a key)).entries.map
        (fun entry => (entry.1, entry.2.toJson)) =
      (viewOf config b key).fields.entries.map fun entry => (entry.1, entry.2.toJson) := by
    simp only [viewOf, SortedMap.entries_ofKeys, List.map_map, Function.comp_def,
      field_toJson_eq (fieldFacts_eq same config key _)]
  rw [viewOf_eq same, ViewDefinition.toJson, ViewDefinition.toJson, fields]

/-- Which views a view refers to, and in which order, is decided by the types of its fields. -/
theorem targets_eq (same : SameEvidence a b) (config : Config) (key : ViewKey) :
    Registry.targets (viewOf config a key) = Registry.targets (viewOf config b key) := by
  have type : ∀ name, (fieldOf config a key name).type? = (fieldOf config b key name).type? := fun name =>
    congrArg FieldFacts.type (fieldFacts_eq same config key name)
  simp only [Registry.targets, ViewDefinition.typedFields, viewOf, SortedMap.values_ofKeys,
    fieldNames_eq same, List.filter_map, List.flatMap_map, Function.comp_def, type]

/-! ### The registry -/

theorem typeReference_eq (same : SameEvidence a b) (config : Config) :
    (Registry.build config a).typeReference = (Registry.build config b).typeReference := by
  funext key
  rw [typeReference_build, typeReference_build, viewKeys_eq same, classOf_eq same]

theorem toJson_eq (same : SameEvidence a b) (config : Config) :
    (Registry.build config a).toJson = (Registry.build config b).toJson := by
  simp only [Registry.toJson, viewMapJson, views_build, SortedMap.entries_ofKeys, List.map_map,
    Function.comp_def, viewKeys_eq same, view_toJson_eq same]

theorem report_eq (same : SameEvidence a b) (config : Config) :
    (Registry.build config a).report = (Registry.build config b).report := by
  have errors : (Registry.build config a).errors = (Registry.build config b).errors := by
    simp only [errors_build, viewKeys_eq same, viewOf, ownFindings_eq same, collisionOf_eq same]
  have warnings : (Registry.build config a).warnings = (Registry.build config b).warnings := by
    rw [warnings_build, warnings_build, viewKeys_eq same, funext (warningsOf_eq same config)]
  simp only [Registry.report, errors, warnings, views_build, SortedMap.size_ofKeys, SortedMap.values_ofKeys,
    List.length_flatMap, List.map_map, Function.comp_def, viewOf, List.length_map, viewKeys_eq same,
    fieldNames_eq same]

theorem planOf_eq (same : SameEvidence a b) (config : Config) (key : ViewKey) :
    (Registry.build config a).planOf (viewOf config a key) =
      (Registry.build config b).planOf (viewOf config b key) := by
  have identity : (viewOf config a key).identity = (viewOf config b key).identity :=
    congrFun (classOf_eq same config) key
  rw [Registry.planOf, Registry.planOf, identity, implicitNamespaces_build, implicitNamespaces_build,
    targets_eq same, typeReference_eq same]

theorem valueTypes_eq (same : SameEvidence a b) (config : Config) (key : ViewKey) (name : String) :
    (Registry.build config a).valueTypes (fieldOf config a key name) =
      (Registry.build config b).valueTypes (fieldOf config b key name) := by
  have type : (fieldOf config a key name).type? = (fieldOf config b key name).type? :=
    congrArg FieldFacts.type (fieldFacts_eq same config key name)
  rw [Registry.valueTypes, Registry.valueTypes, type, typeReference_eq same]

end

/-- Whatever is read off a registry is decided by the evidence of its corpus: the facts of every view and
field, the serialized form, the summary, the references between views and the types of values. -/
theorem build_eq_of_evidence {a b : Corpus} (same : SameEvidence a b) (config : Config) :
    ((Registry.build config a).views.map fun _ view => viewFacts view) =
        ((Registry.build config b).views.map fun _ view => viewFacts view) ∧
      (Registry.build config a).toJson = (Registry.build config b).toJson ∧
      (Registry.build config a).report = (Registry.build config b).report ∧
      (Registry.build config a).plans = (Registry.build config b).plans ∧
      allValueTypes (Registry.build config a) = allValueTypes (Registry.build config b) := by
  refine ⟨?_, toJson_eq same config, report_eq same config, ?_, ?_⟩
  · simp only [views_build, SortedMap.map_ofKeys, viewKeys_eq same, viewFacts_eq same]
  · simp only [Registry.plans, views_build, SortedMap.map_ofKeys, viewKeys_eq same, planOf_eq same]
  · simp only [allValueTypes, views_build, viewOf, SortedMap.map_ofKeys, viewKeys_eq same,
      fieldNames_eq same, valueTypes_eq same]

/-- A title that is a text in one document, and in another one a number. -/
def titleText : Sample where
  view := ⟨"card.hbs"⟩
  field := "title"
  kind := .string
  payload := .string "Welcome"
  origin := "first.json"
  note := some "The heading"

def titleNumber : Sample where
  view := ⟨"card.hbs"⟩
  field := "title"
  kind := .number
  payload := .number (.integer 7)
  origin := "second.json"

/-- The conflict is found in the same words if the number comes first and another text is seen twice. -/
theorem build_eq_of_evidence_titles :
    let first := Corpus.ofSamples [titleText, titleNumber]
    let second := Corpus.ofSamples
      [titleNumber, { titleText with payload := .string "Hello" }, { titleText with payload := .null }]
    SameEvidence first second ∧ (Registry.build {} first).report = (Registry.build {} second).report ∧
      (Registry.build {} first).report.errors.length = 1 := by
  intro first second
  have samples : ∀ said, said ∈ first.samples.map evidence ↔ said ∈ second.samples.map evidence := by
    intro said
    have ofFirst : first.samples.map evidence = [evidence titleText, evidence titleNumber] := rfl
    have ofSecond : second.samples.map evidence =
        [evidence titleNumber, evidence titleText, evidence titleText] := rfl
    simp [ofFirst, ofSecond, or_comm]
  have same : SameEvidence first second := ⟨by decide +kernel, samples⟩
  have reports := (build_eq_of_evidence same {}).2.2.1
  exact ⟨same, reports, by decide +kernel⟩

end ViewSchema.RunIndependence
