import Mathlib.Data.List.Nodup
import ViewSchema.Proofs.UnificationSemantics
import ViewSchema.Registry.Assembly

/-! What a finished registry holds. Registration, the collection of findings and the search for shared
names all end in one value that can be written down directly: a definition for each view key, with its
fields by name and with findings that are listed and never merged. Everything that is read off a
registry is read off this value. -/
namespace ViewSchema.RegistryContents
open UnificationSemantics

/-- The class of a view, as the views of the corpus together decide it. -/
def classOf (config : Config) (corpus : Corpus) (key : ViewKey) : Identity :=
  (Naming.ofViews config (viewKeys config corpus).toList).identify key

/-- The set of kinds that were seen in a field of a view. -/
def kindsSeen (corpus : Corpus) (key : ViewKey) (name : String) : SortedSet Kind :=
  .ofList ((fieldSamples corpus key name).map Sample.kind)

/-- What unification makes of a field of a view. -/
def outcomeOf (config : Config) (corpus : Corpus) (key : ViewKey) (name : String) :
    Except UnifyError Unified :=
  unify config.unifyOptions (kindsSeen corpus key name).toList

/-- A field of a view. -/
def fieldOf (config : Config) (corpus : Corpus) (key : ViewKey) (name : String) : FieldDefinition :=
  ⟨key, name, fieldSamples corpus key name, outcomeOf config corpus key name⟩

/-- The other views with the class name of a view, in ascending order. -/
def namesakesOf (config : Config) (corpus : Corpus) (key : ViewKey) : List ViewKey :=
  (viewKeys config corpus).toList.filter fun other =>
    (classOf config corpus other).fullName == (classOf config corpus key).fullName && other != key

/-- The findings against the class and the fields of a view. -/
def ownFindings (config : Config) (corpus : Corpus) (key : ViewKey) : List DefinitionError :=
  (classOf config corpus key).errors ++
    (fieldNames corpus key).toList.flatMap fun name => (fieldOf config corpus key name).errors

/-- The finding against a class name that other views share, if any do. -/
def collisionOf (config : Config) (corpus : Corpus) (key : ViewKey) : List DefinitionError :=
  match namesakesOf config corpus key with
  | [] => []
  | others => [.nameCollision key (classOf config corpus key).fullName others]

/-- The mixtures of kinds that were tolerated in the fields of a view. -/
def warningsOf (config : Config) (corpus : Corpus) (key : ViewKey) : List Warning :=
  (fieldNames corpus key).toList.flatMap fun name => (fieldOf config corpus key name).warnings

/-- The definition of a view in a finished registry. -/
def viewOf (config : Config) (corpus : Corpus) (key : ViewKey) : ViewDefinition where
  identity := classOf config corpus key
  fields := .ofKeys (fieldNames corpus key) (fieldOf config corpus key)
  notes := ((corpus.usage? key).getD {}).notes
  origins := ((corpus.usage? key).getD {}).origins
  errors := ownFindings config corpus key ++ collisionOf config corpus key
  warnings := warningsOf config corpus key
  validated := true

/-- The definition of a view before the search for shared names. -/
def draftOf (config : Config) (corpus : Corpus) (key : ViewKey) : ViewDefinition :=
  { viewOf config corpus key with errors := ownFindings config corpus key }

theorem key_draftOf (config : Config) (corpus : Corpus) (key : ViewKey) :
    (draftOf config corpus key).key = key := rfl

theorem fullName_draftOf (config : Config) (corpus : Corpus) (key : ViewKey) :
    (draftOf config corpus key).fullName = (classOf config corpus key).fullName := rfl

/-! ### Views and fields -/

theorem mem_viewKeys : key ∈ viewKeys config corpus ↔
    (key ∈ corpus.views.keys ∨ ∃ sample ∈ corpus.samples, sample.view = key ∨ key ∈ sample.kind.targets) ∧
      config.isMapTemplate key = false := by
  simp only [viewKeys, SortedSet.mem_ofList, List.mem_filter, List.mem_append, List.mem_map,
    List.mem_flatMap, Bool.not_eq_true', ← SortedSet.mem_def]
  constructor
  · rintro ⟨(used | ⟨sample, seen, own⟩) | ⟨sample, seen, target⟩, plain⟩
    · exact ⟨.inl used, plain⟩
    · exact ⟨.inr ⟨sample, seen, .inl own⟩, plain⟩
    · exact ⟨.inr ⟨sample, seen, .inr target⟩, plain⟩
  · rintro ⟨used | ⟨sample, seen, own | target⟩, plain⟩
    · exact ⟨.inl (.inl used), plain⟩
    · exact ⟨.inl (.inr ⟨sample, seen, own⟩), plain⟩
    · exact ⟨.inr ⟨sample, seen, target⟩, plain⟩

theorem plain_of_mem_viewKeys (known : key ∈ viewKeys config corpus) : config.isMapTemplate key = false :=
  (mem_viewKeys.mp known).2

theorem mem_viewKeys_of_sample (seen : sample ∈ corpus.samples)
    (plain : config.isMapTemplate sample.view = false) : sample.view ∈ viewKeys config corpus :=
  mem_viewKeys.mpr ⟨.inr ⟨sample, seen, .inl rfl⟩, plain⟩

theorem mem_fieldNames :
    name ∈ fieldNames corpus key ↔ ∃ sample ∈ corpus.samples, sample.view = key ∧ sample.field = name := by
  simp [fieldNames, and_assoc]

theorem mem_fieldSamples : sample ∈ fieldSamples corpus key name ↔
    sample ∈ corpus.samples ∧ sample.view = key ∧ sample.field = name := by
  simp [fieldSamples]

theorem mem_kindsSeen : kind ∈ kindsSeen corpus key name ↔
    ∃ sample ∈ fieldSamples corpus key name, sample.kind = kind := by
  simp [kindsSeen]

/-- A name with samples has its field, whose outcome is that of the set of kinds. -/
private theorem ofSamples_eq_fieldOf (named : name ∈ fieldNames corpus key) :
    FieldDefinition.ofSamples? config.unifyOptions key name (fieldSamples corpus key name) =
      some (fieldOf config corpus key name) := by
  obtain ⟨sample, held, view, field⟩ := mem_fieldNames.mp named
  have found : sample ∈ fieldSamples corpus key name := mem_fieldSamples.mpr ⟨held, view, field⟩
  have filled : (fieldSamples corpus key name).isEmpty = false := by
    cases samples : fieldSamples corpus key name with
    | nil => simp [samples] at found
    | cons first rest => rfl
  have outcome : unify config.unifyOptions ((fieldSamples corpus key name).map Sample.kind) =
      outcomeOf config corpus key name :=
    unify_congr fun kind => (SortedSet.mem_toList_ofList).symm
  simp only [FieldDefinition.ofSamples?, filled, Bool.false_eq_true, ↓reduceIte, fieldOf, outcome]

theorem fieldDefinitions_eq (config : Config) (corpus : Corpus) (key : ViewKey) :
    fieldDefinitions config corpus key =
      (fieldNames corpus key).toList.map (fieldOf config corpus key) :=
  List.filterMap_eq_map_iff_forall_eq_some.mpr fun _ named => ofSamples_eq_fieldOf named

/-! ### What decides the views and the types -/

/-- A field of a view has a sample of this kind. -/
def Sampled (corpus : Corpus) (view : ViewKey) (field : String) (kind : Kind) : Prop :=
  ∃ sample ∈ corpus.samples, sample.view = view ∧ sample.field = field ∧ sample.kind = kind

/-- The kinds of the samples of a field. -/
def sampledKinds (corpus : Corpus) (view : ViewKey) (field : String) : SortedSet Kind :=
  .ofList ((corpus.samples.filter fun sample => sample.view = view ∧ sample.field = field).map Sample.kind)

/-- The names of the fields that a view has samples of. -/
def sampledNames (corpus : Corpus) (view : ViewKey) : SortedSet String :=
  .ofList ((corpus.samples.filter fun sample => sample.view = view).map Sample.field)

theorem kindsSeen_eq_sampledKinds (corpus : Corpus) (key : ViewKey) (name : String) :
    kindsSeen corpus key name = sampledKinds corpus key name := by
  ext kind
  simp only [mem_kindsSeen, mem_fieldSamples, sampledKinds, SortedSet.mem_ofList, List.mem_map,
    List.mem_filter, decide_eq_true_eq]

theorem fieldNames_eq_sampledNames (corpus : Corpus) (key : ViewKey) :
    fieldNames corpus key = sampledNames corpus key := by
  ext name
  simp only [mem_fieldNames, sampledNames, SortedSet.mem_ofList, List.mem_map, List.mem_filter,
    decide_eq_true_eq, and_assoc]

theorem outcomeOf_eq_unify (config : Config) (corpus : Corpus) (key : ViewKey) (name : String) :
    outcomeOf config corpus key name = unify config.unifyOptions (sampledKinds corpus key name).toList := by
  rw [outcomeOf, kindsSeen_eq_sampledKinds]

/-- Two corpora that use the same views and have seen the same kinds in every field. -/
structure SameKinds (a b : Corpus) : Prop where
  used : a.views.keys = b.views.keys
  sampled : ∀ view field kind, Sampled a view field kind ↔ Sampled b view field kind

namespace SameKinds

variable {a b : Corpus}

theorem viewKeys_eq (same : SameKinds a b) (config : Config) : viewKeys config a = viewKeys config b := by
  have known : ∀ corpus : Corpus, ∀ key,
      (∃ sample ∈ corpus.samples, sample.view = key ∨ key ∈ sample.kind.targets) ↔
        ∃ view field kind, Sampled corpus view field kind ∧ (view = key ∨ key ∈ kind.targets) := by
    intro corpus key
    constructor
    · rintro ⟨sample, seen, told⟩
      exact ⟨_, _, _, ⟨sample, seen, rfl, rfl, rfl⟩, told⟩
    · rintro ⟨_, _, _, ⟨sample, seen, rfl, rfl, rfl⟩, told⟩
      exact ⟨sample, seen, told⟩
  ext key
  simp only [mem_viewKeys, known, same.used, same.sampled]

theorem fieldNames_eq (same : SameKinds a b) (key : ViewKey) : fieldNames a key = fieldNames b key := by
  have named : ∀ corpus name, name ∈ fieldNames corpus key ↔ ∃ kind, Sampled corpus key name kind := by
    intro corpus name
    rw [mem_fieldNames]
    constructor
    · rintro ⟨sample, seen, view, field⟩
      exact ⟨_, sample, seen, view, field, rfl⟩
    · rintro ⟨_, sample, seen, view, field, _⟩
      exact ⟨sample, seen, view, field⟩
  ext name
  simp only [named, same.sampled]

theorem outcomeOf_eq (same : SameKinds a b) (config : Config) (key : ViewKey) (name : String) :
    outcomeOf config a key name = outcomeOf config b key name := by
  have kinds : kindsSeen a key name = kindsSeen b key name := by
    ext kind
    have sampled := same.sampled key name kind
    simpa only [mem_kindsSeen, mem_fieldSamples, and_assoc, Sampled] using sampled
  rw [outcomeOf, outcomeOf, kinds]

end SameKinds

/-! ### Findings are never merged -/

private theorem foldl_appendNew_onto [DecidableEq α] {kept found : List α}
    (distinct : (kept ++ found).Nodup) : found.foldl appendNew kept = kept ++ found := by
  induction found generalizing kept with
  | nil => simp
  | cons next rest ih =>
    have fresh : next ∉ kept := fun member =>
      (List.nodup_append.mp distinct).2.2 next member next (by simp) rfl
    have step : appendNew kept next = kept ++ [next] := by simp [appendNew, fresh]
    rw [List.foldl_cons, step, ih (by simpa using distinct)]
    simp

/-- Findings that differ are all kept, in the order in which they come. -/
theorem foldl_appendNew [DecidableEq α] {found : List α} (distinct : found.Nodup) :
    found.foldl appendNew [] = found := by
  have onto := @foldl_appendNew_onto α _ [] found (by simpa using distinct)
  simpa using onto

theorem mem_identity_errors {identity : Identity} (found : error ∈ identity.errors) :
    ∃ fault, error = .invalidIdentity identity.key identity.fullName fault := by
  obtain ⟨fault, _, rfl⟩ := List.mem_map.mp found
  exact ⟨fault, rfl⟩

theorem mem_field_errors {field : FieldDefinition} (found : error ∈ field.errors) :
    ∃ cause, error = .untypedField field.view field.name cause := by
  unfold FieldDefinition.errors at found
  split at found
  · cases found
  · next cause _ => exact ⟨cause, List.mem_singleton.mp found⟩

theorem mem_field_warnings {field : FieldDefinition} (found : warning ∈ field.warnings) :
    warning.view = field.view ∧ warning.field = field.name := by
  unfold FieldDefinition.warnings at found
  split at found
  · obtain ⟨loosening, _, rfl⟩ := List.mem_map.mp found
    exact ⟨rfl, rfl⟩
  · cases found

private theorem identity_errors_nodup (identity : Identity) : identity.errors.Nodup := by
  have faults : identity.faults.Nodup := by
    unfold Identity.faults
    cases identity.namespaceSegments.find? (!Text.isIdentifier ·) <;> split <;> simp
  have injective : Function.Injective (DefinitionError.invalidIdentity identity.key identity.fullName) := by
    intro fault other same
    cases same
    rfl
  exact faults.map injective

private theorem field_errors_nodup (field : FieldDefinition) : field.errors.Nodup := by
  unfold FieldDefinition.errors
  split <;> simp

private theorem field_warnings_nodup (config : Config) (corpus : Corpus) (key : ViewKey) (name : String) :
    (fieldOf config corpus key name).warnings.Nodup := by
  unfold FieldDefinition.warnings
  split
  · next unified found =>
    have few := derived_loosenings (unify_derives found)
    match loosenings : unified.loosenings with
    | [] => simp
    | [_] => simp
    | _ :: _ :: _ => simp [loosenings] at few
  · simp

/-- The own findings of a view are against its class or against one of its fields. -/
theorem mem_ownFindings (found : error ∈ ownFindings config corpus key) :
    (∃ fault, error = .invalidIdentity key (classOf config corpus key).fullName fault) ∨
      ∃ name cause, error = .untypedField key name cause := by
  rcases List.mem_append.mp found with ofClass | ofFields
  · exact .inl (mem_identity_errors ofClass)
  · obtain ⟨name, _, ofField⟩ := List.mem_flatMap.mp ofFields
    obtain ⟨cause, same⟩ := mem_field_errors ofField
    exact .inr ⟨name, cause, same⟩

theorem collision_not_mem_ownFindings :
    DefinitionError.nameCollision view className others ∉ ownFindings config corpus key := by
  intro member
  rcases mem_ownFindings member with ⟨fault, same⟩ | ⟨name, cause, same⟩ <;> cases same

theorem ownFindings_nodup (config : Config) (corpus : Corpus) (key : ViewKey) :
    (ownFindings config corpus key).Nodup := by
  refine List.nodup_append.mpr ⟨identity_errors_nodup _, ?_, ?_⟩
  · refine SortedSet.nodup_flatMap (fun name _ => field_errors_nodup _) ?_
    intro name other error found foundAgain
    obtain ⟨cause, rfl⟩ := mem_field_errors found
    obtain ⟨otherCause, same⟩ := mem_field_errors foundAgain
    cases same
    rfl
  · intro error found other foundOther same
    obtain ⟨fault, rfl⟩ := mem_identity_errors found
    obtain ⟨name, _, ofField⟩ := List.mem_flatMap.mp foundOther
    obtain ⟨cause, rfl⟩ := mem_field_errors ofField
    cases same

theorem warningsOf_nodup (config : Config) (corpus : Corpus) (key : ViewKey) :
    (warningsOf config corpus key).Nodup := by
  refine SortedSet.nodup_flatMap (fun name _ => field_warnings_nodup config corpus key name) ?_
  intro name other warning found foundAgain
  exact (mem_field_warnings found).2.symm.trans (mem_field_warnings foundAgain).2

/-! ### The finished registry -/

/-- The fields of a view are kept by name, each under its own. -/
private theorem fields_ofFields (config : Config) (corpus : Corpus) (key : ViewKey) :
    SortedMap.ofList ((fieldDefinitions config corpus key).map fun field => (field.name, field)) =
      .ofKeys (fieldNames corpus key) (fieldOf config corpus key) := by
  have entries : (fieldDefinitions config corpus key).map (fun field => (field.name, field)) =
      (fieldNames corpus key).toList.map fun name => (name, fieldOf config corpus key name) := by
    rw [fieldDefinitions_eq, List.map_map]
    rfl
  apply SortedMap.eq_of_entries
  rw [entries]
  apply SortedMap.entries_ofList
  rw [List.map_map]
  exact (List.map_id _).symm ▸ (fieldNames corpus key).ascending

/-- A view before the search for shared names has its own findings only. -/
theorem defineView_eq (config : Config) (corpus : Corpus) (key : ViewKey) :
    defineView config corpus (Naming.ofViews config (viewKeys config corpus).toList) key =
      draftOf config corpus key := by
  let start := ViewDefinition.ofFields (classOf config corpus key) (fieldDefinitions config corpus key)
    (corpus.usage? key)
  have fields : start.fields = .ofKeys (fieldNames corpus key) (fieldOf config corpus key) :=
    fields_ofFields config corpus key
  have errors : start.ownErrors = ownFindings config corpus key := by
    rw [ViewDefinition.ownErrors, fields, SortedMap.values_ofKeys, List.flatMap_map]
    rfl
  have warnings : start.ownWarnings = warningsOf config corpus key := by
    rw [ViewDefinition.ownWarnings, fields, SortedMap.values_ofKeys, List.flatMap_map]
    rfl
  have collected : start.validate = { start with
      errors := start.ownErrors.foldl appendNew []
      warnings := start.ownWarnings.foldl appendNew []
      validated := true } := rfl
  rw [errors, warnings, foldl_appendNew (ownFindings_nodup config corpus key),
    foldl_appendNew (warningsOf_nodup config corpus key)] at collected
  refine Eq.trans collected ?_
  rw [fields]
  rfl

/-- The finding against a shared name is new to a view that has its own findings only. -/
private theorem appendNew_collision (config : Config) (corpus : Corpus) (key : ViewKey)
    (others : List ViewKey) :
    appendNew (ownFindings config corpus key)
        (.nameCollision key (classOf config corpus key).fullName others) =
      ownFindings config corpus key ++ [.nameCollision key (classOf config corpus key).fullName others] := by
  simp [appendNew, collision_not_mem_ownFindings]

/-- The registry before the search for shared names. -/
def draftRegistry (config : Config) (corpus : Corpus) : Registry where
  views := .ofKeys (viewKeys config corpus) (draftOf config corpus)
  implicitNamespaces := config.implicitNamespaces

/-- Views are registered in ascending order, so that none replaces another. -/
private theorem foldl_register (config : Config) (corpus : Corpus) :
    (defineViews config corpus (Naming.ofViews config (viewKeys config corpus).toList)).foldl
        Registry.register { implicitNamespaces := config.implicitNamespaces } =
      draftRegistry config corpus := by
  have defined : defineViews config corpus (Naming.ofViews config (viewKeys config corpus).toList) =
      (viewKeys config corpus).toList.map (draftOf config corpus) :=
    List.map_congr_left fun key _ => defineView_eq config corpus key
  have registered : ∀ (keys : List ViewKey) (start : Registry),
      (keys.map (draftOf config corpus)).foldl Registry.register start =
        { start with
          views := (keys.map fun key => (key, draftOf config corpus key)).foldl
            (fun m e => m.insert e.1 e.2) start.views } := by
    intro keys
    induction keys with
    | nil => exact fun _ => rfl
    | cons key rest ih => exact fun start => ih (start.register (draftOf config corpus key))
  have ascending : (((viewKeys config corpus).toList.map fun key => (key, draftOf config corpus key)).map
      Prod.fst).Pairwise Before := by
    rw [List.map_map]
    exact (List.map_id _).symm ▸ (viewKeys config corpus).ascending
  rw [defined, registered, draftRegistry]
  congr 1
  exact SortedMap.eq_of_entries (SortedMap.entries_ofList ascending)

private theorem namesakes_draft (config : Config) (corpus : Corpus) (key : ViewKey) :
    (draftRegistry config corpus).namesakes (draftOf config corpus key) =
      namesakesOf config corpus key := by
  simp only [Registry.namesakes, draftRegistry, SortedMap.values_ofKeys, List.filter_map, List.map_map,
    Function.comp_def, fullName_draftOf, key_draftOf, List.map_id', namesakesOf]

private theorem viewOf_alone (alone : namesakesOf config corpus key = []) :
    draftOf config corpus key = viewOf config corpus key := by
  simp [draftOf, viewOf, collisionOf, alone]

/-- A view whose name is shared gets one finding more, which names all the others. -/
private theorem viewOf_shared (shared : namesakesOf config corpus key = others) (more : others ≠ []) :
    (draftOf config corpus key).pushError
        (.nameCollision key (classOf config corpus key).fullName others) =
      viewOf config corpus key := by
  cases others with
  | nil => exact absurd rfl more
  | cons other rest =>
    simp only [ViewDefinition.pushError, draftOf, viewOf, collisionOf, shared, appendNew_collision]

/-- The whole run in one value. -/
theorem build_eq (config : Config) (corpus : Corpus) : Registry.build config corpus =
    { views := .ofKeys (viewKeys config corpus) (viewOf config corpus)
      implicitNamespaces := config.implicitNamespaces } := by
  have views : (draftRegistry config corpus).views =
    .ofKeys (viewKeys config corpus) (draftOf config corpus) := rfl
  simp only [Registry.build, foldl_register, Registry.recordCollisions, views, SortedMap.map_ofKeys,
    namesakes_draft]
  congr 1
  apply SortedMap.ofKeys_congr
  intro key _
  split
  · next alone => exact viewOf_alone alone
  · next more => exact viewOf_shared rfl more

/-! ### Reading the finished registry -/

theorem views_build (config : Config) (corpus : Corpus) : (Registry.build config corpus).views =
    .ofKeys (viewKeys config corpus) (viewOf config corpus) := by
  rw [build_eq]

theorem implicitNamespaces_build (config : Config) (corpus : Corpus) :
    (Registry.build config corpus).implicitNamespaces = config.implicitNamespaces := by
  rw [build_eq]

/-- The views of the registry are those of its keys. -/
theorem mem_views_build : view ∈ (Registry.build config corpus).views.values ↔
    ∃ key ∈ viewKeys config corpus, view = viewOf config corpus key := by
  rw [views_build, SortedMap.values_ofKeys, List.mem_map]
  exact ⟨fun ⟨key, member, same⟩ => ⟨key, member, same.symm⟩,
    fun ⟨key, member, same⟩ => ⟨key, member, same.symm⟩⟩

theorem get?_build (config : Config) (corpus : Corpus) (key : ViewKey) :
    (Registry.build config corpus).get? key =
      if key ∈ viewKeys config corpus then some (viewOf config corpus key) else none := by
  rw [Registry.get?, views_build, SortedMap.get?_ofKeys]

theorem field?_viewOf (config : Config) (corpus : Corpus) (key : ViewKey) (name : String) :
    (viewOf config corpus key).field? name =
      if name ∈ fieldNames corpus key then some (fieldOf config corpus key name) else none := by
  rw [ViewDefinition.field?, viewOf, SortedMap.get?_ofKeys]

/-- The fields of a view are those of its sampled names. -/
theorem mem_fields_viewOf : field ∈ (viewOf config corpus key).fields.values ↔
    ∃ name ∈ fieldNames corpus key, field = fieldOf config corpus key name := by
  simp only [viewOf, SortedMap.values_ofKeys, List.mem_map]
  exact ⟨fun ⟨name, member, same⟩ => ⟨name, member, same.symm⟩,
    fun ⟨name, member, same⟩ => ⟨name, member, same.symm⟩⟩

theorem type?_fieldOf : (fieldOf config corpus key name).type? = some type ↔
    ∃ unified, outcomeOf config corpus key name = .ok unified ∧ unified.type = type := by
  unfold FieldDefinition.type? fieldOf
  cases outcomeOf config corpus key name <;> simp [Except.toOption]

theorem errors_build (config : Config) (corpus : Corpus) : (Registry.build config corpus).errors =
    (viewKeys config corpus).toList.flatMap fun key => (viewOf config corpus key).errors := by
  simp only [Registry.errors, views_build, SortedMap.values_ofKeys, List.flatMap_map]

/-- A registry is handed over as it is, if there is no finding. -/
theorem validated_eq_ok {registry other : Registry} :
    registry.validated = .ok other ↔ registry.hasErrors = false ∧ other = registry := by
  unfold Registry.validated
  cases registry.hasErrors <;> simp [eq_comm]

theorem warnings_build (config : Config) (corpus : Corpus) : (Registry.build config corpus).warnings =
    (viewKeys config corpus).toList.flatMap (warningsOf config corpus) := by
  simp only [Registry.warnings, views_build, SortedMap.values_ofKeys, List.flatMap_map]
  rfl

theorem identity?_build (config : Config) (corpus : Corpus) (key : ViewKey) :
    (Registry.build config corpus).identity? key =
      if key ∈ viewKeys config corpus then some (classOf config corpus key) else none := by
  rw [Registry.identity?, get?_build]
  split <;> rfl

/-- A view of the registry is referred to by its class, any other by its path. -/
theorem typeReference_build (config : Config) (corpus : Corpus) (key : ViewKey) :
    (Registry.build config corpus).typeReference key =
      if key ∈ viewKeys config corpus then .ofIdentity (classOf config corpus key)
      else .ofFullName key.path := by
  by_cases known : key ∈ viewKeys config corpus
  · simp only [Registry.typeReference, Registry.identity?, Registry.get?, views_build, SortedMap.get?_ofKeys,
      known, ↓reduceIte, Option.map_some]
    rfl
  · simp only [Registry.typeReference, Registry.identity?, Registry.get?, views_build, SortedMap.get?_ofKeys,
      known, ↓reduceIte, Option.map_none]

/-- The finding of a view against a shared name, if it has one. -/
theorem mem_collisionOf (found : error ∈ collisionOf config corpus key) :
    ∃ others, error = .nameCollision key (classOf config corpus key).fullName others := by
  unfold collisionOf at found
  split at found
  · cases found
  · exact ⟨_, List.mem_singleton.mp found⟩

/-- A view holds no finding against another view. -/
theorem view_of_mem_errors (found : error ∈ (viewOf config corpus key).errors) : error.view = key := by
  rcases List.mem_append.mp found with own | shared
  · rcases mem_ownFindings own with ⟨fault, rfl⟩ | ⟨name, cause, rfl⟩ <;> rfl
  · obtain ⟨others, rfl⟩ := mem_collisionOf shared
    rfl

theorem errors_viewOf_nodup (config : Config) (corpus : Corpus) (key : ViewKey) :
    (viewOf config corpus key).errors.Nodup := by
  refine List.nodup_append.mpr ⟨ownFindings_nodup config corpus key, ?_, ?_⟩
  · unfold collisionOf
    split <;> simp
  · intro error own other shared same
    obtain ⟨others, rfl⟩ := mem_collisionOf shared
    exact collision_not_mem_ownFindings (same ▸ own)

theorem view_of_mem_warnings (found : warning ∈ warningsOf config corpus key) : warning.view = key := by
  obtain ⟨name, _, ofField⟩ := List.mem_flatMap.mp found
  exact (mem_field_warnings ofField).1

end ViewSchema.RegistryContents
