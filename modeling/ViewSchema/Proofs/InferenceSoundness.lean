import ViewSchema.Proofs.ExtractionProvenance
import ViewSchema.Proofs.RegistryContents

/-! The type of a field says neither less nor more than the documents do. Every value that was seen in the
field belongs to the type, whatever containers it had to be merged with, and every view that the type
refers to is named by an object inside one of these values. Both are stated on JSON values, so that
extraction, classification and unification are judged together. -/
namespace ViewSchema.InferenceSoundness
open JsonStructure ExtractionProvenance UnificationSemantics RegistryContents

/-- A JSON value belongs to a type. Nulls and remarks inside a container say nothing about it, and a text
may stand for an instance only where the field lets texts pass. -/
inductive Inhabits (config : Config) (loose : Bool) : Json → FieldType → Prop where
  | boolean : Inhabits config loose (.bool b) .boolean
  | string : Inhabits config loose (.string s) .string
  | number : Inhabits config loose (.number n) .number
  | list (each : ∀ item ∈ items, item ≠ .null → Inhabits config loose item type) :
      Inhabits config loose (.array items) (.list type)
  | map (each : ∀ key value, (key, value) ∈ members → isMetaKey key = false → value ≠ .null →
        Inhabits config loose value type) :
      Inhabits config loose (.object members) (.map type)
  | reference (named : instanceKey? config members = some view) (listed : view ∈ views) :
      Inhabits config loose (.object members) (.objectReference views)
  | text (passes : loose = true) : Inhabits config loose (.string s) (.objectReference views)
  | anything : Inhabits config loose value .anything

/-- The value of a kind that conforms to a type inhabits the type. -/
theorem inhabits_of_conforms (conforms : Conforms loose kind type)
    (classified : kindOf config asBag value = some kind) : Inhabits config loose value type := by
  induction conforms generalizing value asBag with
  | boolean => cases kindOf_hasKind classified; exact .boolean
  | string => cases kindOf_hasKind classified; exact .string
  | number => cases kindOf_hasKind classified; exact .number
  | list each ih =>
    cases kindOf_hasKind classified
    refine .list fun item held observed => ?_
    obtain ⟨kind, below⟩ := kindOf_of_ne_null config false observed
    have listed := mem_kindsOfItems.mpr ⟨item, held, below⟩
    exact ih kind (SortedSet.mem_toList_ofList.mpr listed) below
  | map each ih =>
    cases kindOf_hasKind classified
    refine .map fun key value held plain observed => ?_
    obtain ⟨kind, below⟩ := kindOf_of_ne_null config (config.isMapField key) observed
    have listed := mem_kindsOfMembers.mpr ⟨key, value, held, plain, below⟩
    exact ih kind (SortedSet.mem_toList_ofList.mpr listed) below
  | reference listed =>
    cases kindOf_hasKind classified
    case reference named => exact .reference named listed
  | text passes => cases kindOf_hasKind classified; exact .text passes
  | anything => exact .anything

/-- A kind refers to no view that no object inside the value names. -/
theorem target_named (classified : kindOf config asBag value = some kind) (referred : view ∈ kind.targets) :
    ∃ members, Within (.object members) value ∧ instanceKey? config members = some view := by
  induction value using Json.induction generalizing asBag kind with
  | array items ih =>
    obtain ⟨item, held, kind, below, target⟩ := item_of_target classified referred
    obtain ⟨members, within, named⟩ := ih item held below target
    exact ⟨members, .item held within, named⟩
  | object members ih =>
    rcases member_of_target classified referred with ⟨-, named⟩ | ⟨key, value, held, plain, kind, below, target⟩
    · exact ⟨members, .here, named⟩
    · obtain ⟨inner, within, named⟩ := ih key value held below target
      exact ⟨inner, .member held plain within, named⟩
  | _ => cases kindOf_hasKind classified <;> cases referred

/-- The type of a field fits every value that was seen in it and refers to no view beyond them. -/
theorem inferred_type_exact {config : Config} {documents : List (Json × String)}
    (defined : view ∈ (Registry.build config (corpusOf config documents)).views.values)
    (held : field ∈ view.fields.values) (typed : field.type? = some type) :
    (∀ sample ∈ field.samples, Inhabits config field.looselyTyped sample.payload type) ∧
      ∀ target ∈ type.references, ∃ sample ∈ field.samples, ∃ members,
        Within (.object members) sample.payload ∧ instanceKey? config members = some target := by
  obtain ⟨key, _, rfl⟩ := mem_views_build.mp defined
  obtain ⟨name, _, rfl⟩ := mem_fields_viewOf.mp held
  obtain ⟨unified, found, rfl⟩ : ∃ unified,
      outcomeOf config (corpusOf config documents) key name = .ok unified ∧ unified.type = type := by
    simp only [FieldDefinition.type?, fieldOf] at typed
    cases outcome : outcomeOf config (corpusOf config documents) key name with
    | error cause => simp [outcome, Except.toOption] at typed
    | ok unified => exact ⟨unified, rfl, by simpa [outcome, Except.toOption] using typed⟩
  have derived := unify_derives found
  have classified : ∀ sample ∈ fieldSamples (corpusOf config documents) key name, Classified config sample :=
    fun sample seen => corpusOf_classified (mem_fieldSamples.mp seen).1
  refine ⟨fun sample seen => ?_, fun target referred => ?_⟩
  · have kindSeen := mem_kindsSeen.mpr ⟨sample, seen, rfl⟩
    have loose : (fieldOf config (corpusOf config documents) key name).looselyTyped =
        unified.isLooselyTyped := by
      simp only [FieldDefinition.looselyTyped, fieldOf, found]
    rw [loose]
    exact inhabits_of_conforms (derived_conforms derived kindSeen) (classified sample seen)
  · obtain ⟨kind, kindSeen, target⟩ := derived_references derived referred
    obtain ⟨sample, seen, rfl⟩ := mem_kindsSeen.mp kindSeen
    exact ⟨sample, seen, target_named (classified sample seen) target⟩

/-- Two documents that use one page: its rows hold a tile, a text and a null in the first, nothing in the
second. -/
def tiledPages : List (Json × String) :=
  [(.object
      [("_template", .string "page.hbs"),
        ("rows", .array [.array [.object [("_template", .string "tile.hbs")]],
          .array [.string "none", .null]])], "first.json"),
    (.object [("_template", .string "page.hbs"), ("rows", .array [.array []])], "second.json")]

/-- The rows are lists of lists of tiles that let texts pass, and the tile is found inside a payload. -/
theorem inferred_type_exact_tiles :
    let rows := fieldOf {} (corpusOf {} tiledPages) ⟨"page.hbs"⟩ "rows"
    let type := FieldType.list (.list (.objectReference (.ofList [⟨"tile.hbs"⟩])))
    rows.type? = some type ∧
      (∀ sample ∈ rows.samples, Inhabits {} rows.looselyTyped sample.payload type) ∧
        ∃ sample ∈ rows.samples, ∃ members,
          Within (.object members) sample.payload ∧ instanceKey? {} members = some ⟨"tile.hbs"⟩ := by
  intro rows type
  have typed : rows.type? = some type := by decide +kernel
  have defined : viewOf {} (corpusOf {} tiledPages) ⟨"page.hbs"⟩ ∈
      (Registry.build {} (corpusOf {} tiledPages)).views.values :=
    mem_views_build.mpr ⟨_, by decide +kernel, rfl⟩
  have held : rows ∈ (viewOf {} (corpusOf {} tiledPages) ⟨"page.hbs"⟩).fields.values :=
    mem_fields_viewOf.mpr ⟨_, by decide +kernel, rfl⟩
  obtain ⟨sound, tight⟩ := inferred_type_exact defined held typed
  exact ⟨typed, sound, tight ⟨"tile.hbs"⟩ (by decide +kernel)⟩

end ViewSchema.InferenceSoundness
