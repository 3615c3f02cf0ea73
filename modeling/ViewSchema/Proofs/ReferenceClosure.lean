import ViewSchema.Proofs.RecordedViews
import ViewSchema.Proofs.RegistryContents

/-! References never dangle. Classification decides which views a value refers to, and the walk decides which
views are recorded; wherever the two read an object differently, the walk records more. Everything that a
kind refers to is therefore a view of the corpus, and everything that a type refers to has a class in the
registry, so that no reference is ever made up from a path. -/
namespace ViewSchema.ReferenceClosure
open JsonStructure ExtractionProvenance UnificationSemantics RegistryContents RecordedViews

/-! ### The walk finds what classification refers to -/

/-- A walk that takes no more for a bag than classification does comes to an instance of every view that
the kind of the value refers to. -/
theorem encounters_of_target (classified : kindOf config asBag value = some kind)
    (referred : view ∈ kind.targets) (walked : walkedAsBag = true → asBag = true) :
    Encounters config ⟨walkedAsBag, value⟩ view := by
  induction value using Json.induction generalizing asBag walkedAsBag kind with
  | array items ih =>
    obtain ⟨item, held, kind, below, target⟩ := item_of_target classified referred
    exact encounters_array.mpr ⟨item, held, ih item held below target id⟩
  | object members ih =>
    rcases member_of_target classified referred with ⟨rfl, named⟩ | ⟨key, value, held, plain, kind, below, target⟩
    · cases walkedAsBag with
      | true => cases walked rfl
      | false => exact (encounters_instance named).mpr (.inl rfl)
    · rcases taken_cases config walkedAsBag members with ⟨rfl, own, named⟩ | bag
      · exact (encounters_instance named).mpr
          (.inr ⟨key, value, held, plain, ih key value held below target id⟩)
      -- Below a bag, the walk takes nothing for a bag: this is where it may find more.
      · exact (encounters_bag bag).mpr ⟨key, value, held, plain, ih key value held below target (by simp)⟩
  | _ => cases kindOf_hasKind classified <;> cases referred

/-- A walk that records a sample goes on inside the sample's value, and finds there what the sample refers
to. -/
theorem encounters_of_sample (seen : Observation.sample sample ∈ observe config origin asBag value)
    (referred : view ∈ sample.kind.targets) : Encounters config ⟨asBag, value⟩ view := by
  induction value using Json.induction generalizing asBag with
  | array items ih =>
    obtain ⟨item, held, below⟩ := mem_observeItems.mp seen
    exact encounters_array.mpr ⟨item, held, ih item held below⟩
  | object members ih =>
    rcases taken_cases config asBag members with ⟨rfl, own, named⟩ | bag
    · rw [observe_instance named] at seen
      obtain ⟨field, value, held, plain, ⟨found, sampled, same⟩ | below⟩ :=
        mem_observeFields.mp (List.mem_of_ne_of_mem (by simp) seen)
      · cases same
        obtain ⟨kind, classified, rfl⟩ := Option.map_eq_some_iff.mp sampled
        have inside := encounters_of_target classified referred id
        exact (encounters_instance named).mpr (.inr ⟨field, value, held, plain, inside⟩)
      · exact (encounters_instance named).mpr (.inr ⟨field, value, held, plain, ih field value held below⟩)
    · rw [observe_bag bag] at seen
      obtain ⟨key, value, held, plain, below⟩ := mem_observeMembers.mp seen
      exact (encounters_bag bag).mpr ⟨key, value, held, plain, ih key value held below⟩
  | _ => simp [observe] at seen

/-! ### The views of a corpus are closed under references -/

theorem target_mem_views (seen : sample ∈ (corpusOf config documents).samples)
    (referred : view ∈ sample.kind.targets) : view ∈ (corpusOf config documents).views.keys := by
  obtain ⟨entry, given, observed⟩ := mem_samples_corpusOf.mp seen
  exact mem_views_corpusOf.mpr ⟨entry, given, encounters_of_sample observed referred⟩

theorem view_mem_views (seen : sample ∈ (corpusOf config documents).samples) :
    sample.view ∈ (corpusOf config documents).views.keys := by
  obtain ⟨entry, given, observed⟩ := mem_samples_corpusOf.mp seen
  exact mem_views_corpusOf.mpr ⟨entry, given, used_iff_encounters.mp ⟨_, observed, rfl⟩⟩

/-- Nothing is recorded under the name of a view whose instances are configured to be bags. -/
theorem plain_of_mem_views (used : view ∈ (corpusOf config documents).views.keys) :
    config.isMapTemplate view = false := by
  obtain ⟨entry, _, members, _, named⟩ := mem_views_corpusOf.mp used
  simpa using (Option.filter_eq_some_iff.mp named).2

theorem viewKeys_corpusOf (config : Config) (documents : List (Json × String)) :
    viewKeys config (corpusOf config documents) = (corpusOf config documents).views.keys := by
  ext view
  rw [mem_viewKeys]
  constructor
  · rintro ⟨used | ⟨sample, seen, rfl | referred⟩, _⟩
    · exact used
    · exact view_mem_views seen
    · exact target_mem_views seen referred
  · intro used
    exact ⟨.inl used, plain_of_mem_views used⟩

/-- A view that the type of a field refers to has a class in the registry. -/
theorem target_mem_viewKeys (typed : (fieldOf config (corpusOf config documents) key name).type? = some type)
    (referred : target ∈ type.references) : target ∈ viewKeys config (corpusOf config documents) := by
  obtain ⟨unified, found, rfl⟩ := type?_fieldOf.mp typed
  obtain ⟨kind, kindSeen, within⟩ := derived_references (unify_derives found) referred
  obtain ⟨sample, seen, rfl⟩ := mem_kindsSeen.mp kindSeen
  rw [viewKeys_corpusOf]
  exact target_mem_views (mem_fieldSamples.mp seen).1 within

/-- References are closed at every level: a kind refers to views of the corpus only, these are the views
that get a definition, and a type refers to classes of the registry only. -/
theorem references_closed (config : Config) (documents : List (Json × String)) :
    (∀ sample ∈ (corpusOf config documents).samples, ∀ view ∈ sample.kind.references,
        view ∈ (corpusOf config documents).views.keys) ∧
      viewKeys config (corpusOf config documents) = (corpusOf config documents).views.keys ∧
      ∀ view ∈ (Registry.build config (corpusOf config documents)).views.values,
        ∀ field ∈ view.fields.values, ∀ type, field.type? = some type → ∀ target ∈ type.references,
          ∃ identity,
            (Registry.build config (corpusOf config documents)).identity? target = some identity ∧
              (Registry.build config (corpusOf config documents)).typeReference target =
                .ofIdentity identity := by
  refine ⟨fun sample seen view referred => ?_, viewKeys_corpusOf config documents, ?_⟩
  · exact target_mem_views seen (SortedSet.mem_ofList.mp referred)
  · intro view defined field held type typed target referred
    obtain ⟨key, _, rfl⟩ := mem_views_build.mp defined
    obtain ⟨name, _, rfl⟩ := mem_fields_viewOf.mp held
    have known := target_mem_viewKeys typed referred
    refine ⟨classOf config (corpusOf config documents) target, ?_, ?_⟩
    · rw [identity?_build, if_pos known]
    · rw [typeReference_build, if_pos known]

/-- A page whose slots hold display options, and these an icon in a list. -/
def slottedPage : Json :=
  .object
    [("_template", .string "site/page.hbs"),
      ("slots", .object
        [("displayOptions", .object
          [("_template", .string "site/options.hbs"),
            ("icons", .array [.object [("_template", .string "site/icon.hbs")]])])])]

/-- The icon stands below two bags and a list, and its class is known. -/
theorem references_closed_icon :
    let corpus := corpusOf {} [(slottedPage, "page.json")]
    let slots := fieldOf {} corpus ⟨"site/page.hbs"⟩ "slots"
    slots.type? = some (.map (.map (.list (.objectReference (.ofList [⟨"site/icon.hbs"⟩]))))) ∧
      ∃ identity, (Registry.build {} corpus).identity? ⟨"site/icon.hbs"⟩ = some identity ∧
        (Registry.build {} corpus).typeReference ⟨"site/icon.hbs"⟩ = .ofIdentity identity := by
  intro corpus slots
  have typed : slots.type? =
      some (.map (.map (.list (.objectReference (.ofList [⟨"site/icon.hbs"⟩]))))) := by decide +kernel
  have defined : viewOf {} corpus ⟨"site/page.hbs"⟩ ∈ (Registry.build {} corpus).views.values :=
    mem_views_build.mpr ⟨_, by decide +kernel, rfl⟩
  have held : slots ∈ (viewOf {} corpus ⟨"site/page.hbs"⟩).fields.values :=
    mem_fields_viewOf.mpr ⟨_, by decide +kernel, rfl⟩
  obtain ⟨_, _, resolved⟩ := references_closed {} [(slottedPage, "page.json")]
  exact ⟨typed, resolved _ defined slots held _ typed ⟨"site/icon.hbs"⟩ (by decide +kernel)⟩

end ViewSchema.ReferenceClosure
