import ViewSchema.Proofs.ReferenceClosure
import ViewSchema.Proofs.ViewMarkers

/-! A document is read setwise. Of an array, the order, the repetitions and the nulls leave no trace, and of an
object neither do the nulls and the remarks, the markers of a view excepted. Values that differ in nothing else,
at any depth, have one kind in every role, and a walk over them sees the same views and the same kinds in their
fields; so documents that differ in nothing else lead to the same types. -/
namespace ViewSchema.SetwiseReading
open JsonStructure ExtractionProvenance RecordedViews RegistryContents ViewMarkers

/-! ### Differences that leave no trace -/

/-- A member that holds a null or a remark, and is no marker of a view. -/
def Idle (key : String) (value : Json) : Prop :=
  key ∉ viewMarkers ∧ (value = .null ∨ isMetaKey key = true)

/-- The congruence that arrays are sets of what is not null under, and objects have no idle members. -/
inductive SameSets : Json → Json → Prop where
  | refl (value : Json) : SameSets value value
  | symm (same : SameSets a b) : SameSets b a
  | trans (first : SameSets a b) (second : SameSets b c) : SameSets a c
  | reordered (same : items.Perm others) : SameSets (.array items) (.array others)
  | repeated (held : item ∈ items) : SameSets (.array items) (.array (item :: items))
  | nullItem (items : List Json) : SameSets (.array items) (.array (.null :: items))
  | idleMember (idle : Idle key value) (before after : List (String × Json)) :
      SameSets (.object (before ++ after)) (.object (before ++ (key, value) :: after))
  | item (inside : SameSets a b) (before after : List Json) :
      SameSets (.array (before ++ a :: after)) (.array (before ++ b :: after))
  | member (inside : SameSets a b) (key : String) (before after : List (String × Json)) :
      SameSets (.object (before ++ (key, a) :: after)) (.object (before ++ (key, b) :: after))

/-! ### What a reading finds in a value -/

/-- What an observation says that types depend on: a view is used, or a field of it has a value of some kind. -/
inductive Sight where
  | use (view : ViewKey)
  | value (view : ViewKey) (field : String) (kind : Kind)

def sightOf : Observation → Sight
  | .usage view _ _ => .use view
  | .sample sample => .value sample.view sample.field sample.kind

/-- A walk over the value has this sight. -/
def Shows (config : Config) (origin : String) (asBag : Bool) (value : Json) (sight : Sight) : Prop :=
  ∃ observation ∈ observe config origin asBag value, sightOf observation = sight

theorem ne_null_of_kindOf (classified : kindOf config asBag value = some kind) : value ≠ .null := by
  rintro rfl
  cases classified

theorem ne_null_of_shows (shown : Shows config origin asBag value sight) : value ≠ .null := by
  rintro rfl
  obtain ⟨_, seen, _⟩ := shown
  simp [observe] at seen

theorem shows_array : Shows config origin asBag (.array items) sight ↔
    ∃ item ∈ items, Shows config origin false item sight := by
  constructor
  · rintro ⟨observation, seen, same⟩
    obtain ⟨item, held, below⟩ := mem_observeItems.mp seen
    exact ⟨item, held, observation, below, same⟩
  · rintro ⟨item, held, observation, below, same⟩
    exact ⟨observation, mem_observeItems.mpr ⟨item, held, below⟩, same⟩

theorem shows_bag (bag : TakenAsBag config asBag members) :
    Shows config origin asBag (.object members) sight ↔
      ∃ key value, (key, value) ∈ members ∧ isMetaKey key = false ∧
        Shows config origin false value sight := by
  unfold Shows
  rw [observe_bag bag]
  constructor
  · rintro ⟨observation, seen, same⟩
    obtain ⟨key, value, held, plain, below⟩ := mem_observeMembers.mp seen
    exact ⟨key, value, held, plain, observation, below, same⟩
  · rintro ⟨key, value, held, plain, observation, below, same⟩
    exact ⟨observation, mem_observeMembers.mpr ⟨key, value, held, plain, below⟩, same⟩

theorem fieldSample?_of_classified (origin : String) (view : ViewKey) (members : List (String × Json))
    (classified : classifyField config field value = some kind) :
    ∃ sample, fieldSample? config origin view members field value = some sample ∧
      sightOf (.sample sample) = .value view field kind :=
  ⟨_, by rw [fieldSample?, classified, Option.map_some], rfl⟩

theorem shows_instance (named : instanceKey? config members = some view) :
    Shows config origin false (.object members) sight ↔
      .use view = sight ∨ ∃ field value, (field, value) ∈ members ∧ isMetaKey field = false ∧
        ((∃ kind, classifyField config field value = some kind ∧ .value view field kind = sight) ∨
          Shows config origin (config.isMapField field) value sight) := by
  unfold Shows
  rw [observe_instance named]
  constructor
  · rintro ⟨observation, seen, same⟩
    rcases List.mem_cons.mp seen with rfl | seen
    · exact .inl same
    · obtain ⟨field, value, held, plain, ⟨sample, sampled, rfl⟩ | below⟩ := mem_observeFields.mp seen
      · obtain ⟨kind, classified, rfl⟩ := Option.map_eq_some_iff.mp sampled
        exact .inr ⟨field, value, held, plain, .inl ⟨kind, classified, same⟩⟩
      · exact .inr ⟨field, value, held, plain, .inr ⟨observation, below, same⟩⟩
  · rintro (same | ⟨field, value, held, plain, ⟨kind, classified, same⟩ | ⟨observation, below, same⟩⟩)
    · exact ⟨_, List.mem_cons_self, same⟩
    · obtain ⟨sample, sampled, sight⟩ := fieldSample?_of_classified origin view members classified
      exact ⟨.sample sample,
        .tail _ (mem_observeFields.mpr ⟨field, value, held, plain, .inl ⟨sample, sampled, rfl⟩⟩),
        sight.trans same⟩
    · exact ⟨observation, .tail _ (mem_observeFields.mpr ⟨field, value, held, plain, .inr below⟩), same⟩

/-- Neither classification nor a walk can tell two values apart, under any settings and in any role. -/
structure ReadAlike (a b : Json) : Prop where
  text : a.text? = b.text?
  kind : ∀ config asBag, kindOf config asBag a = kindOf config asBag b
  shows : ∀ config origin asBag sight, Shows config origin asBag a sight ↔ Shows config origin asBag b sight

namespace ReadAlike

theorem refl (value : Json) : ReadAlike value value := ⟨rfl, fun _ _ => rfl, fun _ _ _ _ => .rfl⟩

theorem symm (alike : ReadAlike a b) : ReadAlike b a where
  text := alike.text.symm
  kind config asBag := (alike.kind config asBag).symm
  shows config origin asBag sight := (alike.shows config origin asBag sight).symm

theorem trans (first : ReadAlike a b) (second : ReadAlike b c) : ReadAlike a c where
  text := first.text.trans second.text
  kind config asBag := (first.kind config asBag).trans (second.kind config asBag)
  shows config origin asBag sight :=
    (first.shows config origin asBag sight).trans (second.shows config origin asBag sight)

end ReadAlike

/-! ### Arrays -/

/-- Every item is a null or reads like one of the others. -/
def ItemsCovered (items others : List Json) : Prop :=
  ∀ item ∈ items, item = .null ∨ ∃ other ∈ others, ReadAlike item other

theorem ItemsCovered.kinds (covered : ItemsCovered items others) (seen : kind ∈ kindsOfItems config items) :
    kind ∈ kindsOfItems config others := by
  obtain ⟨item, held, classified⟩ := mem_kindsOfItems.mp seen
  rcases covered item held with null | ⟨other, heldToo, alike⟩
  · exact absurd null (ne_null_of_kindOf classified)
  · exact mem_kindsOfItems.mpr ⟨other, heldToo, (alike.kind config false).symm.trans classified⟩

theorem ItemsCovered.shows (covered : ItemsCovered items others)
    (seen : Shows config origin asBag (.array items) sight) :
    Shows config origin asBag (.array others) sight := by
  obtain ⟨item, held, below⟩ := shows_array.mp seen
  rcases covered item held with null | ⟨other, heldToo, alike⟩
  · exact absurd null (ne_null_of_shows below)
  · exact shows_array.mpr ⟨other, heldToo, (alike.shows config origin false sight).mp below⟩

theorem ItemsCovered.at (alike : ReadAlike a b) (before after : List Json) :
    ItemsCovered (before ++ a :: after) (before ++ b :: after) := by
  intro item held
  rcases List.mem_cons.mp (List.perm_middle.mem_iff.mp held) with rfl | outside
  · exact .inr ⟨b, List.mem_append_cons_self, alike⟩
  · exact .inr ⟨item, List.perm_middle.mem_iff.mpr (.tail _ outside), .refl item⟩

/-- Arrays whose items read alike, whatever their order and number and the nulls among them, read alike. -/
theorem ReadAlike.array (covered : ItemsCovered items others) (back : ItemsCovered others items) :
    ReadAlike (.array items) (.array others) where
  text := rfl
  kind config asBag := by
    have same : ∀ kind, kind ∈ kindsOfItems config items ↔ kind ∈ kindsOfItems config others :=
      fun _ => ⟨covered.kinds, back.kinds⟩
    simp only [kindOf, Kind.listOf, SortedSet.ofList_congr same]
  shows config origin asBag sight := ⟨covered.shows, back.shows⟩

/-! ### Objects -/

/-- Every member is a remark, or a null, or there is one under the same key that reads like it. -/
def MembersCovered (members others : List (String × Json)) : Prop :=
  ∀ key value, (key, value) ∈ members →
    isMetaKey key = true ∨ value = .null ∨ ∃ other, (key, other) ∈ others ∧ ReadAlike value other

theorem MembersCovered.partner (covered : MembersCovered members others) (held : (key, value) ∈ members)
    (plain : isMetaKey key = false) (told : value ≠ .null) :
    ∃ other, (key, other) ∈ others ∧ ReadAlike value other := by
  rcases covered key value held with remark | null | found
  · simp [plain] at remark
  · exact absurd null told
  · exact found

theorem MembersCovered.kinds (covered : MembersCovered members others)
    (seen : kind ∈ kindsOfMembers config members) : kind ∈ kindsOfMembers config others := by
  obtain ⟨key, value, held, plain, classified⟩ := mem_kindsOfMembers.mp seen
  obtain ⟨other, heldToo, alike⟩ := covered.partner held plain (ne_null_of_kindOf classified)
  exact mem_kindsOfMembers.mpr ⟨key, other, heldToo, plain, (alike.kind config _).symm.trans classified⟩

theorem MembersCovered.shows (covered : MembersCovered members others)
    (named : instanceKey? config members = instanceKey? config others)
    (seen : Shows config origin asBag (.object members) sight) :
    Shows config origin asBag (.object others) sight := by
  rcases taken_cases config asBag members with ⟨rfl, view, names⟩ | bag
  · rw [shows_instance (named ▸ names)]
    rcases (shows_instance names).mp seen with use | ⟨field, value, held, plain, found⟩
    · exact .inl use
    · -- a null has neither a kind nor a sight, so the field is told by one that has a partner
      have told : value ≠ .null :=
        found.elim (fun ⟨_, classified, _⟩ => ne_null_of_kindOf classified) ne_null_of_shows
      obtain ⟨other, heldToo, alike⟩ := covered.partner held plain told
      refine .inr ⟨field, other, heldToo, plain, found.imp ?_ ?_⟩
      · rintro ⟨kind, classified, same⟩
        exact ⟨kind, (alike.kind config _).symm.trans classified, same⟩
      · exact (alike.shows config origin _ sight).mp
  · have bagToo : TakenAsBag config asBag others := bag.imp_right (named ▸ ·)
    obtain ⟨key, value, held, plain, below⟩ := (shows_bag bag).mp seen
    obtain ⟨other, heldToo, alike⟩ := covered.partner held plain (ne_null_of_shows below)
    have belowToo := (alike.shows config origin false sight).mp below
    exact (shows_bag bagToo).mpr ⟨key, other, heldToo, plain, belowToo⟩

theorem MembersCovered.of_subset (subset : members ⊆ others) : MembersCovered members others :=
  fun _ value held => .inr (.inr ⟨value, subset held, .refl value⟩)

theorem MembersCovered.at (alike : ReadAlike a b) (key : String) (before after : List (String × Json)) :
    MembersCovered (before ++ (key, a) :: after) (before ++ (key, b) :: after) := by
  intro name value held
  rcases List.mem_cons.mp (List.perm_middle.mem_iff.mp held) with same | outside
  · cases same
    exact .inr (.inr ⟨b, List.mem_append_cons_self, alike⟩)
  · exact .inr (.inr ⟨value, List.perm_middle.mem_iff.mpr (.tail _ outside), .refl value⟩)

/-- Objects with the same texts under their markers, and members that read alike but for remarks and nulls, read
alike. -/
theorem ReadAlike.object
    (markers : ∀ marker ∈ viewMarkers, textUnder? members marker = textUnder? others marker)
    (covered : MembersCovered members others) (back : MembersCovered others members) :
    ReadAlike (.object members) (.object others) := by
  have marker : viewMarker? members = viewMarker? others := by
    rw [viewMarker?_eq, viewMarker?_eq, ← List.head?_filterMap, ← List.head?_filterMap]
    exact congrArg _ (List.filterMap_congr fun marker listed => by rw [markers marker listed])
  have named : ∀ config, instanceKey? config members = instanceKey? config others := fun config => by
    rw [instanceKey?, instanceKey?, marker]
  refine ⟨rfl, fun config asBag => ?_, fun config origin asBag sight => ?_⟩
  · have same : ∀ kind, kind ∈ kindsOfMembers config members ↔ kind ∈ kindsOfMembers config others :=
      fun _ => ⟨covered.kinds, back.kinds⟩
    simp only [kindOf, Kind.mapOf, named, SortedSet.ofList_congr same]
  · exact ⟨covered.shows (named config), back.shows (named config).symm⟩

/-! ### What leaves no trace -/

/-- The text of a marker is read past every other key. -/
theorem textUnder?_idle (idle : Idle key value) (listed : marker ∈ viewMarkers)
    (before after : List (String × Json)) :
    textUnder? (before ++ (key, value) :: after) marker = textUnder? (before ++ after) marker := by
  have other : (marker == key) = false := beq_false_of_ne fun same => idle.1 (same ▸ listed)
  simp only [textUnder?, Json.member?, List.lookup_append, List.lookup_cons, other]

theorem textUnder?_congr (same : a.text? = b.text?) (key marker : String)
    (before after : List (String × Json)) :
    textUnder? (before ++ (key, a) :: after) marker = textUnder? (before ++ (key, b) :: after) marker := by
  simp only [textUnder?, Json.member?, List.lookup_append, List.lookup_cons]
  cases List.lookup marker before with
  | some value => rfl
  | none => cases marker == key <;> simp [same]

/-- Values that have the same sets read alike, by induction on what generates the congruence. -/
theorem readAlike_of_sameSets (same : SameSets a b) : ReadAlike a b := by
  induction same with
  | refl value => exact .refl value
  | symm _ ih => exact ih.symm
  | trans _ _ first second => exact first.trans second
  | reordered same =>
    exact .array (fun item held => .inr ⟨item, same.mem_iff.mp held, .refl item⟩)
      fun item held => .inr ⟨item, same.mem_iff.mpr held, .refl item⟩
  | repeated held =>
    refine .array (fun item listed => .inr ⟨item, .tail _ listed, .refl item⟩) fun item listed => ?_
    rcases List.mem_cons.mp listed with rfl | listed
    · exact .inr ⟨item, held, .refl item⟩
    · exact .inr ⟨item, listed, .refl item⟩
  | nullItem items =>
    refine .array (fun item listed => .inr ⟨item, .tail _ listed, .refl item⟩) fun item listed => ?_
    rcases List.mem_cons.mp listed with rfl | listed
    · exact .inl rfl
    · exact .inr ⟨item, listed, .refl item⟩
  | item _ before after ih => exact .array (.at ih before after) (.at ih.symm before after)
  | @idleMember key value idle before after =>
    have fewer : before ++ after ⊆ before ++ (key, value) :: after :=
      List.append_subset.mpr ⟨List.subset_append_left _ _, fun _ held => by simp [held]⟩
    refine .object (fun marker listed => (textUnder?_idle idle listed before after).symm) (.of_subset fewer) ?_
    intro name held listed
    rcases List.mem_cons.mp (List.perm_middle.mem_iff.mp listed) with same | outside
    · cases same
      exact idle.2.symm.imp_right .inl
    · exact .inr (.inr ⟨held, outside, .refl held⟩)
  | member _ key before after ih =>
    exact .object (fun marker _ => textUnder?_congr ih.text key marker before after)
      (.at ih key before after) (.at ih.symm key before after)

/-! ### What a run infers -/

def Sight.view : Sight → ViewKey
  | .use view => view
  | .value view _ _ => view

theorem view_sightOf (observation : Observation) : (sightOf observation).view = usedView observation := by
  cases observation <;> rfl

/-- A walk over one of the documents has this sight. -/
def Seen (config : Config) (documents : List (Json × String)) (sight : Sight) : Prop :=
  ∃ entry ∈ documents, Shows config entry.2 false entry.1 sight

theorem used_iff_seen : view ∈ (corpusOf config documents).views.keys ↔
    ∃ sight : Sight, sight.view = view ∧ Seen config documents sight := by
  rw [mem_views_corpusOf]
  constructor
  · rintro ⟨entry, given, encountered⟩
    obtain ⟨observation, seen, used⟩ : ∃ observation ∈ observe config entry.2 false entry.1,
        usedView observation = view := used_iff_encounters.mpr encountered
    exact ⟨_, (view_sightOf observation).trans used, entry, given, observation, seen, rfl⟩
  · rintro ⟨_, used, entry, given, observation, seen, rfl⟩
    have recorded : usedView observation = view := (view_sightOf observation).symm.trans used
    exact ⟨entry, given, used_iff_encounters.mp ⟨observation, seen, recorded⟩⟩

theorem sampled_iff_seen : Sampled (corpusOf config documents) view field kind ↔
    Seen config documents (.value view field kind) := by
  constructor
  · rintro ⟨sample, seen, rfl, rfl, rfl⟩
    obtain ⟨entry, given, observed⟩ := mem_samples_corpusOf.mp seen
    exact ⟨entry, given, .sample sample, observed, rfl⟩
  · rintro ⟨entry, given, observation, observed, same⟩
    cases observation with
    | usage _ _ _ => cases same
    | sample sample =>
      cases same
      exact ⟨sample, mem_samples_corpusOf.mpr ⟨entry, given, observed⟩, rfl, rfl, rfl⟩

/-- Documents of the same names that pairwise have the same sets. -/
def SameSetsEach : List (Json × String) → List (Json × String) → Prop :=
  List.Forall₂ fun document other => SameSets document.1 other.1 ∧ document.2 = other.2

theorem seen_congr (same : SameSetsEach documents others) :
    Seen config documents sight ↔ Seen config others sight := by
  unfold Seen
  induction same with
  | nil => rfl
  | @cons document other _ _ head _ ih =>
    have here := (readAlike_of_sameSets head.1).shows config other.2 false sight
    simp only [List.mem_cons, exists_eq_or_imp, ih, head.2, here]

theorem sameKinds_corpusOf (config : Config) (same : SameSetsEach documents others) :
    SameKinds (corpusOf config documents) (corpusOf config others) where
  used := by
    ext view
    simp only [used_iff_seen, seen_congr same]
  sampled view field kind := by simp only [sampled_iff_seen, seen_congr same]

/-- What a run infers of each field of each view: its type and the mixtures tolerated in it, or why there is no
type. -/
def inferences (registry : Registry) : SortedMap ViewKey (SortedMap String (Except UnifyError Unified)) :=
  registry.views.map fun _ view => view.fields.map fun _ field => field.outcome

theorem inferences_eq {a b : Corpus} (same : SameKinds a b) (config : Config) :
    inferences (Registry.build config a) = inferences (Registry.build config b) := by
  simp only [inferences, views_build, SortedMap.map_ofKeys, viewOf, fieldOf, same.viewKeys_eq,
    same.fieldNames_eq, same.outcomeOf_eq]

/-- Values that differ in the order, the repetitions and the nulls of arrays and in the nulls and remarks of
objects only have one kind, in a field or out of it, and documents that differ in nothing else lead to the same
views, with the same fields and types. -/
theorem classification_sees_sets (config : Config) :
    (∀ a b, SameSets a b → classify config a = classify config b ∧
        ∀ field, classifyField config field a = classifyField config field b) ∧
      ∀ documents others, SameSetsEach documents others →
        inferences (Registry.build config (corpusOf config documents)) =
          inferences (Registry.build config (corpusOf config others)) := by
  constructor
  · intro a b same
    have alike := (readAlike_of_sameSets same).kind config
    exact ⟨alike false, fun field => alike (config.isMapField field)⟩
  · intro documents others same
    exact inferences_eq (sameKinds_corpusOf config same) config

/-- A page with two captions and a number below one of its fields. -/
def gallery : Json :=
  .object [("_template", .string "page.hbs"),
    ("rows", .array [.array [.string "left", .number (.integer 1)], .array []])]

/-- The page with a remark, with a field that holds nothing, and with one caption twice, around the number. -/
def rearrangedGallery : Json :=
  .object [("_note", .string "a draft"), ("_template", .string "page.hbs"), ("footer", .null),
    ("rows", .array [.array [.null, .string "left", .number (.integer 1), .string "left"], .array []])]

theorem sameSets_gallery : SameSets gallery rearrangedGallery := by
  have swapped : SameSets (.array [.string "left", .number (.integer 1)])
      (.array [.number (.integer 1), .string "left"]) := .reordered (.swap _ _ _)
  have twice := swapped.trans (.repeated (.tail _ List.mem_cons_self))
  have row := twice.trans (.nullItem _)
  have rows := SameSets.member (.item row [] [.array []]) "rows" [("_template", .string "page.hbs")] []
  have footer : Idle "footer" .null := ⟨by decide, .inl rfl⟩
  have remark : Idle "_note" (.string "a draft") := ⟨by decide, .inr rfl⟩
  exact (rows.trans (.idleMember footer [_] [_])).trans (.idleMember remark [] [_, _, _])

/-- The pages agree as instances, as bags and in what is inferred of them. -/
theorem classification_sees_sets_gallery :
    classify {} gallery = classify {} rearrangedGallery ∧
      classifyField {} "displayOptions" gallery = classifyField {} "displayOptions" rearrangedGallery ∧
        inferences (Registry.build {} (corpusOf {} [(gallery, "page.json")])) =
          inferences (Registry.build {} (corpusOf {} [(rearrangedGallery, "page.json")])) := by
  obtain ⟨alike, inferred⟩ := classification_sees_sets {}
  obtain ⟨kind, inField⟩ := alike gallery rearrangedGallery sameSets_gallery
  exact ⟨kind, inField "displayOptions", inferred _ _ (.cons ⟨sameSets_gallery, rfl⟩ .nil)⟩

end ViewSchema.SetwiseReading
