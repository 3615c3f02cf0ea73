import Mathlib.Logic.Relation
import ViewSchema.Proofs.ExtractionProvenance

/-! Which objects a run records as instances of views. The settings say that an object under a map key is a
bag, and classification holds to that whatever object the key belongs to. The walk that records instances
asks for map keys only among the fields of an instance: in an object that it takes for a bag itself, an
object under a map key passes for an instance. Both readings are written down as steps between places of
a document, and a run records what the first allows together with what the second lets stray in. -/
namespace ViewSchema.RecordedViews
open JsonStructure ExtractionProvenance
open Relation (ReflTransGen)

/-- A value where it stands in a document, in the role of a bag or not. The role matters to objects only. -/
structure Place where
  asBag : Bool
  value : Json

/-- The parts of a value, as the settings see them: what is under a map key stands as a bag, and the items
of an array never do. -/
inductive Holds (config : Config) : Place → Place → Prop where
  | item (held : item ∈ items) : Holds config ⟨asBag, .array items⟩ ⟨false, item⟩
  | member (held : (key, value) ∈ members) (plain : isMetaKey key = false) :
      Holds config ⟨asBag, .object members⟩ ⟨config.isMapField key, value⟩

/-- The walk treats an object as a bag if it stands as one or names no view. -/
def TakenAsBag (config : Config) (asBag : Bool) (members : List (String × Json)) : Prop :=
  asBag = true ∨ instanceKey? config members = none

/-- The parts of a value, as the walk sees them: map keys count among the fields of an instance, and no
member of a bag stands as a bag. -/
inductive Visits (config : Config) : Place → Place → Prop where
  | item (held : item ∈ items) : Visits config ⟨asBag, .array items⟩ ⟨false, item⟩
  | field (named : instanceKey? config members = some view) (held : (key, value) ∈ members)
      (plain : isMetaKey key = false) :
      Visits config ⟨false, .object members⟩ ⟨config.isMapField key, value⟩
  | member (bag : TakenAsBag config asBag members) (held : (key, value) ∈ members)
      (plain : isMetaKey key = false) : Visits config ⟨asBag, .object members⟩ ⟨false, value⟩

/-- The document has an instance of the view: an object that names it, stands under arrays and plain keys
alone, and is not itself the value of a map key. -/
def Instance (config : Config) (document : Json) (view : ViewKey) : Prop :=
  ∃ members, ReflTransGen (Holds config) ⟨false, document⟩ ⟨false, .object members⟩ ∧
    instanceKey? config members = some view

/-- The walk goes from a place to an object that it takes for an instance of the view. -/
def Encounters (config : Config) (place : Place) (view : ViewKey) : Prop :=
  ∃ members, ReflTransGen (Visits config) place ⟨false, .object members⟩ ∧
    instanceKey? config members = some view

/-- An object that names the view is the value of a map key, and the walk takes the holder of the key for a
bag. -/
def Stray (config : Config) (document : Json) (view : ViewKey) : Prop :=
  ∃ asBag holder key members, ReflTransGen (Visits config) ⟨false, document⟩ ⟨asBag, .object holder⟩ ∧
    TakenAsBag config asBag holder ∧ (key, .object members) ∈ holder ∧ isMetaKey key = false ∧
      config.isMapField key = true ∧ instanceKey? config members = some view

/-! ### What the walk encounters -/

private theorem encounters_iff : Encounters config place view ↔
    (∃ members, place = ⟨false, .object members⟩ ∧ instanceKey? config members = some view) ∨
      ∃ next, Visits config place next ∧ Encounters config next view := by
  constructor
  · rintro ⟨members, path, named⟩
    rcases path.cases_head with rfl | ⟨next, step, rest⟩
    · exact .inl ⟨members, rfl, named⟩
    · exact .inr ⟨next, step, members, rest, named⟩
  · rintro (⟨members, rfl, named⟩ | ⟨next, step, members, rest, named⟩)
    · exact ⟨members, .refl, named⟩
    · exact ⟨members, .head step rest, named⟩

theorem encounters_array : Encounters config ⟨asBag, .array items⟩ view ↔
    ∃ item ∈ items, Encounters config ⟨false, item⟩ view := by
  rw [encounters_iff]
  constructor
  · rintro (⟨members, ⟨⟩, named⟩ | ⟨next, step, below⟩)
    cases step with
    | item held => exact ⟨_, held, below⟩
  · rintro ⟨item, held, below⟩
    exact .inr ⟨_, .item held, below⟩

theorem encounters_instance (named : instanceKey? config members = some own) :
    Encounters config ⟨false, .object members⟩ view ↔
      own = view ∨ ∃ key value, (key, value) ∈ members ∧ isMetaKey key = false ∧
        Encounters config ⟨config.isMapField key, value⟩ view := by
  rw [encounters_iff]
  constructor
  · rintro (⟨_, ⟨⟩, namedAgain⟩ | ⟨next, step, below⟩)
    · exact .inl (Option.some.inj (named.symm.trans namedAgain))
    · cases step with
      | field _ held plain => exact .inr ⟨_, _, held, plain, below⟩
      | member bag held plain => simp [TakenAsBag, named] at bag
  · rintro (rfl | ⟨key, value, held, plain, below⟩)
    · exact .inl ⟨members, rfl, named⟩
    · exact .inr ⟨_, .field named held plain, below⟩

theorem encounters_bag (bag : TakenAsBag config asBag members) :
    Encounters config ⟨asBag, .object members⟩ view ↔
      ∃ key value, (key, value) ∈ members ∧ isMetaKey key = false ∧
        Encounters config ⟨false, value⟩ view := by
  rw [encounters_iff]
  constructor
  · rintro (⟨_, ⟨⟩, named⟩ | ⟨next, step, below⟩)
    · simp [TakenAsBag, named] at bag
    · cases step with
      | field named held plain => simp [TakenAsBag, named] at bag
      | member _ held plain => exact ⟨_, _, held, plain, below⟩
  · rintro ⟨key, value, held, plain, below⟩
    exact .inr ⟨_, .member bag held plain, below⟩

/-! ### The walk records what it encounters -/

/-- The view that an observation adds to a corpus, if it is not there yet. -/
def usedView : Observation → ViewKey
  | .usage view _ _ => view
  | .sample sample => sample.view

theorem mem_views_recordAll {corpus : Corpus} {found : List Observation} :
    view ∈ (corpus.recordAll found).views.keys ↔
      view ∈ corpus.views.keys ∨ ∃ observation ∈ found, usedView observation = view := by
  induction found generalizing corpus with
  | nil => simp [Corpus.recordAll]
  | cons observation rest ih =>
    have step : view ∈ (corpus.record observation).views.keys ↔
        view = usedView observation ∨ view ∈ corpus.views.keys := by
      cases observation <;> exact SortedMap.mem_keys_alter
    rw [Corpus.recordAll, List.foldl_cons, ← Corpus.recordAll, ih, step, eq_comm, or_assoc, or_left_comm]
    simp only [List.mem_cons, exists_eq_or_imp]

theorem taken_cases (config : Config) (asBag : Bool) (members : List (String × Json)) :
    (asBag = false ∧ ∃ view, instanceKey? config members = some view) ∨
      TakenAsBag config asBag members := by
  unfold TakenAsBag
  cases asBag <;> cases instanceKey? config members <;> simp

theorem observe_instance (named : instanceKey? config members = some view) :
    observe config origin false (.object members) =
      .usage view origin (viewNote? members) :: observeFields config origin view members members := by
  simp only [observe, named, Bool.false_eq_true, ↓reduceIte]

theorem observe_bag (bag : TakenAsBag config asBag members) :
    observe config origin asBag (.object members) = observeMembers config origin members := by
  rcases bag with rfl | unnamed
  · rfl
  · cases asBag <;> simp only [observe, unnamed, Bool.false_eq_true, ↓reduceIte]

/-- The views that a walk records are those of the objects that it takes for instances. -/
theorem used_iff_encounters :
    (∃ observation ∈ observe config origin asBag value, usedView observation = view) ↔
      Encounters config ⟨asBag, value⟩ view := by
  induction value using Json.induction generalizing asBag with
  | array items ih =>
    rw [encounters_array]
    constructor
    · rintro ⟨observation, seen, used⟩
      obtain ⟨item, held, below⟩ := mem_observeItems.mp seen
      exact ⟨item, held, (ih item held).mp ⟨observation, below, used⟩⟩
    · rintro ⟨item, held, below⟩
      obtain ⟨observation, seen, used⟩ := (ih item held).mpr below
      exact ⟨observation, mem_observeItems.mpr ⟨item, held, seen⟩, used⟩
  | object members ih =>
    rcases taken_cases config asBag members with ⟨rfl, own, named⟩ | bag
    · rw [encounters_instance named, observe_instance named]
      constructor
      · rintro ⟨observation, seen, used⟩
        rcases List.mem_cons.mp seen with rfl | seen
        · exact .inl used
        obtain ⟨field, value, held, plain, ⟨sample, sampled, rfl⟩ | below⟩ := mem_observeFields.mp seen
        · obtain ⟨kind, _, rfl⟩ := Option.map_eq_some_iff.mp sampled
          exact .inl used
        · exact .inr ⟨field, value, held, plain, (ih field value held).mp ⟨observation, below, used⟩⟩
      · rintro (rfl | ⟨field, value, held, plain, below⟩)
        · exact ⟨_, List.mem_cons_self, rfl⟩
        · obtain ⟨observation, seen, used⟩ := (ih field value held).mpr below
          refine ⟨observation, List.mem_cons_of_mem _ ?_, used⟩
          exact mem_observeFields.mpr ⟨field, value, held, plain, .inr seen⟩
    · rw [encounters_bag bag, observe_bag bag]
      constructor
      · rintro ⟨observation, seen, used⟩
        obtain ⟨key, value, held, plain, below⟩ := mem_observeMembers.mp seen
        exact ⟨key, value, held, plain, (ih key value held).mp ⟨observation, below, used⟩⟩
      · rintro ⟨key, value, held, plain, below⟩
        obtain ⟨observation, seen, used⟩ := (ih key value held).mpr below
        exact ⟨observation, mem_observeMembers.mpr ⟨key, value, held, plain, seen⟩, used⟩
  | _ =>
    simp only [observe, List.not_mem_nil, false_and, exists_false, false_iff]
    rw [encounters_iff]
    rintro (⟨_, ⟨⟩, _⟩ | ⟨_, ⟨⟩, _⟩)

theorem mem_views_extract {corpus : Corpus} :
    view ∈ (corpus.extract config document origin).views.keys ↔
      view ∈ corpus.views.keys ∨ Encounters config ⟨false, document⟩ view :=
  mem_views_recordAll.trans (or_congr_right used_iff_encounters)

theorem mem_views_corpusOf : view ∈ (corpusOf config documents).views.keys ↔
    ∃ entry ∈ documents, Encounters config ⟨false, entry.1⟩ view := by
  suffices onto : ∀ corpus : Corpus,
      view ∈ (documents.foldl (fun corpus entry => corpus.extract config entry.1 entry.2) corpus).views.keys ↔
        view ∈ corpus.views.keys ∨ ∃ entry ∈ documents, Encounters config ⟨false, entry.1⟩ view from
    (onto ∅).trans (or_iff_right SortedSet.not_mem_empty)
  induction documents with
  | nil => simp
  | cons entry rest ih =>
    intro corpus
    rw [List.foldl_cons, ih, mem_views_extract, or_assoc]
    simp only [List.mem_cons, exists_eq_or_imp]

/-! ### The two readings of a document -/

/-- The walk comes to no value that the settings do not see, though perhaps to another role of it. -/
private theorem held_of_visited (path : ReflTransGen (Visits config) start place) :
    ∃ asBag, ReflTransGen (Holds config) start ⟨asBag, place.value⟩ := by
  induction path with
  | refl => exact ⟨start.asBag, .refl⟩
  | tail _ step ih =>
    obtain ⟨asBag, above⟩ := ih
    cases step with
    | item held => exact ⟨_, .tail above (.item held)⟩
    | field named held plain => exact ⟨_, .tail above (.member held plain)⟩
    | member bag held plain => exact ⟨_, .tail above (.member held plain)⟩

/-- The walk comes to every value that the settings see, and never makes a bag of anything else. -/
private theorem visited_of_held (path : ReflTransGen (Holds config) start place) :
    ∃ asBag, ReflTransGen (Visits config) start ⟨asBag, place.value⟩ ∧
      (asBag = true → place.asBag = true) := by
  induction path with
  | refl => exact ⟨start.asBag, .refl, id⟩
  | tail _ step ih =>
    obtain ⟨asBag, above, weaker⟩ := ih
    cases step with
    | item held => exact ⟨false, .tail above (.item held), nofun⟩
    | @member members key value role held plain =>
      rcases taken_cases config asBag members with ⟨rfl, view, named⟩ | bag
      · exact ⟨_, .tail above (.field named held plain), id⟩
      · exact ⟨false, .tail above (.member bag held plain), nofun⟩

private theorem encountered_of_instance (present : Instance config document view) :
    Encounters config ⟨false, document⟩ view := by
  obtain ⟨members, path, named⟩ := present
  obtain ⟨asBag, visited, weaker⟩ := visited_of_held path
  cases asBag with
  | false => exact ⟨members, visited, named⟩
  | true => cases weaker rfl

private theorem encountered_of_stray (stray : Stray config document view) :
    Encounters config ⟨false, document⟩ view := by
  obtain ⟨asBag, holder, key, members, path, bag, held, plain, _, named⟩ := stray
  exact ⟨members, .tail path (.member bag held plain), named⟩

/-- The last step to an object that is taken for an instance shows whether it is one. -/
private theorem instance_or_stray (encountered : Encounters config ⟨false, document⟩ view) :
    Instance config document view ∨ Stray config document view := by
  obtain ⟨members, path, named⟩ := encountered
  rcases path.cases_tail with same | ⟨⟨asBag, holder⟩, above, step⟩
  · exact .inl ⟨members, same ▸ .refl, named⟩
  · obtain ⟨role, seen⟩ := held_of_visited above
    generalize reached : (⟨false, .object members⟩ : Place) = place at step
    cases step with
    | item held =>
      cases reached
      exact .inl ⟨members, .tail seen (.item held), named⟩
    | @field holder own key value ownNamed held plain =>
      obtain ⟨notMap, rfl⟩ := Place.mk.inj reached
      have last : Holds config ⟨role, .object holder⟩ ⟨false, .object members⟩ :=
        notMap ▸ Holds.member held plain
      exact .inl ⟨members, .tail seen last, named⟩
    | @member _ holder key value bag held plain =>
      cases reached
      cases mapKey : config.isMapField key with
      | false =>
        have last : Holds config ⟨role, .object holder⟩ ⟨false, .object members⟩ :=
          mapKey ▸ Holds.member held plain
        exact .inl ⟨members, .tail seen last, named⟩
      | true => exact .inr ⟨asBag, holder, key, members, above, bag, held, plain, mapKey, named⟩

/-- What is recorded of a document is exactly its instances and the strays of the walk. So it is exactly
the instances if and only if every view that a stray names has an instance as well. Classification lets
none stray: under a map key, every object is a bag to it. -/
theorem recorded_views_exact (config : Config) (document : Json) (origin : String) :
    (∀ view, view ∈ (Corpus.ofDocument config document origin).views.keys ↔
        Instance config document view ∨ Stray config document view) ∧
      ((∀ view, view ∈ (Corpus.ofDocument config document origin).views.keys ↔
          Instance config document view) ↔
        ∀ view, Stray config document view → Instance config document view) ∧
      ∀ key members, config.isMapField key = true →
        ∃ items, classifyField config key (.object members) = some (.map items) := by
  have recorded : ∀ view, view ∈ (Corpus.ofDocument config document origin).views.keys ↔
      Instance config document view ∨ Stray config document view := by
    intro view
    refine (mem_views_extract.trans (or_iff_right SortedSet.not_mem_empty)).trans ?_
    exact ⟨instance_or_stray, fun either => either.elim encountered_of_instance encountered_of_stray⟩
  refine ⟨recorded, ?_, fun key members mapKey => ?_⟩
  · constructor
    · intro exactly view stray
      exact (exactly view).mp ((recorded view).mpr (.inr stray))
    · intro covered view
      rw [recorded view]
      exact or_iff_left_of_imp (covered view)
  · rw [classifyField, mapKey]
    exact ⟨_, rfl⟩

/-- Display options that name a badge, in an object that is no instance of anything. -/
def looseOptions : Json := .object [("displayOptions", .object [("_template", .string "badge.hbs")])]

/-- The badge is recorded, though its object is the value of a map key. -/
theorem badge_recorded_under_map_key :
    ⟨"badge.hbs"⟩ ∈ (Corpus.ofDocument {} looseOptions "page.json").views.keys ∧
      ¬ Instance {} looseOptions ⟨"badge.hbs"⟩ := by
  refine ⟨by decide +kernel, ?_⟩
  rintro ⟨members, path, named⟩
  rcases path.cases_head with same | ⟨next, first, rest⟩
  · cases same
    exact absurd named (by decide +kernel)
  · cases first with
    | member held plain =>
      obtain ⟨rfl, rfl⟩ := Prod.mk.inj (List.mem_singleton.mp held)
      rcases rest.cases_head with same | ⟨next, second, _⟩
      · have asBag : Config.isMapField {} "displayOptions" = false := congrArg Place.asBag same
        exact absurd asBag (by decide +kernel)
      · cases second with
        | member held plain =>
          obtain ⟨rfl, rfl⟩ := Prod.mk.inj (List.mem_singleton.mp held)
          exact absurd plain (by decide +kernel)

end ViewSchema.RecordedViews
