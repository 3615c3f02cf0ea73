import ViewSchema.Proofs.ClassNames
import ViewSchema.Proofs.OrderedContainers
import ViewSchema.Registry.Basic

/-! What the search for shared names leaves in a registry. Each view whose name is shared gets one finding that
lists all the others, so the findings of a group accuse each other and a second search has nothing to add;
nothing else in the registry moves. The search compares full names, and among views that were named together
these are as good as classes. -/
namespace ViewSchema.NameCollisions
open ClassNames

/-! ### Registries that are filled view by view -/

/-- The registry after some views were registered, one after the other. -/
def registered (namespaces : SortedSet String) (views : List ViewDefinition) : Registry :=
  views.foldl Registry.register { implicitNamespaces := namespaces }

theorem get?_register (registry : Registry) (view : ViewDefinition) (key : ViewKey) :
    (registry.register view).get? key = if key = view.key then some view else registry.get? key :=
  SortedMap.get?_insert registry.views view.key key view

/-- A key holds the last view that was registered under it. -/
theorem get?_foldl_register (views : List ViewDefinition) (start : Registry) (key : ViewKey) :
    (views.foldl Registry.register start).get? key =
      (views.reverse.find? (·.key = key)).or (start.get? key) := by
  induction views generalizing start with
  | nil => simp
  | cons view rest ih =>
    rw [List.foldl_cons, ih, get?_register, List.reverse_cons, List.find?_append, Option.or_assoc]
    by_cases own : key = view.key <;> simp [own, Ne.symm]

theorem get?_registered (namespaces : SortedSet String) (views : List ViewDefinition) (key : ViewKey) :
    (registered namespaces views).get? key = views.reverse.find? (·.key = key) := by
  rw [registered, get?_foldl_register]
  exact Option.or_none

theorem mem_of_registered (found : (registered namespaces views).get? key = some view) :
    view ∈ views ∧ view.key = key := by
  rw [get?_registered] at found
  exact ⟨List.mem_reverse.mp (List.mem_of_find?_eq_some found), by simpa using List.find?_some found⟩

/-- Every view stands under its own key. -/
def Keyed (registry : Registry) : Prop := ∀ key view, registry.get? key = some view → view.key = key

theorem keyed_registered (namespaces : SortedSet String) (views : List ViewDefinition) :
    Keyed (registered namespaces views) := fun _ _ found => (mem_of_registered found).2

/-! ### The other views with a name -/

/-- A list of all views of a registry that share something, except the one under `key`, in ascending order. -/
structure ListsOthers (registry : Registry) (key : ViewKey) (shares : ViewDefinition → Prop)
    (others : List ViewKey) : Prop where
  ascending : (others.map ViewKey.path).Pairwise (· < ·)
  complete : ∀ other, other ∈ others ↔ other ≠ key ∧ ∃ view, registry.get? other = some view ∧ shares view

theorem mem_namesakes (keyed : Keyed registry) : other ∈ registry.namesakes view ↔
    other ≠ view.key ∧ ∃ holder, registry.get? other = some holder ∧ holder.fullName = view.fullName := by
  simp only [Registry.namesakes, List.mem_map, List.mem_filter, Bool.and_eq_true, beq_iff_eq, bne_iff_ne]
  constructor
  · rintro ⟨holder, ⟨held, same, apart⟩, rfl⟩
    obtain ⟨key, found⟩ := SortedMap.mem_values.mp held
    obtain rfl := keyed key holder found
    exact ⟨apart, holder, found, same⟩
  · rintro ⟨apart, holder, found, same⟩
    obtain rfl := keyed other holder found
    exact ⟨holder, ⟨SortedMap.mem_values.mpr ⟨_, found⟩, same, apart⟩, rfl⟩

/-- Views that stand under their own keys are read out in the order of their keys. -/
private theorem keys_values (keyed : Keyed registry) :
    registry.views.values.map ViewDefinition.key = registry.views.keys.toList := by
  simp only [SortedMap.values, SortedMap.keys, List.map_map]
  exact List.map_congr_left fun entry listed => keyed entry.1 entry.2 (SortedMap.mem_entries.mp listed)

theorem namesakes_listsOthers (keyed : Keyed registry) :
    ListsOthers registry view.key (·.fullName = view.fullName) (registry.namesakes view) where
  ascending := by
    have within : (registry.namesakes view).Sublist registry.views.keys.toList :=
      keys_values keyed ▸ List.filter_sublist.map ViewDefinition.key
    rw [List.pairwise_map]
    exact (registry.views.keys.ascending.sublist within).imp compareOfLessAndEq_eq_lt.mp
  complete _ := mem_namesakes keyed

/-! ### What the search does to one view -/

/-- The view after the search: with a finding more if its name is shared. -/
def searched (registry : Registry) (view : ViewDefinition) : ViewDefinition :=
  match registry.namesakes view with
  | [] => view
  | others => view.pushError (.nameCollision view.key view.fullName others)

theorem views_recordCollisions (registry : Registry) :
    registry.recordCollisions.views = registry.views.map fun _ => searched registry := rfl

theorem get?_recordCollisions (registry : Registry) (key : ViewKey) :
    registry.recordCollisions.get? key = (registry.get? key).map (searched registry) :=
  SortedMap.get?_map registry.views (fun _ => searched registry) key

/-- The search leaves everything of a view alone but its list of findings. -/
theorem searched_eq (registry : Registry) (view : ViewDefinition) :
    searched registry view = { view with errors := (searched registry view).errors } := by
  unfold searched
  split <;> rfl

@[simp] theorem key_searched : (searched registry view).key = view.key := by
  rw [searched_eq]
  rfl

@[simp] theorem fullName_searched : (searched registry view).fullName = view.fullName := by
  rw [searched_eq]
  rfl

theorem searched_alone (alone : registry.namesakes view = []) : searched registry view = view := by
  simp [searched, alone]

theorem searched_shared (shared : registry.namesakes view ≠ []) : searched registry view =
    view.pushError (.nameCollision view.key view.fullName (registry.namesakes view)) := by
  unfold searched
  split
  · next alone => exact absurd alone shared
  · rfl

theorem mem_appendNew [DecidableEq α] {l : List α} : x ∈ appendNew l a ↔ x ∈ l ∨ x = a := by
  by_cases held : a ∈ l
  · rw [appendNew, if_pos held]
    exact (or_iff_left_of_imp fun same => same ▸ held).symm
  · simp [appendNew, held]

theorem mem_errors_searched : error ∈ (searched registry view).errors ↔ error ∈ view.errors ∨
    (registry.namesakes view ≠ [] ∧
      error = .nameCollision view.key view.fullName (registry.namesakes view)) := by
  by_cases alone : registry.namesakes view = []
  · simp [searched_alone alone, alone]
  · rw [searched_shared alone, ViewDefinition.pushError, mem_appendNew, and_iff_right alone]

/-! ### Searching again -/

theorem appendNew_twice [DecidableEq α] (l : List α) (a : α) :
    appendNew (appendNew l a) a = appendNew l a := by
  have held : a ∈ appendNew l a := mem_appendNew.mpr (.inr rfl)
  rw [appendNew, if_pos held]

/-- The search reads names and keys, and changes neither. -/
theorem namesakes_recordCollisions (registry : Registry) (view : ViewDefinition) :
    registry.recordCollisions.namesakes (searched registry view) = registry.namesakes view := by
  have values : registry.recordCollisions.views.values = registry.views.values.map (searched registry) := by
    simp [views_recordCollisions, SortedMap.values, SortedMap.map]
  simp only [Registry.namesakes, values, List.filter_map, List.map_map, Function.comp_def, key_searched,
    fullName_searched]

theorem searched_twice (registry : Registry) (view : ViewDefinition) :
    searched registry.recordCollisions (searched registry view) = searched registry view := by
  have same := namesakes_recordCollisions registry view
  by_cases alone : registry.namesakes view = []
  · rw [searched_alone (same.trans alone)]
  · have shared : registry.recordCollisions.namesakes (searched registry view) ≠ [] := same ▸ alone
    rw [searched_shared shared, same, searched_shared alone]
    simp only [ViewDefinition.pushError, ViewDefinition.key, ViewDefinition.fullName, appendNew_twice]

/-- A second search finds everything recorded. -/
theorem recordCollisions_twice (registry : Registry) :
    registry.recordCollisions.recordCollisions = registry.recordCollisions := by
  have views : registry.recordCollisions.recordCollisions.views = registry.recordCollisions.views := by
    rw [views_recordCollisions registry.recordCollisions, views_recordCollisions registry, SortedMap.map_map]
    simp only [searched_twice]
  exact congrArg (Registry.mk · registry.implicitNamespaces) views

/-! ### What the findings say -/

/-- No finding against a shared name is recorded yet. -/
def Unsearched (view : ViewDefinition) : Prop :=
  ∀ accused className others, .nameCollision accused className others ∉ view.errors

/-- A finding against the view lists the other one. -/
def Accuses (view : ViewDefinition) (other : ViewKey) : Prop :=
  ∃ className others, .nameCollision view.key className others ∈ view.errors ∧ other ∈ others

theorem errors_searched (unsearched : Unsearched view) (shared : registry.namesakes view ≠ []) :
    searched registry view = { view with
      errors := view.errors ++ [.nameCollision view.key view.fullName (registry.namesakes view)] } := by
  have new := unsearched view.key view.fullName (registry.namesakes view)
  simp [searched_shared shared, ViewDefinition.pushError, appendNew, new]

theorem accuses_searched (unsearched : Unsearched view) :
    Accuses (searched registry view) other ↔ other ∈ registry.namesakes view := by
  simp only [Accuses, key_searched, mem_errors_searched]
  constructor
  · rintro ⟨className, others, old | ⟨_, ⟨⟩⟩, listed⟩
    · exact absurd old (unsearched _ _ _)
    · exact listed
  · intro listed
    exact ⟨view.fullName, _, .inr ⟨List.ne_nil_of_mem listed, rfl⟩, listed⟩

/-- What a search has to leave of a registry. -/
structure Recorded (before after : Registry) : Prop where
  keys : after.views.keys = before.views.keys
  implicitNamespaces : after.implicitNamespaces = before.implicitNamespaces
  /-- A view whose name is shared has one finding more, which lists all the others. -/
  shared : ∀ key view, before.get? key = some view →
    (∃ other holder, other ≠ key ∧ before.get? other = some holder ∧ holder.fullName = view.fullName) →
    ∃ others, ListsOthers before key (·.fullName = view.fullName) others ∧
      after.get? key =
        some { view with errors := view.errors ++ [.nameCollision key view.fullName others] }
  /-- Any other view is as it was. -/
  alone : ∀ key view, before.get? key = some view →
    (∀ other holder, before.get? other = some holder → holder.fullName = view.fullName → other = key) →
    after.get? key = some view
  /-- Who is accused by a view accuses it too. -/
  symmetric : ∀ a b first second, after.get? a = some first → after.get? b = some second →
    (Accuses first b ↔ Accuses second a)
  /-- A second search changes nothing. -/
  settled : after.recordCollisions = after

/-- Of two views that stand under their own keys, each is listed for the other or neither is. -/
theorem mem_namesakes_comm (keyed : Keyed registry) (held : registry.get? a = some first)
    (heldToo : registry.get? b = some second) :
    b ∈ registry.namesakes first ↔ a ∈ registry.namesakes second := by
  simp only [mem_namesakes keyed, keyed a first held, keyed b second heldToo, held, heldToo,
    Option.some.injEq, exists_eq_left', ne_comm (a := b), eq_comm (a := second.fullName)]

/-- The search records shared names exactly, in every registry that was filled with views that it has not seen
before. -/
theorem collisions_recorded (namespaces : SortedSet String) {views : List ViewDefinition}
    (fresh : ∀ view ∈ views, Unsearched view) :
    Recorded (registered namespaces views) (registered namespaces views).recordCollisions := by
  have keyed := keyed_registered namespaces views
  have unsearched : ∀ key view, (registered namespaces views).get? key = some view → Unsearched view :=
    fun _ view found => fresh view (mem_of_registered found).1
  refine
    { keys := SortedMap.keys_map _ _, implicitNamespaces := rfl, shared := ?_, alone := ?_, symmetric := ?_
      settled := recordCollisions_twice _ }
  · rintro key view found ⟨other, holder, apart, held, same⟩
    obtain rfl := keyed key view found
    have listed : other ∈ (registered namespaces views).namesakes view :=
      (mem_namesakes keyed).mpr ⟨apart, holder, held, same⟩
    refine ⟨_, namesakes_listsOthers keyed, ?_⟩
    rw [get?_recordCollisions, found, Option.map_some,
      errors_searched (unsearched _ _ found) (List.ne_nil_of_mem listed)]
  · intro key view found only
    have alone : (registered namespaces views).namesakes view = [] := by
      refine List.eq_nil_iff_forall_not_mem.mpr fun other listed => ?_
      obtain ⟨apart, holder, held, same⟩ := (mem_namesakes keyed).mp listed
      exact apart ((only other holder held same).trans (keyed key view found).symm)
    rw [get?_recordCollisions, found, Option.map_some, searched_alone alone]
  · intro a b first second foundA foundB
    rw [get?_recordCollisions] at foundA foundB
    obtain ⟨first, heldA, rfl⟩ := Option.map_eq_some_iff.mp foundA
    obtain ⟨second, heldB, rfl⟩ := Option.map_eq_some_iff.mp foundB
    rw [accuses_searched (unsearched _ _ heldA), accuses_searched (unsearched _ _ heldB)]
    exact mem_namesakes_comm keyed heldA heldB

/-- Views without fields, named together. -/
def namedTogether (config : Config) (keys : List ViewKey) : List ViewDefinition :=
  keys.map fun key => .ofFields ((Naming.ofViews config keys).identify key) [] none

/-- Three cards, of which the first is registered again at the end, and a page whose class cannot be written.
The namespaces are those of their directories, so that two cards share a class. -/
def cardsAndPage : List ViewDefinition :=
  let views := namedTogether {} [⟨"a.b/card.hbs"⟩, ⟨"c/card.hbs"⟩, ⟨"a/b/card.hbs"⟩, ⟨"page 1/x.hbs"⟩]
  views.map ViewDefinition.validate ++ views.take 1

/-- The two cards accuse each other; the third card and the page, with its own finding, are as they were. -/
theorem collisions_recorded_cards :
    (∀ view ∈ cardsAndPage, Unsearched view) ∧
      Recorded (registered .empty cardsAndPage) (registered .empty cardsAndPage).recordCollisions ∧
      (registered .empty cardsAndPage).recordCollisions.errors =
        [.nameCollision ⟨"a.b/card.hbs"⟩ "a.b.CardView" [⟨"a/b/card.hbs"⟩],
          .nameCollision ⟨"a/b/card.hbs"⟩ "a.b.CardView" [⟨"a.b/card.hbs"⟩],
          .invalidIdentity ⟨"page 1/x.hbs"⟩ "page 1.XView" (.namespaceSegment "page 1")] := by
  have errors : cardsAndPage.map ViewDefinition.errors =
      [[], [], [], [.invalidIdentity ⟨"page 1/x.hbs"⟩ "page 1.XView" (.namespaceSegment "page 1")], []] := by
    decide +kernel
  have fresh : ∀ view ∈ cardsAndPage, Unsearched view := by
    intro view listed accused className others
    have plain : ∀ found ∈ cardsAndPage.map ViewDefinition.errors,
        .nameCollision accused className others ∉ found := by
      rw [errors]
      simp
    exact plain _ (List.mem_map_of_mem listed)
  exact ⟨fresh, collisions_recorded .empty fresh, by decide +kernel⟩

/-! ### Views that were named together -/

/-- The search finds against each view exactly the other views with its class. -/
def RecordsClasses (registry : Registry) : Prop :=
  ∀ key view, registry.get? key = some view → ∃ others after,
    ListsOthers registry key (SameClass ·.identity view.identity) others ∧
      registry.recordCollisions.get? key = some after ∧
        ∀ error, error ∈ after.errors ↔ error ∈ view.errors ∨
          (others ≠ [] ∧ error = .nameCollision key view.fullName others)

/-- Views that were named together have one full name exactly if they have one class, whatever the settings
are, so the search that compares full names records the classes that are shared. -/
theorem shared_names_are_shared_classes (config : Config) (keys : List ViewKey) :
    (∀ a b, ((Naming.ofViews config keys).identify a).fullName =
          ((Naming.ofViews config keys).identify b).fullName ↔
        SameClass ((Naming.ofViews config keys).identify a) ((Naming.ofViews config keys).identify b)) ∧
      ∀ namespaces views, (∀ view ∈ views, view.identity = (Naming.ofViews config keys).identify view.key) →
        RecordsClasses (registered namespaces views) := by
  refine ⟨fun a b => fullName_eq_iff, fun namespaces views named key view found => ?_⟩
  have keyed := keyed_registered namespaces views
  have identity : ∀ key view, (registered namespaces views).get? key = some view →
      view.identity = (Naming.ofViews config keys).identify view.key :=
    fun _ view held => named view (mem_of_registered held).1
  obtain rfl := keyed key view found
  have others : ListsOthers (registered namespaces views) view.key (·.fullName = view.fullName)
      ((registered namespaces views).namesakes view) := namesakes_listsOthers keyed
  refine ⟨_, searched (registered namespaces views) view, ⟨others.ascending, fun other => ?_⟩, ?_, ?_⟩
  · rw [others.complete]
    refine and_congr_right fun _ => exists_congr fun holder => and_congr_right fun held => ?_
    rw [ViewDefinition.fullName, ViewDefinition.fullName, identity _ _ held, identity _ _ found]
    exact fullName_eq_iff
  · rw [get?_recordCollisions, found, Option.map_some]
  · exact fun error => mem_errors_searched

/-- Settings that put dots into the namespaces and into the local names. -/
def dottedNames : Config := { namespacePrefix := "org.site", namePrefix := some "x.", nameSuffix := ".View" }

def dottedPaths : List ViewKey := [⟨"a.b/card.hbs"⟩, ⟨"a/b.card.hbs"⟩, ⟨"a/b/card.hbs"⟩]

/-- Two of the paths come to one class; the one in between only spells its file name like their directory. -/
theorem shared_names_are_shared_classes_dotted :
    (∀ view ∈ namedTogether dottedNames dottedPaths,
        view.identity = (Naming.ofViews dottedNames dottedPaths).identify view.key) ∧
      RecordsClasses (registered .empty (namedTogether dottedNames dottedPaths)) ∧
      (registered .empty (namedTogether dottedNames dottedPaths)).recordCollisions.errors =
        [.nameCollision ⟨"a.b/card.hbs"⟩ "org.site.a.b.x.Card.View" [⟨"a/b/card.hbs"⟩],
          .nameCollision ⟨"a/b/card.hbs"⟩ "org.site.a.b.x.Card.View" [⟨"a.b/card.hbs"⟩]] := by
  have named : ∀ view ∈ namedTogether dottedNames dottedPaths,
      view.identity = (Naming.ofViews dottedNames dottedPaths).identify view.key := by
    intro view listed
    obtain ⟨key, _, rfl⟩ := List.mem_map.mp listed
    rfl
  have recorded := (shared_names_are_shared_classes dottedNames dottedPaths).2 .empty _ named
  exact ⟨named, recorded, by decide +kernel⟩

end ViewSchema.NameCollisions
