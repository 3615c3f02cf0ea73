import Mathlib.Data.List.Induction
import ViewSchema.Proofs.NameCollisions
import ViewSchema.Proofs.RegistryContents

/-! Registries that go on changing after a search for shared names. A search only ever adds findings, and a view
loses them when it is registered again. So the findings against the name of a view tell which groups it was found
in since its last registration, each group once, and they are about the present group alone exactly if no search
in between found another one. -/
namespace ViewSchema.CollisionHistory
open NameCollisions

/-! ### Changes of a registry -/

/-- One change of a registry. -/
inductive Change where
  | register (view : ViewDefinition)
  /-- A search for shared names. -/
  | search

def Change.perform (registry : Registry) : Change → Registry
  | .register view => registry.register view
  | .search => registry.recordCollisions

/-- The registry after some changes, one after the other, of an empty one. -/
def after (namespaces : SortedSet String) (changes : List Change) : Registry :=
  changes.foldl Change.perform { implicitNamespaces := namespaces }

/-- The views that some changes register, in the same order. -/
def registrations (changes : List Change) : List ViewDefinition :=
  changes.filterMap fun
    | .register view => some view
    | .search => none

/-- A search found the view under a key in a group of views with one name, these others and itself, and it was not
registered again since. -/
def FoundWith (namespaces : SortedSet String) (changes : List Change) (key : ViewKey)
    (others : List ViewKey) : Prop :=
  others ≠ [] ∧ ∃ earlier later view, changes = earlier ++ .search :: later ∧
    (∀ next, .register next ∈ later → next.key ≠ key) ∧ (after namespaces earlier).get? key = some view ∧
      ListsOthers (after namespaces earlier) key (·.fullName = view.fullName) others

section Changes
variable {namespaces : SortedSet String} {changes : List Change}

theorem after_append (change : Change) :
    after namespaces (changes ++ [change]) = change.perform (after namespaces changes) := by
  simp [after]

theorem registrations_register (view : ViewDefinition) :
    registrations (changes ++ [.register view]) = registrations changes ++ [view] := by
  simp [registrations]

theorem registrations_search : registrations (changes ++ [.search]) = registrations changes := by
  simp [registrations]

/-- Views stay under their own keys through every change. -/
theorem keyed_after : Keyed (after namespaces changes) := by
  induction changes using List.reverseRecOn with
  | nil => exact keyed_registered namespaces []
  | append_singleton changes change ih =>
    intro key view held
    rw [after_append] at held
    cases change with
    | register next =>
      rw [Change.perform, get?_register] at held
      split at held
      · next own =>
        cases held
        exact own.symm
      · exact ih key view held
    | search =>
      rw [Change.perform, get?_recordCollisions] at held
      obtain ⟨before, found, rfl⟩ := Option.map_eq_some_iff.mp held
      exact key_searched.trans (ih key before found)

/-! ### Groups by the last change -/

private theorem append_singleton_eq_append_cons {xs ys zs : List α} {x y : α} :
    xs ++ [x] = ys ++ y :: zs ↔
      (zs = [] ∧ xs = ys ∧ x = y) ∨ ∃ rest, zs = rest ++ [x] ∧ xs = ys ++ y :: rest := by
  constructor
  · intro same
    rcases List.eq_nil_or_concat zs with rfl | ⟨rest, last, rfl⟩
    · exact .inl ⟨rfl, List.append_singleton_inj.mp same⟩
    · rw [List.concat_eq_append, ← List.cons_append, ← List.append_assoc] at same
      obtain ⟨rfl, rfl⟩ := List.append_singleton_inj.mp same
      exact .inr ⟨rest, List.concat_eq_append, rfl⟩
  · rintro (⟨rfl, rfl, rfl⟩ | ⟨rest, rfl, rfl⟩) <;> simp

theorem listsOthers_unique (first : ListsOthers registry key shares a)
    (second : ListsOthers registry key shares b) : a = b := by
  have ascending : ∀ {others : List ViewKey}, (others.map ViewKey.path).Pairwise (· < ·) →
      others.Pairwise Before := fun paths => (List.pairwise_map.mp paths).imp compareOfLessAndEq_eq_lt.mpr
  have same : SortedSet.mk a (ascending first.ascending) = SortedSet.mk b (ascending second.ascending) :=
    SortedSet.ext fun other => (first.complete other).trans (second.complete other).symm
  exact congrArg SortedSet.toList same

theorem listsOthers_iff (keyed : Keyed registry) (held : registry.get? key = some view) :
    ListsOthers registry key (·.fullName = view.fullName) others ↔ others = registry.namesakes view := by
  obtain rfl := keyed key view held
  have all : ListsOthers registry view.key (·.fullName = view.fullName) (registry.namesakes view) :=
    namesakes_listsOthers keyed
  exact ⟨fun lists => listsOthers_unique lists all, fun same => same ▸ all⟩

/-- A view that is registered again was in no group since. -/
theorem foundWith_register : FoundWith namespaces (changes ++ [.register next]) key others ↔
    next.key ≠ key ∧ FoundWith namespaces changes key others := by
  constructor
  · rintro ⟨shared, earlier, later, view, split, kept, held, lists⟩
    rcases append_singleton_eq_append_cons.mp split with ⟨_, _, ⟨⟩⟩ | ⟨rest, rfl, rfl⟩
    have keptBefore : ∀ other, .register other ∈ rest → other.key ≠ key :=
      fun other listed => kept other (List.mem_append_left _ listed)
    exact ⟨kept next (by simp), shared, earlier, rest, view, rfl, keptBefore, held, lists⟩
  · rintro ⟨apart, shared, earlier, later, view, rfl, kept, held, lists⟩
    refine ⟨shared, earlier, later ++ [.register next], view, by simp, fun other listed => ?_, held, lists⟩
    rcases List.mem_append.mp listed with before | last
    · exact kept other before
    · cases List.mem_singleton.mp last
      exact apart

/-- A search finds a view in its present group, if there is one, and leaves what was found before. -/
theorem foundWith_search : FoundWith namespaces (changes ++ [.search]) key others ↔
    FoundWith namespaces changes key others ∨ (others ≠ [] ∧ ∃ view,
      (after namespaces changes).get? key = some view ∧ others = (after namespaces changes).namesakes view) := by
  constructor
  · rintro ⟨shared, earlier, later, view, split, kept, held, lists⟩
    rcases append_singleton_eq_append_cons.mp split with ⟨rfl, rfl, _⟩ | ⟨rest, rfl, rfl⟩
    · exact .inr ⟨shared, view, held, (listsOthers_iff keyed_after held).mp lists⟩
    · have keptBefore : ∀ other, .register other ∈ rest → other.key ≠ key :=
        fun other listed => kept other (List.mem_append_left _ listed)
      exact .inl ⟨shared, earlier, rest, view, rfl, keptBefore, held, lists⟩
  · rintro (⟨shared, earlier, later, view, rfl, kept, held, lists⟩ | ⟨shared, view, held, same⟩)
    · have keptToo : ∀ other, .register other ∈ later ++ [.search] → other.key ≠ key :=
        fun other listed => kept other (by simpa using listed)
      exact ⟨shared, earlier, later ++ [.search], view, by simp, keptToo, held, lists⟩
    · have lists := (listsOthers_iff keyed_after held).mpr same
      exact ⟨shared, changes, [], view, rfl, fun _ listed => absurd listed List.not_mem_nil, held, lists⟩

end Changes

/-! ### What is left of the searches -/

theorem nodup_appendNew [DecidableEq α] {l : List α} (distinct : l.Nodup) : (appendNew l a).Nodup := by
  by_cases held : a ∈ l
  · rwa [appendNew, if_pos held]
  · rw [appendNew, if_neg held]
    refine List.nodup_append.mpr ⟨distinct, by simp, fun x listed y last same => ?_⟩
    exact held (List.mem_singleton.mp last ▸ same ▸ listed)

/-- The groups that the view under a key was found in since its last registration, each once. -/
structure Groups (namespaces : SortedSet String) (changes : List Change) (key : ViewKey)
    (lists : List (List ViewKey)) : Prop where
  once : lists.Nodup
  found : ∀ others, others ∈ lists ↔ FoundWith namespaces changes key others

/-- The view as it was registered, with a finding against its name for each of some groups. -/
def withGroups (lists : List (List ViewKey)) (draft : ViewDefinition) : ViewDefinition :=
  { draft with errors := draft.errors ++ lists.map (.nameCollision draft.key draft.fullName) }

theorem withGroups_nil (draft : ViewDefinition) : withGroups [] draft = draft := by
  simp [withGroups]

theorem pushError_withGroups (unsearched : Unsearched draft) :
    (withGroups lists draft).pushError (.nameCollision draft.key draft.fullName others) =
      withGroups (appendNew lists others) draft := by
  have new := unsearched draft.key draft.fullName others
  by_cases known : others ∈ lists <;> simp [ViewDefinition.pushError, withGroups, appendNew, known, new]

theorem unsearched_ofFields (identity : Identity) (fields : List FieldDefinition) (usage : Option ViewUsage) :
    Unsearched (.ofFields identity fields usage) := fun _ _ _ => List.not_mem_nil

/-- The view under a key is as it was last registered, with a finding against its name for each group that it was
found in since. -/
def Tracked (namespaces : SortedSet String) (changes : List Change) (key : ViewKey) : Prop :=
  ∃ lists, Groups namespaces changes key lists ∧ (after namespaces changes).get? key =
    ((registered namespaces (registrations changes)).get? key).map (withGroups lists)

section Steps
variable {namespaces : SortedSet String} {changes : List Change} {key : ViewKey}

/-- The view that is registered starts anew, and every other one stays. -/
theorem Tracked.register (tracked : Tracked namespaces changes key) :
    Tracked namespaces (changes ++ [.register next]) key := by
  obtain ⟨lists, ⟨once, found⟩, same⟩ := tracked
  have last : registered namespaces (registrations (changes ++ [.register next])) =
      (registered namespaces (registrations changes)).register next := by
    simp [registered, registrations_register]
  unfold Tracked
  rw [after_append, Change.perform, last]
  simp only [get?_register]
  by_cases own : key = next.key
  · refine ⟨[], ⟨.nil, fun others => ?_⟩, by simp [own, withGroups_nil]⟩
    simp [foundWith_register, own]
  · refine ⟨lists, ⟨once, fun others => ?_⟩, by simpa [own] using same⟩
    rw [found, foundWith_register, and_iff_right (Ne.symm own)]

/-- A search adds the present group of the view, if it has one that was not found before. -/
theorem Tracked.search (fresh : ∀ view ∈ registrations changes, Unsearched view)
    (tracked : Tracked namespaces changes key) : Tracked namespaces (changes ++ [.search]) key := by
  obtain ⟨lists, ⟨once, found⟩, same⟩ := tracked
  unfold Tracked
  rw [registrations_search, after_append, Change.perform, get?_recordCollisions, same]
  cases last : (registered namespaces (registrations changes)).get? key with
  | none =>
    refine ⟨lists, ⟨once, fun others => ?_⟩, rfl⟩
    simp [found, foundWith_search, same, last]
  | some draft =>
    have held : (after namespaces changes).get? key = some (withGroups lists draft) := by rw [same, last]; rfl
    have unsearched : Unsearched draft := fresh draft (mem_of_registered last).1
    let group := (after namespaces changes).namesakes (withGroups lists draft)
    have more : ∀ others, FoundWith namespaces (changes ++ [.search]) key others ↔
        others ∈ lists ∨ others ≠ [] ∧ others = group := by
      intro others
      simp only [foundWith_search, found, held, Option.some.injEq, exists_eq_left', group]
    by_cases alone : group = []
    · refine ⟨lists, ⟨once, fun others => ?_⟩, congrArg some (searched_alone alone)⟩
      rw [more, alone]
      exact (or_iff_left fun both => both.1 both.2).symm
    · refine ⟨appendNew lists group, ⟨nodup_appendNew once, fun others => ?_⟩, congrArg some ?_⟩
      · rw [more, mem_appendNew, and_iff_right_of_imp fun is => is ▸ alone]
      · exact (searched_shared alone).trans (pushError_withGroups unsearched)

/-- Every view is tracked through all changes, by what each change does to it. -/
theorem tracked_after (fresh : ∀ view ∈ registrations changes, Unsearched view) :
    Tracked namespaces changes key := by
  induction changes using List.reverseRecOn with
  | nil =>
    refine ⟨[], ⟨.nil, fun others => ?_⟩, rfl⟩
    simp [FoundWith]
  | append_singleton changes change ih =>
    cases change with
    | register next =>
      rw [registrations_register] at fresh
      exact (ih fun view listed => fresh view (List.mem_append_left _ listed)).register
    | search =>
      rw [registrations_search] at fresh
      exact (ih fresh).search fresh

end Steps

/-! ### What the findings tell -/

/-- The findings against the name of a view. -/
def collisions (view : ViewDefinition) : List DefinitionError :=
  view.errors.filter fun
    | .nameCollision .. => true
    | _ => false

theorem collisions_withGroups (unsearched : Unsearched draft) :
    collisions (withGroups lists draft) = lists.map (.nameCollision draft.key draft.fullName) := by
  have own : collisions draft = [] := by
    refine List.filter_eq_nil_iff.mpr fun error listed => ?_
    cases error with
    | nameCollision accused className others => exact absurd listed (unsearched accused className others)
    | _ => nofun
  rw [collisions, withGroups, List.filter_append, ← collisions, own, List.nil_append, List.filter_eq_self]
  intro error listed
  obtain ⟨others, _, rfl⟩ := List.mem_map.mp listed
  rfl

/-- The findings against the name of a view are about its present group: there is one if others have its name,
which lists them all, and there is none if no other has it. -/
def UpToDate (registry : Registry) (key : ViewKey) (view : ViewDefinition) : Prop :=
  ∃ others, ListsOthers registry key (·.fullName = view.fullName) others ∧
    collisions view = if others = [] then [] else [.nameCollision key view.fullName others]

/-- What is recorded against names, and what comes of it. -/
structure TellsSearches (namespaces : SortedSet String) (changes : List Change) : Prop where
  /-- But for findings against names, each view is as it was last registered. -/
  recorded : ∀ key, Tracked namespaces changes key
  /-- The findings against the name of a view are one for each group that it was found in. -/
  findings : ∀ key view, (after namespaces changes).get? key = some view → ∃ lists,
    Groups namespaces changes key lists ∧ collisions view = lists.map (.nameCollision key view.fullName)
  /-- They are about the present group alone exactly if no search has found another. -/
  upToDate : ∀ key view, (after namespaces changes).get? key = some view →
    (UpToDate (after namespaces changes) key view ↔ ∀ others, FoundWith namespaces changes key others →
      ListsOthers (after namespaces changes) key (·.fullName = view.fullName) others)
  /-- The registry is handed over exactly if no view had findings of its own or was found in a group. -/
  validated : (after namespaces changes).validated = .ok (after namespaces changes) ↔
    ∀ key draft, (registered namespaces (registrations changes)).get? key = some draft →
      draft.errors = [] ∧ ∀ others, ¬ FoundWith namespaces changes key others

section Findings
variable {namespaces : SortedSet String} {changes : List Change} {lists : List (List ViewKey)}

theorem Groups.eq_nil_iff (groups : Groups namespaces changes key lists) :
    lists = [] ↔ ∀ others, ¬ FoundWith namespaces changes key others := by
  simp only [List.eq_nil_iff_forall_not_mem, groups.found]

/-- The findings for some groups are those for one group exactly if there is no other among them. -/
theorem Groups.single_iff (groups : Groups namespaces changes key lists) (present : group ≠ [] → group ∈ lists) :
    (lists.map (DefinitionError.nameCollision key className) =
        if group = [] then [] else [.nameCollision key className group]) ↔ ∀ others ∈ lists, others = group := by
  by_cases alone : group = []
  · have shared : ∀ others ∈ lists, others ≠ group := fun others listed =>
      alone ▸ ((groups.found others).mp listed).1
    rw [if_pos alone, List.map_eq_nil_iff, List.eq_nil_iff_forall_not_mem]
    exact forall_congr' fun others => ⟨fun unlisted listed => absurd listed unlisted, fun same listed =>
      shared others listed (same listed)⟩
  · have injective : Function.Injective (DefinitionError.nameCollision key className) := fun _ _ same =>
      (DefinitionError.nameCollision.inj same).2.2
    rw [if_neg alone, ← List.map_singleton, injective.list_map.eq_iff]
    constructor
    · rintro rfl others listed
      exact List.mem_singleton.mp listed
    · intro only
      have once : [group].Nodup := by simp
      refine List.perm_singleton.mp ((List.perm_ext_iff_of_nodup groups.once once).mpr fun others => ?_)
      exact ⟨fun listed => List.mem_singleton.mpr (only others listed), fun listed =>
        List.mem_singleton.mp listed ▸ present alone⟩

/-- Right after a search, the present group of a view is among those it was found in. -/
theorem Groups.present (groups : Groups namespaces (changes ++ [.search]) key lists)
    (held : (after namespaces (changes ++ [.search])).get? key = some view)
    (shared : (after namespaces (changes ++ [.search])).namesakes view ≠ []) :
    (after namespaces (changes ++ [.search])).namesakes view ∈ lists := by
  rw [groups.found, foundWith_search]
  rw [after_append, Change.perform] at held shared ⊢
  rw [get?_recordCollisions] at held
  obtain ⟨before, found, rfl⟩ := Option.map_eq_some_iff.mp held
  exact .inr ⟨shared, before, found, namesakes_recordCollisions _ before⟩

/-- Every view that is held comes of a registered one. -/
theorem draft_of_held (fresh : ∀ view ∈ registrations changes, Unsearched view)
    (held : (after namespaces changes).get? key = some view) : ∃ draft lists,
      (registered namespaces (registrations changes)).get? key = some draft ∧
        Groups namespaces changes key lists ∧ view = withGroups lists draft := by
  obtain ⟨lists, groups, same⟩ : Tracked namespaces changes key := tracked_after fresh
  obtain ⟨draft, found, rfl⟩ := Option.map_eq_some_iff.mp (same ▸ held)
  exact ⟨draft, lists, found, groups, rfl⟩

theorem collisions_after (fresh : ∀ view ∈ registrations changes, Unsearched view)
    (held : (after namespaces changes).get? key = some view) : ∃ lists,
      Groups namespaces changes key lists ∧ collisions view = lists.map (.nameCollision key view.fullName) := by
  obtain ⟨draft, lists, found, groups, rfl⟩ := draft_of_held fresh held
  obtain ⟨listed, rfl⟩ := mem_of_registered found
  exact ⟨lists, groups, collisions_withGroups (fresh draft listed)⟩

theorem validated_eq_ok_iff (registry : Registry) : registry.validated = .ok registry ↔
    ∀ key view, registry.get? key = some view → view.errors = [] := by
  have clean : registry.hasErrors = false ↔ ∀ key view, registry.get? key = some view → view.errors = [] := by
    simp only [Registry.hasErrors, List.any_eq_false, SortedMap.mem_values, ViewDefinition.hasErrors,
      Bool.not_eq_true, Bool.not_eq_false', List.isEmpty_iff]
    exact ⟨fun all key view held => all view ⟨key, held⟩, fun all view ⟨key, held⟩ => all key view held⟩
  rw [← clean, RegistryContents.validated_eq_ok, and_iff_left rfl]

theorem validated_after (fresh : ∀ view ∈ registrations changes, Unsearched view) :
    (after namespaces changes).validated = .ok (after namespaces changes) ↔
      ∀ key draft, (registered namespaces (registrations changes)).get? key = some draft →
        draft.errors = [] ∧ ∀ others, ¬ FoundWith namespaces changes key others := by
  rw [validated_eq_ok_iff]
  constructor
  · intro clean key draft found
    obtain ⟨lists, groups, same⟩ : Tracked namespaces changes key := tracked_after fresh
    have empty := clean key (withGroups lists draft) (by rw [same, found]; rfl)
    rw [withGroups, List.append_eq_nil_iff, List.map_eq_nil_iff] at empty
    exact ⟨empty.1, groups.eq_nil_iff.mp empty.2⟩
  · intro clean key view held
    obtain ⟨draft, lists, found, groups, rfl⟩ := draft_of_held fresh held
    obtain ⟨own, unfound⟩ := clean key draft found
    rw [groups.eq_nil_iff.mpr unfound, withGroups_nil, own]

end Findings

/-- Right after a search the findings against names tell which groups the searches have found, in every registry
that was filled with views that it has not seen before. -/
theorem collisions_tell_searches (namespaces : SortedSet String) {changes : List Change}
    (fresh : ∀ view ∈ registrations changes, Unsearched view) :
    TellsSearches namespaces (changes ++ [.search]) := by
  have unseen : ∀ view ∈ registrations (changes ++ [.search]), Unsearched view := by
    rwa [registrations_search]
  refine
    { recorded := fun _ => tracked_after unseen, findings := fun _ _ => collisions_after unseen
      upToDate := fun key view held => ?_, validated := validated_after unseen }
  obtain ⟨lists, groups, listed⟩ := collisions_after unseen held
  simp only [UpToDate, listsOthers_iff keyed_after held, exists_eq_left, ← groups.found, listed]
  exact groups.single_iff (groups.present held)

/-- Three cards with one class, of which the last is registered after a first search. -/
def growing : List Change :=
  let card path : ViewDefinition := .ofFields ⟨⟨path⟩, "site", "CardView"⟩ [] none
  [.register (card "a.hbs"), .register (card "b.hbs"), .search, .register (card "c.hbs")]

/-- The first two cards have a finding for each of the two groups, the third one has a finding for the second. -/
theorem collisions_tell_searches_growing :
    (∀ view ∈ registrations growing, Unsearched view) ∧ TellsSearches .empty (growing ++ [.search]) ∧
      (after .empty (growing ++ [.search])).errors =
        [.nameCollision ⟨"a.hbs"⟩ "site.CardView" [⟨"b.hbs"⟩],
          .nameCollision ⟨"a.hbs"⟩ "site.CardView" [⟨"b.hbs"⟩, ⟨"c.hbs"⟩],
          .nameCollision ⟨"b.hbs"⟩ "site.CardView" [⟨"a.hbs"⟩],
          .nameCollision ⟨"b.hbs"⟩ "site.CardView" [⟨"a.hbs"⟩, ⟨"c.hbs"⟩],
          .nameCollision ⟨"c.hbs"⟩ "site.CardView" [⟨"a.hbs"⟩, ⟨"b.hbs"⟩]] := by
  have fresh : ∀ view ∈ registrations growing, Unsearched view := by
    simp [growing, registrations, unsearched_ofFields]
  exact ⟨fresh, collisions_tell_searches .empty fresh, by decide +kernel⟩

/-- Two cards with one class, of which the second gets another class after a first search. -/
def moving : List Change :=
  let card path nameSpace : ViewDefinition := .ofFields ⟨⟨path⟩, nameSpace, "CardView"⟩ [] none
  [.register (card "a.hbs" "site"), .register (card "b.hbs" "site"), .search, .register (card "b.hbs" "org")]

/-- The finding against the first card outlives what it was about, and the registry is not handed over. -/
theorem moved_name_stays_recorded :
    (∀ view ∈ registrations moving, Unsearched view) ∧
      (∃ view, (after .empty (moving ++ [.search])).get? ⟨"a.hbs"⟩ = some view ∧
        ListsOthers (after .empty (moving ++ [.search])) ⟨"a.hbs"⟩ (·.fullName = view.fullName) [] ∧
        ¬ UpToDate (after .empty (moving ++ [.search])) ⟨"a.hbs"⟩ view) ∧
      (after .empty (moving ++ [.search])).validated = .error (.validation 1 1) := by
  let card := withGroups [[⟨"b.hbs"⟩]] (.ofFields ⟨⟨"a.hbs"⟩, "site", "CardView"⟩ [] none)
  have held : (after .empty (moving ++ [.search])).get? ⟨"a.hbs"⟩ = some card := by rfl
  have alone : (after .empty (moving ++ [.search])).namesakes card = [] := by decide +kernel
  refine ⟨by simp [moving, registrations, unsearched_ofFields], ⟨card, held, ?_, ?_⟩, by rfl⟩
  · exact (listsOthers_iff keyed_after held).mpr alone.symm
  · simp only [UpToDate, listsOthers_iff keyed_after held, exists_eq_left, alone]
    decide

/-! ### Registries that were built -/

/-- A registry that was built of a corpus is one that was filled with new views and searched. -/
theorem build_eq_after (config : Config) (corpus : Corpus) : ∃ changes,
    (∀ view ∈ registrations changes, Unsearched view) ∧
      Registry.build config corpus = after config.implicitNamespaces (changes ++ [.search]) := by
  refine ⟨(defineViews config corpus (Naming.ofViews config (viewKeys config corpus).toList)).map .register,
    fun view registered => ?_, by simp [after, Registry.build, List.foldl_map, Change.perform]⟩
  have defined : view ∈ defineViews config corpus (Naming.ofViews config (viewKeys config corpus).toList) := by
    simpa [registrations] using registered
  obtain ⟨key, _, rfl⟩ := List.mem_map.mp defined
  rw [RegistryContents.defineView_eq]
  exact fun _ _ _ => RegistryContents.collision_not_mem_ownFindings

end ViewSchema.CollisionHistory
