import Mathlib.Data.List.Basic
import ViewSchema.Proofs.UnificationSemantics

/-! What more observations can do to a type. They widen it: a text turns into a reference, a reference allows
more views, and where nothing in common is left, anything is allowed. They never repair a conflict, never take
away that there is a value, and never hide a text in the place of a view but behind a mixture that is worse. -/
namespace ViewSchema.TypeWidening
open UnificationSemantics

/-- The order of types by what they allow, at the leaf below the same lists and maps. -/
inductive Below : FieldType → FieldType → Prop where
  | refl : Below type type
  | text : Below .string (.objectReference views)
  | widen (included : ∀ view ∈ few, view ∈ many) : Below (.objectReference few) (.objectReference many)
  | list (items : Below few many) : Below (.list few) (.list many)
  | map (items : Below few many) : Below (.map few) (.map many)
  | anything : Below type .anything

theorem Below.trans (first : Below a b) (second : Below b c) : Below a c := by
  induction first generalizing c with
  | refl => exact second
  | text =>
    cases second with
    | refl => exact .text
    | widen included => exact .text
    | anything => exact .anything
  | widen included =>
    cases second with
    | refl => exact .widen included
    | widen more => exact .widen fun view listed => more view (included view listed)
    | anything => exact .anything
  | list items ih =>
    cases second with
    | refl => exact .list items
    | list more => exact .list (ih more)
    | anything => exact .anything
  | map items ih =>
    cases second with
    | refl => exact .map items
    | map more => exact .map (ih more)
    | anything => exact .anything
  | anything =>
    cases second with
    | refl => exact .anything
    | anything => exact .anything

/-- What the outcome for some kinds says about the outcome for more of them. -/
inductive Rises : (few many : Except UnifyError Unified) → Prop where
  /-- Of nothing, anything may come. -/
  | empty : Rises (.error .noValue) outcome
  | conflicting : Rises (.error (.conflictingTypes names)) (.error (.conflictingTypes more))
  | refused : Rises (.ok unified) (.error (.conflictingTypes names))
  | typed (below : Below few.type many.type)
      (loose : few.isLooselyTyped = true → many.isLooselyTyped = true ∨ many.type.leaf = .anything) :
      Rises (.ok few) (.ok many)

theorem Rises.wrap (rises : Rises few many) {container : FieldType → FieldType}
    (widens : ∀ {a b}, Below a b → Below (container a) (container b))
    (leaves : ∀ type, (container type).leaf = type.leaf) :
    Rises (few.map (·.wrap container)) (many.map (·.wrap container)) := by
  cases rises with
  | empty => exact .empty
  | conflicting => exact .conflicting
  | refused => exact .refused
  | typed below loose => exact .typed (widens below) fun passes => (loose passes).imp_right (leaves _).trans

/-! ### A conflict is above everything -/

private theorem conflict_everywhere (found : conflict options kinds = .error cause) (others : List Kind) :
    ∃ names, conflict options others = .error (.conflictingTypes names) := by
  unfold conflict at found ⊢
  split at found
  · cases found
  · next rejects => exact ⟨_, if_neg rejects⟩

/-- Options that report one conflict report all of them. -/
theorem conflict_of_conflicting (found : unify options kinds = .error (.conflictingTypes names))
    (others : List Kind) : ∃ more, conflict options others = .error (.conflictingTypes more) := by
  fun_induction unify options kinds with
  | case5 kinds shape ih | case6 kinds shape ih =>
    cases below : unify options (itemKinds kinds) with
    | ok inner => simp [below, Except.map] at found
    | error cause =>
      simp only [below, Except.map, Except.error.injEq] at found
      exact ih (below.trans (congrArg _ found))
  | case8 | case10 => exact conflict_everywhere found others
  | _ => cases found

theorem conflict_rises (options : UnifyOptions) (kinds others : List Kind) :
    Rises (unify options kinds) (conflict options others) := by
  cases found : unify options kinds with
  | ok unified =>
    unfold conflict
    split
    · exact .typed .anything fun _ => .inr rfl
    · exact .refused
  | error cause =>
    cases cause with
    | noValue => exact .empty
    | conflictingTypes names =>
      obtain ⟨more, reported⟩ := conflict_of_conflicting found others
      rw [reported]
      exact .conflicting

/-! ### More kinds -/

section Included
variable {kinds others : List Kind} (included : ∀ kind ∈ kinds, kind ∈ others)
include included

theorem categories_sublist : (categoriesOf kinds).Sublist (categoriesOf others) := by
  apply SortedSet.sublist_of_subset
  intro category seen
  obtain ⟨kind, held, same⟩ := mem_categoriesOf.mp seen
  exact mem_categoriesOf.mpr ⟨kind, included kind held, same⟩

/-- Kinds among those of a single category are of that category, if there are any. -/
theorem empty_or_single (shape : categoriesOf others = [category]) :
    categoriesOf kinds = [] ∨ categoriesOf kinds = [category] :=
  List.sublist_singleton.mp (shape ▸ categories_sublist included)

theorem itemKinds_included : ∀ item ∈ itemKinds kinds, item ∈ itemKinds others := by
  intro item listed
  obtain ⟨kind, seen, held⟩ := mem_itemKinds.mp listed
  exact mem_itemKinds.mpr ⟨kind, included kind seen, held⟩

theorem targets_included : ∀ view ∈ referenceTargets kinds, view ∈ referenceTargets others := by
  intro view listed
  exact mem_referenceTargets.mpr (included _ (mem_referenceTargets.mp listed))

end Included

theorem unify_of_empty (options : UnifyOptions) (none : categoriesOf kinds = []) :
    unify options kinds = .error .noValue := by
  rw [unify_step, none]

/-- Kinds of no category are below anything, so only those of the category of the others are left to compare. -/
theorem rises_of_single (included : ∀ kind ∈ kinds, kind ∈ others) (shape : categoriesOf others = [category])
    (rises : categoriesOf kinds = [category] → Rises (unify options kinds) outcome) :
    Rises (unify options kinds) outcome := by
  rcases empty_or_single included shape with none | same
  · rw [unify_of_empty options none]
    exact .empty
  · exact rises same

/-- More kinds have an outcome above that of fewer, whatever branch either of them takes. -/
theorem unify_rises (included : ∀ kind ∈ kinds, kind ∈ others) :
    Rises (unify options kinds) (unify options others) := by
  fun_induction unify options others generalizing kinds with
  | case1 others shape =>
    rw [unify_of_empty options (List.sublist_nil.mp (shape ▸ categories_sublist included))]
    exact .empty
  | case2 others shape | case3 others shape | case4 others shape =>
    apply rises_of_single included shape
    intro same
    rw [unify_step, same]
    exact .typed .refl .inl
  | case5 others shape ih =>
    apply rises_of_single included shape
    intro same
    rw [unify_step options kinds, same]
    exact (ih (itemKinds_included included)).wrap .list fun _ => rfl
  | case6 others shape ih =>
    apply rises_of_single included shape
    intro same
    rw [unify_step options kinds, same]
    exact (ih (itemKinds_included included)).wrap .map fun _ => rfl
  | case7 others shape =>
    apply rises_of_single included shape
    intro same
    rw [unify_step, same]
    exact .typed (.widen (targets_included included)) .inl
  | case8 others shape strict => exact conflict_rises options kinds others
  | case9 others shape lenient =>
    -- The fewer kinds may lack the texts, the references, or both; only with both are they loosely typed.
    have fewer : (categoriesOf kinds).Sublist [.string, .objectReference] := shape ▸ categories_sublist included
    rcases List.sublist_cons_iff.mp fewer with textless | ⟨rest, texts, fewer⟩
    · rcases List.sublist_singleton.mp textless with none | references
      · rw [unify_of_empty options none]
        exact .empty
      · rw [unify_step, references]
        exact .typed (.widen (targets_included included)) fun passes => absurd passes Bool.false_ne_true
    rcases List.sublist_singleton.mp fewer with rfl | rfl
    · rw [unify_step, texts]
      exact .typed .text fun passes => absurd passes Bool.false_ne_true
    · rw [unify_step, texts]
      dsimp only
      rw [if_neg lenient]
      exact .typed (.widen (targets_included included)) fun _ => .inl rfl
  | case10 others => exact conflict_rises options kinds others

/-- Observing more never repairs a conflict and never leaves a field without a value. What it does to the type is
to widen it, and a type that lets a text pass for a view keeps doing so, unless anything is allowed by then. -/
theorem unify_monotone (options : UnifyOptions) (included : ∀ kind ∈ kinds, kind ∈ others) :
    (∀ names, unify options kinds = .error (.conflictingTypes names) →
      ∃ more, unify options others = .error (.conflictingTypes more)) ∧
    ∀ unified, unify options kinds = .ok unified →
      unify options others ≠ .error .noValue ∧
      ∀ later, unify options others = .ok later →
        Below unified.type later.type ∧
        (unified.isLooselyTyped = true → later.isLooselyTyped = true ∨ later.type.leaf = .anything) := by
  have rises : Rises (unify options kinds) (unify options others) := unify_rises included
  generalize unify options kinds = before at rises
  generalize unify options others = after at rises
  cases rises with
  | empty => exact ⟨nofun, nofun⟩
  | conflicting => exact ⟨fun _ _ => ⟨_, rfl⟩, nofun⟩
  | refused => exact ⟨nofun, fun _ _ => ⟨nofun, nofun⟩⟩
  | typed below loose =>
    refine ⟨nofun, fun _ before => ⟨nofun, fun _ after => ?_⟩⟩
    cases before
    cases after
    exact ⟨below, loose⟩

/-- A list with a caption in the place of a teaser. -/
def caption : Kind := .list [.string, .objectReference ⟨"teaser.hbs"⟩]

/-- A list of nothing but cards. -/
def cards : Kind := .list [.objectReference ⟨"card.hbs"⟩]

/-- A list whose items have no type in common. -/
def unlike : Kind := .list [.number, .string]

/-- What the caption comes to on its own. -/
def captionAlone : Unified where
  type := .list (.objectReference (.ofList [⟨"teaser.hbs"⟩]))
  loosenings := [.referenceOrString ["ObjectReference(teaser.hbs)", "String"]]

/-- What the caption comes to beside the cards. -/
def captionBesideCards : Unified where
  type := .list (.objectReference (.ofList [⟨"card.hbs"⟩, ⟨"teaser.hbs"⟩]))
  loosenings := [.referenceOrString
    ["ObjectReference(card.hbs)", "ObjectReference(teaser.hbs)", "String"]]

/-- The cards widen the reference that the caption passes for, and the caption still passes. The conflict among
the items of a list turns into another one when a text is seen beside the list. -/
theorem unify_monotone_cards :
    (∀ kind ∈ [caption], kind ∈ [cards, caption]) ∧
    unify {} [caption] = .ok captionAlone ∧ unify {} [cards, caption] = .ok captionBesideCards ∧
    Below captionAlone.type captionBesideCards.type ∧
    captionAlone.isLooselyTyped = true ∧
    (captionBesideCards.isLooselyTyped = true ∨ captionBesideCards.type.leaf = .anything) ∧
    (∀ kind ∈ [unlike], kind ∈ [unlike, .string]) ∧
    unify {} [unlike] = .error (.conflictingTypes ["Number", "String"]) ∧
    ∃ more, unify {} [unlike, .string] = .error (.conflictingTypes more) := by
  have included : ∀ kind ∈ [caption], kind ∈ [cards, caption] := fun _ held => List.mem_cons_of_mem _ held
  have before : unify {} [caption] = .ok captionAlone := by decide +kernel
  have after : unify {} [cards, caption] = .ok captionBesideCards := by decide +kernel
  obtain ⟨below, stays⟩ := ((unify_monotone {} included).2 _ before).2 _ after
  have passes : captionAlone.isLooselyTyped = true := rfl
  have texts : ∀ kind ∈ [unlike], kind ∈ [unlike, .string] := by decide
  have conflicting : unify {} [unlike] = .error (.conflictingTypes ["Number", "String"]) := by decide +kernel
  have still := (unify_monotone {} texts).1 _ conflicting
  exact ⟨included, before, after, below, passes, stays passes, texts, conflicting, still⟩

end ViewSchema.TypeWidening
