import ViewSchema.Proofs.OrderedContainers
import ViewSchema.Unification

/-! What unification says about the kinds it was given. Its successes are restated as a derivation that
goes one level down per container, and whether a kind conforms to a type is defined apart from it. Every
kind conforms to the type that is found, the type refers to no view that no kind refers to, and the
outcome depends on the set of kinds alone. -/
namespace ViewSchema.UnificationSemantics

/-! ### The set of categories -/

theorem mem_categoriesOf : category ∈ categoriesOf kinds ↔ ∃ kind ∈ kinds, kind.category = category := by
  simp [categoriesOf]

theorem category_of_shape (shape : categoriesOf kinds = categories) (seen : kind ∈ kinds) :
    kind.category ∈ categories :=
  shape ▸ mem_categoriesOf.mpr ⟨kind, seen, rfl⟩

theorem mem_itemKinds : item ∈ itemKinds kinds ↔ ∃ kind ∈ kinds, item ∈ kind.items :=
  List.mem_flatMap

theorem mem_referenceTargets : view ∈ referenceTargets kinds ↔ Kind.objectReference view ∈ kinds := by
  simp only [referenceTargets, SortedSet.mem_ofList, List.mem_filterMap]
  constructor
  · rintro ⟨kind, seen, target⟩
    cases kind with
    | objectReference other =>
      cases target
      exact seen
    | _ => cases target
  · intro seen
    exact ⟨_, seen, rfl⟩

/-! ### Unification as a derivation -/

/-- One level of unification: what becomes of kinds is settled by the set of their categories. -/
theorem unify_step (options : UnifyOptions) (kinds : List Kind) : unify options kinds =
    match categoriesOf kinds with
    | [] => .error .noValue
    | [.boolean] => .ok ⟨.boolean, []⟩
    | [.string] => .ok ⟨.string, []⟩
    | [.number] => .ok ⟨.number, []⟩
    | [.list] => (unify options (itemKinds kinds)).map (·.wrap .list)
    | [.map] => (unify options (itemKinds kinds)).map (·.wrap .map)
    | [.objectReference] => .ok ⟨.objectReference (referenceTargets kinds), []⟩
    | [.string, .objectReference] =>
      if options.strict then conflict options kinds
      else .ok ⟨.objectReference (referenceTargets kinds), [.referenceOrString (Kind.sortedNames kinds)]⟩
    | _ => conflict options kinds := by
  rw [unify]
  split <;> simp only [*]

/-- How a type is found for some kinds: by their one category, one level down for containers, or by one
of the two tolerated mixtures. -/
inductive Unifies (options : UnifyOptions) : List Kind → Unified → Prop where
  | boolean (shape : categoriesOf kinds = [.boolean]) : Unifies options kinds ⟨.boolean, []⟩
  | string (shape : categoriesOf kinds = [.string]) : Unifies options kinds ⟨.string, []⟩
  | number (shape : categoriesOf kinds = [.number]) : Unifies options kinds ⟨.number, []⟩
  | list (shape : categoriesOf kinds = [.list]) (inner : Unifies options (itemKinds kinds) unified) :
      Unifies options kinds (unified.wrap .list)
  | map (shape : categoriesOf kinds = [.map]) (inner : Unifies options (itemKinds kinds) unified) :
      Unifies options kinds (unified.wrap .map)
  | reference (shape : categoriesOf kinds = [.objectReference]) :
      Unifies options kinds ⟨.objectReference (referenceTargets kinds), []⟩
  | referenceOrString (shape : categoriesOf kinds = [.string, .objectReference])
      (lenient : options.strict = false) :
      Unifies options kinds
        ⟨.objectReference (referenceTargets kinds), [.referenceOrString (Kind.sortedNames kinds)]⟩
  | fallback (mixed : 2 ≤ (categoriesOf kinds).length)
      (apart : categoriesOf kinds ≠ [.string, .objectReference])
      (lenient : options.strict = false) (degrades : options.conflictPolicy = .degrade) :
      Unifies options kinds ⟨.anything, [.fallback (Kind.sortedNames kinds)]⟩

private theorem conflict_ok (found : conflict options kinds = .ok unified) :
    options.strict = false ∧ options.conflictPolicy = .degrade ∧
      unified = ⟨.anything, [.fallback (Kind.sortedNames kinds)]⟩ := by
  unfold conflict at found
  split at found
  · next tolerated =>
    simp only [Bool.and_eq_true, Bool.not_eq_true', beq_iff_eq] at tolerated
    cases found
    exact ⟨tolerated.1, tolerated.2, rfl⟩
  · cases found

/-- Every type that unification finds is derived. -/
theorem unify_derives (found : unify options kinds = .ok unified) : Unifies options kinds unified := by
  fun_induction unify options kinds generalizing unified with
  | case1 => cases found
  | case2 kinds shape => cases found; exact .boolean shape
  | case3 kinds shape => cases found; exact .string shape
  | case4 kinds shape => cases found; exact .number shape
  | case5 kinds shape ih =>
    cases below : unify options (itemKinds kinds) with
    | error cause => simp [below, Except.map] at found
    | ok inner =>
      simp only [below, Except.map, Except.ok.injEq] at found
      exact found ▸ .list shape (ih below)
  | case6 kinds shape ih =>
    cases below : unify options (itemKinds kinds) with
    | error cause => simp [below, Except.map] at found
    | ok inner =>
      simp only [below, Except.map, Except.ok.injEq] at found
      exact found ▸ .map shape (ih below)
  | case7 kinds shape => cases found; exact .reference shape
  | case8 kinds shape strict =>
    obtain ⟨lenient, _, _⟩ := conflict_ok found
    simp [strict] at lenient
  | case9 kinds shape lenient => cases found; exact .referenceOrString shape (by simpa using lenient)
  | case10 kinds none boolean string number list map reference mixture =>
    obtain ⟨lenient, degrades, rfl⟩ := conflict_ok found
    refine .fallback ?_ mixture lenient degrades
    -- Of a single category, each has its own case above.
    cases shape : categoriesOf kinds with
    | nil => exact absurd shape none
    | cons first rest =>
      cases rest with
      | nil => cases first <;> contradiction
      | cons second others => simp

/-! ### Mixtures of categories -/

/-- Kinds of at least two categories. -/
def Mixed (kinds : List Kind) : Prop :=
  ∃ first ∈ categoriesOf kinds, ∃ second ∈ categoriesOf kinds, first ≠ second

theorem mixed_of_not_single (none : categoriesOf kinds ≠ [])
    (single : ∀ category, categoriesOf kinds ≠ [category]) : Mixed kinds := by
  have distinct : (categoriesOf kinds).Nodup := SortedSet.nodup_toList _
  unfold Mixed
  cases shape : categoriesOf kinds with
  | nil => exact absurd shape none
  | cons first rest =>
    cases rest with
    | nil => exact absurd shape (single first)
    | cons second others =>
      rw [shape, List.nodup_cons] at distinct
      exact ⟨first, by simp, second, by simp, fun same => distinct.1 (by simp [same])⟩

/-! ### The type fits every kind -/

/-- A kind belongs to a type. A text belongs to a type of references where texts are let pass, and
everything belongs to the type without a usable form. -/
inductive Conforms (loose : Bool) : Kind → FieldType → Prop where
  | boolean : Conforms loose .boolean .boolean
  | string : Conforms loose .string .string
  | number : Conforms loose .number .number
  | list (each : ∀ item ∈ items, Conforms loose item type) : Conforms loose (.list items) (.list type)
  | map (each : ∀ item ∈ items, Conforms loose item type) : Conforms loose (.map items) (.map type)
  | reference (listed : view ∈ views) : Conforms loose (.objectReference view) (.objectReference views)
  | text (passes : loose = true) : Conforms loose .string (.objectReference views)
  | anything : Conforms loose kind .anything

/-- A merge of many containers into one item type never loses a kind: whatever stood in any of them
conforms to the item type that is found for all of them together. -/
theorem derived_conforms (derived : Unifies options kinds unified) (seen : kind ∈ kinds) :
    Conforms unified.isLooselyTyped kind unified.type := by
  induction derived generalizing kind with
  | boolean shape =>
    have category := category_of_shape shape seen
    cases kind <;> simp [Kind.category] at category
    exact .boolean
  | string shape =>
    have category := category_of_shape shape seen
    cases kind <;> simp [Kind.category] at category
    exact .string
  | number shape =>
    have category := category_of_shape shape seen
    cases kind <;> simp [Kind.category] at category
    exact .number
  | list shape inner ih =>
    have category := category_of_shape shape seen
    cases kind <;> simp [Kind.category] at category
    case list items => exact .list fun item held => ih (mem_itemKinds.mpr ⟨_, seen, held⟩)
  | map shape inner ih =>
    have category := category_of_shape shape seen
    cases kind <;> simp [Kind.category] at category
    case map items => exact .map fun item held => ih (mem_itemKinds.mpr ⟨_, seen, held⟩)
  | reference shape =>
    have category := category_of_shape shape seen
    cases kind <;> simp [Kind.category] at category
    exact .reference (mem_referenceTargets.mpr seen)
  | referenceOrString shape lenient =>
    have category := category_of_shape shape seen
    cases kind <;> simp [Kind.category] at category
    · exact .text rfl
    · exact .reference (mem_referenceTargets.mpr seen)
  | fallback mixed apart lenient degrades => exact .anything

/-! ### The type refers to nothing else -/

theorem targets_of_items (held : item ∈ Kind.items kind) (referred : view ∈ item.targets) :
    view ∈ kind.targets := by
  cases kind with
  | list items =>
    simp only [Kind.targets, Kind.targetsOf_eq_flatMap, List.mem_flatMap]
    exact ⟨item, held, referred⟩
  | map items =>
    simp only [Kind.targets, Kind.targetsOf_eq_flatMap, List.mem_flatMap]
    exact ⟨item, held, referred⟩
  | _ => cases held

/-- Flattening the items of containers invents no reference: each one in the type is one of a kind. -/
theorem derived_references (derived : Unifies options kinds unified)
    (referred : view ∈ unified.type.references) : ∃ kind ∈ kinds, view ∈ kind.targets := by
  induction derived with
  | list shape inner ih =>
    obtain ⟨item, held, target⟩ := ih referred
    obtain ⟨kind, seen, within⟩ := mem_itemKinds.mp held
    exact ⟨kind, seen, targets_of_items within target⟩
  | map shape inner ih =>
    obtain ⟨item, held, target⟩ := ih referred
    obtain ⟨kind, seen, within⟩ := mem_itemKinds.mp held
    exact ⟨kind, seen, targets_of_items within target⟩
  | reference shape => exact ⟨_, mem_referenceTargets.mp referred, by simp [Kind.targets]⟩
  | referenceOrString shape lenient =>
    exact ⟨_, mem_referenceTargets.mp referred, by simp [Kind.targets]⟩
  | _ => exact absurd referred SortedSet.not_mem_empty

/-- At most one mixture is tolerated in one field, however deep it stands. -/
theorem derived_loosenings (derived : Unifies options kinds unified) : unified.loosenings.length ≤ 1 := by
  induction derived with
  | list shape inner ih => exact ih
  | map shape inner ih => exact ih
  | _ => simp

/-! ### Only the set of kinds matters -/

private theorem categoriesOf_congr (same : ∀ kind, kind ∈ kinds ↔ kind ∈ others) :
    categoriesOf kinds = categoriesOf others :=
  congrArg SortedSet.toList (SortedSet.ofList_congr fun category => by simp [same])

private theorem referenceTargets_congr (same : ∀ kind, kind ∈ kinds ↔ kind ∈ others) :
    referenceTargets kinds = referenceTargets others := by
  ext view
  rw [mem_referenceTargets, mem_referenceTargets, same]

private theorem sortedNames_congr (same : ∀ kind, kind ∈ kinds ↔ kind ∈ others) :
    Kind.sortedNames kinds = Kind.sortedNames others := by
  simp only [Kind.sortedNames, Kind.namesOf_eq_map]
  exact congrArg SortedSet.toList (SortedSet.ofList_congr fun name => by simp [same])

private theorem itemKinds_congr (same : ∀ kind, kind ∈ kinds ↔ kind ∈ others) (item : Kind) :
    item ∈ itemKinds kinds ↔ item ∈ itemKinds others := by
  simp only [mem_itemKinds, same]

private theorem conflict_congr (same : ∀ kind, kind ∈ kinds ↔ kind ∈ others) :
    conflict options kinds = conflict options others := by
  simp only [conflict, sortedNames_congr same]

/-- The order in which kinds were seen, and how often, is of no consequence for type, tolerated mixtures
and error alike. -/
theorem unify_congr (same : ∀ kind, kind ∈ kinds ↔ kind ∈ others) :
    unify options kinds = unify options others := by
  have shapes := categoriesOf_congr same
  fun_induction unify options kinds generalizing others with
  | case5 kinds shape ih =>
    have below := itemKinds_congr same
    rw [ih below (categoriesOf_congr below), unify_step options others, ← shapes, shape]
  | case6 kinds shape ih =>
    have below := itemKinds_congr same
    rw [ih below (categoriesOf_congr below), unify_step options others, ← shapes, shape]
  | case7 kinds shape => rw [unify_step, ← shapes, shape, referenceTargets_congr same]
  | case8 kinds shape strict =>
    rw [unify_step, ← shapes, shape, conflict_congr same]
    simp only [strict, ↓reduceIte]
  | case9 kinds shape lenient =>
    rw [unify_step, ← shapes, shape, referenceTargets_congr same, sortedNames_congr same]
    simp only [lenient, Bool.false_eq_true, ↓reduceIte]
  | case10 kinds none boolean string number list map reference mixture =>
    rw [unify_step, ← shapes, conflict_congr same]
    split <;> first | contradiction | rfl
  | _ kinds shape => rw [unify_step, ← shapes, shape]

end ViewSchema.UnificationSemantics
