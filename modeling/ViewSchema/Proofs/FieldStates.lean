import Mathlib.Logic.ExistsUnique
import ViewSchema.Proofs.RegistryContents

/-! What can be said of a field once its samples are unified. A field is typed exactly, typed with one mixture
tolerated, opened to any value, or it has no type; it is in one of these states and never in two. However deep
in lists and maps a mixture stands, it is found once, and it passes through the containers around it
unchanged. -/
namespace ViewSchema.FieldStates
open UnificationSemantics RegistryContents

/-! ### The names of a mixture -/

/-- The names of at least two kinds, each once and in ascending order. -/
structure SeveralNames (names : List String) : Prop where
  several : 2 ≤ names.length
  ascending : names.Pairwise (· < ·)

/-- The name of a kind begins like the name of its category. -/
theorem head?_name (kind : Kind) : kind.name.toList.head? = kind.category.name.toList.head? := by
  -- Unfolded before the cases: the single equations of a mutual definition are costly to make.
  unfold Kind.name
  cases kind <;> simp [Kind.category, Category.name]

theorem category_eq_of_head? {a b : Category} (same : a.name.toList.head? = b.name.toList.head?) : a = b := by
  revert same
  cases a <;> cases b <;> decide

/-- Kinds of different categories have different names, so a mixture of categories shows in the names. -/
theorem sortedNames_several (mixed : Mixed kinds) : SeveralNames (Kind.sortedNames kinds) where
  several := by
    obtain ⟨_, seen, _, seenToo, apart⟩ := mixed
    obtain ⟨kind, held, rfl⟩ := mem_categoriesOf.mp seen
    obtain ⟨other, heldToo, rfl⟩ := mem_categoriesOf.mp seenToo
    have listed : ∀ k ∈ kinds, k.name ∈ Kind.sortedNames kinds := by
      intro k member
      simpa [Kind.sortedNames, Kind.namesOf_eq_map] using ⟨k, member, rfl⟩
    have differ : kind.name ≠ other.name := fun same =>
      apart (category_eq_of_head? (by rw [← head?_name, ← head?_name, same]))
    have first := listed kind held
    have second := listed other heldToo
    rcases names : Kind.sortedNames kinds with _ | ⟨only, _ | ⟨next, more⟩⟩
    · simp [names] at first
    · rw [names, List.mem_singleton] at first second
      exact absurd (first.trans second.symm) differ
    · simp
  ascending := SortedSet.pairwise_lt _

/-! ### What an outcome can be -/

/-- A type occurs in another one: it is that type, or it occurs in its items. -/
inductive Occurs (part : FieldType) : FieldType → Prop where
  | here : Occurs part part
  | list (below : Occurs part item) : Occurs part (.list item)
  | map (below : Occurs part item) : Occurs part (.map item)

/-- The type without a usable form can only stand below all lists and maps. -/
theorem occurs_anything_iff : Occurs .anything type ↔ type.leaf = .anything := by
  induction type with
  | anything => simp [FieldType.leaf, Occurs.here]
  | list item ih =>
    rw [FieldType.leaf, ← ih]
    exact ⟨fun | .list below => below, .list⟩
  | map item ih =>
    rw [FieldType.leaf, ← ih]
    exact ⟨fun | .map below => below, .map⟩
  | _ =>
    simp only [FieldType.leaf, reduceCtorEq, iff_false]
    rintro ⟨⟩

/-- Where the type refers to views, it refers to at least one. -/
def ReferencesFilled (type : FieldType) : Prop :=
  ∀ views, type.leaf = .objectReference views → ∃ view, view ∈ views

/-- What unification can come to. -/
inductive Settled (options : UnifyOptions) : Except UnifyError Unified → Prop where
  | exact (usable : type.leaf ≠ .anything) (filled : ReferencesFilled type) :
      Settled options (.ok ⟨type, []⟩)
  | loose (leaf : type.leaf = .objectReference views) (filled : ReferencesFilled type)
      (mixture : SeveralNames names) (lenient : options.strict = false) :
      Settled options (.ok ⟨type, [.referenceOrString names]⟩)
  | fallback (leaf : type.leaf = .anything) (mixture : SeveralNames names)
      (lenient : options.strict = false) (degrades : options.conflictPolicy = .degrade) :
      Settled options (.ok ⟨type, [.fallback names]⟩)
  | valueless : Settled options (.error .noValue)
  | conflicting (mixture : SeveralNames names) : Settled options (.error (.conflictingTypes names))

/-- A container changes neither the leaf nor what was tolerated below it. -/
theorem Settled.wrap (settled : Settled options outcome) {container : FieldType → FieldType}
    (leaves : ∀ type, (container type).leaf = type.leaf) :
    Settled options (outcome.map (·.wrap container)) := by
  have filledToo : ∀ {type}, ReferencesFilled type → ReferencesFilled (container type) :=
    fun filled views leaf => filled views ((leaves _).symm.trans leaf)
  cases settled with
  | exact usable filled => exact .exact (fun same => usable ((leaves _).symm.trans same)) (filledToo filled)
  | loose leaf filled mixture lenient =>
    exact .loose ((leaves _).trans leaf) (filledToo filled) mixture lenient
  | fallback leaf mixture lenient degrades => exact .fallback ((leaves _).trans leaf) mixture lenient degrades
  | valueless => exact .valueless
  | conflicting mixture => exact .conflicting mixture

theorem conflict_settled (options : UnifyOptions) (mixed : Mixed kinds) :
    Settled options (conflict options kinds) := by
  have mixture := sortedNames_several mixed
  unfold conflict
  split
  · next tolerated =>
    simp only [Bool.and_eq_true, Bool.not_eq_true', beq_iff_eq] at tolerated
    exact .fallback rfl mixture tolerated.1 tolerated.2
  · exact .conflicting mixture

theorem referenceTargets_filled (seen : .objectReference ∈ categoriesOf kinds) :
    ReferencesFilled (.objectReference (referenceTargets kinds)) := by
  rintro views ⟨⟩
  obtain ⟨kind, held, category⟩ := mem_categoriesOf.mp seen
  cases kind with
  | objectReference view => exact ⟨view, mem_referenceTargets.mpr held⟩
  | _ => cases category

/-- Every unification settles, by induction on the levels of lists and maps that the kinds have in common. -/
theorem unify_settled (options : UnifyOptions) (kinds : List Kind) :
    Settled options (unify options kinds) := by
  fun_induction unify options kinds with
  | case1 => exact .valueless
  | case2 | case3 | case4 => exact .exact (by simp [FieldType.leaf]) (by rintro _ ⟨⟩)
  | case5 kinds shape ih | case6 kinds shape ih => exact ih.wrap fun _ => rfl
  | case7 kinds shape =>
    exact .exact (by simp [FieldType.leaf]) (referenceTargets_filled (shape ▸ List.mem_singleton_self _))
  | case8 kinds shape strict =>
    have mixed : Mixed kinds := ⟨.string, by simp [shape], .objectReference, by simp [shape], by decide⟩
    exact conflict_settled options mixed
  | case9 kinds shape lenient =>
    have mixed : Mixed kinds := ⟨.string, by simp [shape], .objectReference, by simp [shape], by decide⟩
    exact .loose rfl (referenceTargets_filled (by simp [shape])) (sortedNames_several mixed)
      (by simpa using lenient)
  | case10 kinds none boolean string number list map reference mixture =>
    refine conflict_settled options (mixed_of_not_single none fun category => ?_)
    cases category <;> assumption

/-! ### The states of a field -/

inductive FieldState where
  /-- A type that the samples leave no doubt about. -/
  | exact
  /-- A type of references, with texts let pass. -/
  | loose
  /-- A type that any value has, below some lists and maps. -/
  | fallback
  /-- No type. -/
  | failed
  deriving DecidableEq

/-- What is to be seen of a field in a state. -/
def InState (options : UnifyOptions) (field : FieldDefinition) : FieldState → Prop
  | .exact => (∃ type, field.type? = some type ∧ ¬ Occurs .anything type) ∧
      field.errors = [] ∧ field.warnings = [] ∧ field.looselyTyped = false
  | .loose => (∃ type views, field.type? = some type ∧ type.leaf = .objectReference views) ∧
      field.errors = [] ∧ (∃ names, field.warnings = [⟨field.view, field.name, .referenceOrString names⟩]) ∧
      field.looselyTyped = true ∧ options.strict = false
  | .fallback => (∃ type, field.type? = some type ∧ type.leaf = .anything) ∧
      field.errors = [] ∧ (∃ names, field.warnings = [⟨field.view, field.name, .fallback names⟩]) ∧
      field.looselyTyped = false ∧ options.strict = false ∧ options.conflictPolicy = .degrade
  | .failed => field.type? = none ∧ (∃ error, field.errors = [error]) ∧ field.warnings = [] ∧
      field.looselyTyped = false

/-- The state that the findings of a field tell. -/
def stateOf (field : FieldDefinition) : FieldState :=
  match field.errors, field.warnings with
  | _ :: _, _ => .failed
  | [], [] => .exact
  | [], ⟨_, _, .referenceOrString _⟩ :: _ => .loose
  | [], ⟨_, _, .fallback _⟩ :: _ => .fallback

/-- No field is in two states: its findings tell which one it is in. -/
theorem eq_stateOf (is : InState options field state) : state = stateOf field := by
  cases state with
  | exact =>
    obtain ⟨-, noErrors, noWarnings, -⟩ := is
    simp [stateOf, noErrors, noWarnings]
  | loose =>
    obtain ⟨-, noErrors, ⟨names, warned⟩, -⟩ := is
    simp [stateOf, noErrors, warned]
  | fallback =>
    obtain ⟨-, noErrors, ⟨names, warned⟩, -⟩ := is
    simp [stateOf, noErrors, warned]
  | failed =>
    obtain ⟨-, ⟨error, found⟩, -⟩ := is
    simp [stateOf, found]

/-- The names of the kinds in a mixture that was tolerated. -/
def mixedNames : Loosening → List String
  | .referenceOrString names => names
  | .fallback names => names

/-- What holds of a field in every state. -/
structure Sound (view : ViewKey) (name : String) (field : FieldDefinition) : Prop where
  references : ∀ type, field.type? = some type → ReferencesFilled type
  conflicts : ∀ accused place names,
    .untypedField accused place (.conflictingTypes names) ∈ field.errors → SeveralNames names
  mixtures : ∀ warning ∈ field.warnings, SeveralNames (mixedNames warning.loosening)
  errorPlaces : ∀ error ∈ field.errors, error.view = view ∧ error.field? = some name
  warningPlaces : ∀ warning ∈ field.warnings, warning.view = view ∧ warning.field = name

section Outcomes
variable {view : ViewKey} {name : String} {samples : List Sample} {options : UnifyOptions}
  {outcome : Except UnifyError Unified}

theorem Settled.inState (settled : Settled options outcome) :
    ∃ state, InState options ⟨view, name, samples, outcome⟩ state := by
  cases settled with
  | exact usable filled => exact ⟨.exact, ⟨_, rfl, mt occurs_anything_iff.mp usable⟩, rfl, rfl, rfl⟩
  | loose leaf filled mixture lenient => exact ⟨.loose, ⟨_, _, rfl, leaf⟩, rfl, ⟨_, rfl⟩, rfl, lenient⟩
  | fallback leaf mixture lenient degrades =>
    exact ⟨.fallback, ⟨_, rfl, leaf⟩, rfl, ⟨_, rfl⟩, rfl, lenient, degrades⟩
  | valueless => exact ⟨.failed, rfl, ⟨_, rfl⟩, rfl, rfl⟩
  | conflicting mixture => exact ⟨.failed, rfl, ⟨_, rfl⟩, rfl, rfl⟩

theorem Settled.sound (settled : Settled options outcome) :
    Sound view name ⟨view, name, samples, outcome⟩ where
  references type typed := by
    cases settled with
    | exact usable filled =>
      cases typed
      exact filled
    | loose leaf filled mixture lenient =>
      cases typed
      exact filled
    | fallback leaf mixture lenient degrades =>
      cases typed
      intro views refers
      cases leaf.symm.trans refers
    | _ => cases typed
  conflicts _ _ _ found := by
    cases settled with
    | valueless => cases List.mem_singleton.mp found
    | conflicting mixture =>
      cases List.mem_singleton.mp found
      exact mixture
    | _ => cases found
  mixtures _ warned := by
    cases settled with
    | loose leaf filled mixture lenient =>
      obtain rfl := List.mem_singleton.mp warned
      exact mixture
    | fallback leaf mixture lenient degrades =>
      obtain rfl := List.mem_singleton.mp warned
      exact mixture
    | _ => cases warned
  errorPlaces _ found := by
    obtain ⟨cause, rfl⟩ := mem_field_errors found
    exact ⟨rfl, rfl⟩
  warningPlaces _ warned := mem_field_warnings warned

end Outcomes

/-- A field with samples is in exactly one state, and its findings are in order whichever it is. -/
theorem field_state_unique (options : UnifyOptions) (view : ViewKey) (name : String) {samples : List Sample}
    (seen : samples ≠ []) :
    ∃ field, FieldDefinition.ofSamples? options view name samples = some field ∧
      (∃! state, InState options field state) ∧ Sound view name field := by
  have settled := unify_settled options (samples.map Sample.kind)
  refine ⟨_, if_neg (by simpa using seen), ?_, settled.sound⟩
  obtain ⟨state, is⟩ := settled.inState
  exact ⟨state, is, fun other also => (eq_stateOf also).trans (eq_stateOf is).symm⟩

/-- Links of a page that were seen in two lists: texts in one, a tile and a text in the other. -/
def linkSamples : List Sample :=
  [{ view := ⟨"page.hbs"⟩, field := "links", kind := .list [.string] },
    { view := ⟨"page.hbs"⟩, field := "links", kind := .list [.string, .objectReference ⟨"tile.hbs"⟩] }]

/-- The links are loosely typed, and in no other state, though the mixture stands inside the lists. -/
theorem field_state_unique_links :
    linkSamples ≠ [] ∧
      ∃ field, FieldDefinition.ofSamples? {} ⟨"page.hbs"⟩ "links" linkSamples = some field ∧
        (∀ state, InState {} field state ↔ state = .loose) ∧ Sound ⟨"page.hbs"⟩ "links" field := by
  have seen : linkSamples ≠ [] := List.cons_ne_nil _ _
  obtain ⟨field, found, ⟨state, is, only⟩, sound⟩ := field_state_unique {} ⟨"page.hbs"⟩ "links" seen
  have told : (FieldDefinition.ofSamples? {} ⟨"page.hbs"⟩ "links" linkSamples).map stateOf = some .loose := by
    decide +kernel
  have loose : state = .loose := (eq_stateOf is).trans (by simpa [found] using told)
  subst loose
  exact ⟨seen, field, found, fun other => ⟨only other, fun same => same ▸ is⟩, sound⟩

end ViewSchema.FieldStates
