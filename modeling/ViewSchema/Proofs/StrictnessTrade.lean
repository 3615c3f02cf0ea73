import Mathlib.Data.List.Flatten
import ViewSchema.Proofs.RegistryContents

/-! What strictness and the conflict policy decide. Three runs over one corpus are compared: a strict one, a
lenient one that rejects conflicts, and a lenient one that degrades them. Their unifiers take the same steps
down to the first mixture of kinds, so that a mixture is tolerated, or reported, in the same place and in the
same words; leniency only trades errors for warnings. -/
namespace ViewSchema.StrictnessTrade
open UnificationSemantics RegistryContents

/-! ### Three outcomes for the same kinds -/

/-- What a strict, a rejecting and a degrading unifier make of the same kinds, in this order. -/
inductive Traded : (strict rejecting degrading : Except UnifyError Unified) → Prop where
  /-- Nothing to tolerate. -/
  | agreed : Traded (.ok ⟨type, []⟩) (.ok ⟨type, []⟩) (.ok ⟨type, []⟩)
  /-- Nothing that has a type. -/
  | empty : Traded (.error .noValue) (.error .noValue) (.error .noValue)
  /-- Texts in the place of views. -/
  | loosened : Traded (.error (.conflictingTypes kinds)) (.ok ⟨type, [.referenceOrString kinds]⟩)
      (.ok ⟨type, [.referenceOrString kinds]⟩)
  /-- Any other mixture. -/
  | degraded (leaf : type.leaf = .anything) : Traded (.error (.conflictingTypes kinds))
      (.error (.conflictingTypes kinds)) (.ok ⟨type, [.fallback kinds]⟩)

/-- Lists and maps change neither what was tolerated below them nor the leaf. -/
theorem Traded.wrap (traded : Traded strict rejecting degrading) {container : FieldType → FieldType}
    (leaves : ∀ type, (container type).leaf = type.leaf) :
    Traded (strict.map (·.wrap container)) (rejecting.map (·.wrap container))
      (degrading.map (·.wrap container)) := by
  cases traded with
  | agreed => exact .agreed
  | empty => exact .empty
  | loosened => exact .loosened
  | degraded leaf => exact .degraded ((leaves _).trans leaf)

theorem conflict_traded (policy : ConflictPolicy) (kinds : List Kind) :
    Traded (conflict ⟨true, policy⟩ kinds) (conflict ⟨false, .reject⟩ kinds)
      (conflict ⟨false, .degrade⟩ kinds) :=
  .degraded rfl

/-- The three unifiers go down together, whatever the kinds: one level is decided by the categories alone,
and only at the last level do the options have a say. -/
theorem unify_traded (policy : ConflictPolicy) (kinds : List Kind) :
    Traded (unify ⟨true, policy⟩ kinds) (unify ⟨false, .reject⟩ kinds) (unify ⟨false, .degrade⟩ kinds) := by
  fun_induction unify ⟨false, .reject⟩ kinds with
  | case1 kinds shape =>
    simp only [unify_step _ kinds, shape]
    exact .empty
  | case2 kinds shape | case3 kinds shape | case4 kinds shape | case7 kinds shape =>
    simp only [unify_step _ kinds, shape]
    exact .agreed
  | case5 kinds shape ih | case6 kinds shape ih =>
    simp only [unify_step _ kinds, shape]
    exact ih.wrap fun _ => rfl
  | case8 kinds shape strict => cases strict
  | case9 kinds shape lenient =>
    simp only [unify_step _ kinds, shape]
    exact .loosened
  | case10 kinds none boolean string number list map reference mixture =>
    -- No other set of categories is looked at: the mixture is a conflict under all options.
    have mixed : ∀ options, unify options kinds = conflict options kinds := by
      intro options
      rw [unify_step]
      split <;> first | contradiction | rfl
    simp only [mixed]
    exact conflict_traded policy kinds

/-! ### Fields -/

/-- What three runs may differ in at one field. -/
structure FieldTraded (strict rejecting degrading : FieldDefinition) : Prop where
  place : rejecting = { strict with outcome := rejecting.outcome } ∧
    degrading = { strict with outcome := degrading.outcome }
  /-- What is typed under strictness was never in doubt. -/
  strict_typed : ∀ type, strict.type? = some type →
    rejecting.type? = some type ∧ degrading.type? = some type ∧
      strict.warnings = [] ∧ rejecting.warnings = [] ∧ degrading.warnings = []
  rejecting_typed : ∀ type, rejecting.type? = some type →
    degrading.type? = some type ∧ degrading.warnings = rejecting.warnings
  /-- A conflict is found by the strict run as well, and degraded in the same words. -/
  conflicting : ∀ kinds,
    .untypedField rejecting.view rejecting.name (.conflictingTypes kinds) ∈ rejecting.errors →
      strict.errors = rejecting.errors ∧
        ∃ type, degrading.type? = some type ∧ type.leaf = .anything ∧
          degrading.warnings = [⟨degrading.view, degrading.name, .fallback kinds⟩]
  valueless : (.untypedField strict.view strict.name .noValue ∈ strict.errors ↔
        .untypedField rejecting.view rejecting.name .noValue ∈ rejecting.errors) ∧
      (.untypedField rejecting.view rejecting.name .noValue ∈ rejecting.errors ↔
        .untypedField degrading.view degrading.name .noValue ∈ degrading.errors)

section Field
variable {view : ViewKey} {name : String} {samples : List Sample}
  {strict rejecting degrading : Except UnifyError Unified}

theorem Traded.field (traded : Traded strict rejecting degrading) :
    FieldTraded ⟨view, name, samples, strict⟩ ⟨view, name, samples, rejecting⟩
      ⟨view, name, samples, degrading⟩ := by
  cases traded with
  | degraded leaf =>
    refine ⟨⟨rfl, rfl⟩, ?_, ?_, ?_, ?_⟩ <;>
      simp [FieldDefinition.type?, FieldDefinition.warnings, FieldDefinition.errors, Except.toOption, leaf]
  | _ =>
    refine ⟨⟨rfl, rfl⟩, ?_, ?_, ?_, ?_⟩ <;>
      simp [FieldDefinition.type?, FieldDefinition.warnings, FieldDefinition.errors, Except.toOption]

/-- Of the errors of one field, each run has those of the next laxer one, and perhaps one more. -/
theorem Traded.errors (traded : Traded strict rejecting degrading) :
    (FieldDefinition.errors ⟨view, name, samples, degrading⟩).Sublist
        (FieldDefinition.errors ⟨view, name, samples, rejecting⟩) ∧
      (FieldDefinition.errors ⟨view, name, samples, rejecting⟩).Sublist
        (FieldDefinition.errors ⟨view, name, samples, strict⟩) := by
  cases traded with
  | agreed => exact ⟨.refl _, .refl _⟩
  | empty => exact ⟨.refl _, .refl _⟩
  | loosened => exact ⟨.refl _, List.nil_sublist _⟩
  | degraded => exact ⟨List.nil_sublist _, .refl _⟩

end Field

/-! ### Runs over one corpus -/

/-- The settings of a run with other options for unification. -/
def under (base : Config) (options : UnifyOptions) : Config :=
  { base with strict := options.strict, conflictPolicy := options.conflictPolicy }

/-- The registry of a corpus under some options for unification, all else equal. -/
def run (base : Config) (corpus : Corpus) (options : UnifyOptions) : Registry :=
  Registry.build (under base options) corpus

/-- What is known of a view before its fields are typed. -/
structure Outline where
  identity : Identity
  notes : SortedSet String
  origins : SortedSet String
  fieldNames : SortedSet String

def outline (view : ViewDefinition) : Outline := ⟨view.identity, view.notes, view.origins, view.fields.keys⟩

def fieldAt? (registry : Registry) (key : ViewKey) (name : String) : Option FieldDefinition :=
  (registry.get? key).bind (·.field? name)

section Runs
variable {base : Config} {corpus : Corpus}

/-- Which views there are, and what they are called, is settled without a look at the options. -/
theorem viewKeys_under (base : Config) (options : UnifyOptions) :
    viewKeys (under base options) = viewKeys base := rfl

theorem classOf_under (base : Config) (options : UnifyOptions) :
    classOf (under base options) = classOf base := rfl

theorem outlines_run (options : UnifyOptions) :
    ((run base corpus options).views.map fun _ view => outline view) =
      .ofKeys (viewKeys base corpus) fun key => outline (viewOf base corpus key) := by
  rw [run, views_build, SortedMap.map_ofKeys, viewKeys_under]
  simp only [outline, viewOf, SortedMap.keys_ofKeys, classOf_under]

theorem fieldAt?_run (options : UnifyOptions) (key : ViewKey) (name : String) :
    fieldAt? (run base corpus options) key name =
      if key ∈ viewKeys base corpus ∧ name ∈ fieldNames corpus key then
        some (fieldOf (under base options) corpus key name)
      else none := by
  rw [fieldAt?, Registry.get?, run, views_build, SortedMap.get?_ofKeys, viewKeys_under]
  by_cases known : key ∈ viewKeys base corpus
  · simp [known, ViewDefinition.field?, viewOf, SortedMap.get?_ofKeys]
  · simp [known]

theorem fieldOf_traded (policy : ConflictPolicy) (key : ViewKey) (name : String) :
    Traded (fieldOf (under base ⟨true, policy⟩) corpus key name).outcome
      (fieldOf (under base ⟨false, .reject⟩) corpus key name).outcome
      (fieldOf (under base ⟨false, .degrade⟩) corpus key name).outcome :=
  unify_traded policy (kindsSeen corpus key name).toList

/-- Options that find fewer errors in every field find fewer in the whole run, in the same order: the other
findings do not depend on them. -/
theorem errors_sublist {lax firm : UnifyOptions}
    (fields : ∀ key name, (fieldOf (under base lax) corpus key name).errors.Sublist
      (fieldOf (under base firm) corpus key name).errors) :
    (run base corpus lax).errors.Sublist (run base corpus firm).errors := by
  have collisions : collisionOf (under base lax) corpus = collisionOf (under base firm) corpus := rfl
  rw [run, run, errors_build, errors_build, viewKeys_under, viewKeys_under]
  refine List.Sublist.flatMap_right _ fun key _ => ?_
  simp only [viewOf, ownFindings, classOf_under, collisions]
  have ofFields := List.Sublist.flatMap_right (fieldNames corpus key).toList fun name _ => fields key name
  exact ((List.Sublist.refl _).append ofFields).append (.refl _)

end Runs

/-- Strictness and the conflict policy decide about errors and warnings only. -/
theorem strictness_trades (base : Config) (corpus : Corpus) (policy : ConflictPolicy) :
    let strict := run base corpus ⟨true, policy⟩
    let rejecting := run base corpus ⟨false, .reject⟩
    let degrading := run base corpus ⟨false, .degrade⟩
    ((strict.views.map fun _ view => outline view) = (rejecting.views.map fun _ view => outline view) ∧
        (rejecting.views.map fun _ view => outline view) = degrading.views.map fun _ view => outline view) ∧
      (∀ key name field, fieldAt? strict key name = some field →
        ∃ fieldRejecting fieldDegrading, fieldAt? rejecting key name = some fieldRejecting ∧
          fieldAt? degrading key name = some fieldDegrading ∧
          FieldTraded field fieldRejecting fieldDegrading) ∧
      degrading.errors.Sublist rejecting.errors ∧ rejecting.errors.Sublist strict.errors := by
  intro strict rejecting degrading
  refine ⟨⟨?_, ?_⟩, ?_, ?_, ?_⟩
  · rw [outlines_run, outlines_run]
  · rw [outlines_run, outlines_run]
  · intro key name field held
    rw [fieldAt?_run] at held
    split at held
    · next known =>
      cases held
      refine ⟨_, _, ?_, ?_, (fieldOf_traded policy key name).field⟩
      · rw [fieldAt?_run, if_pos known]
        rfl
      · rw [fieldAt?_run, if_pos known]
        rfl
    · cases held
  · exact errors_sublist fun key name => (fieldOf_traded policy key name).errors.1
  · exact errors_sublist fun key name => (fieldOf_traded policy key name).errors.2

/-- Two cards whose titles do not go together, and one of which has a text for a teaser. -/
def mixedCards : Json :=
  .object
    [("cards", .array
      [.object
        [("_template", .string "card.hbs"), ("teaser", .string "soon"), ("title", .string "Welcome")],
       .object
        [("_template", .string "card.hbs"), ("teaser", .object [("_template", .string "teaser.hbs")]),
          ("title", .number (.integer 7))]])]

/-- The strict run refuses both fields, the lenient one the titles, and the degrading one neither. -/
theorem strictness_trades_cards :
    let corpus := Corpus.ofDocument {} mixedCards "page.json"
    (run {} corpus ⟨true, .reject⟩).errors.length = 2 ∧ (run {} corpus ⟨false, .reject⟩).errors.length = 1 ∧
      (run {} corpus ⟨false, .degrade⟩).errors = [] ∧
      ∃ titles type, fieldAt? (run {} corpus ⟨false, .degrade⟩) ⟨"card.hbs"⟩ "title" = some titles ∧
        titles.type? = some type ∧ type.leaf = .anything ∧
        titles.warnings = [⟨titles.view, titles.name, .fallback ["Number", "String"]⟩] := by
  intro corpus
  refine ⟨by decide +kernel, by decide +kernel, by decide +kernel, ?_⟩
  have sampled : (fieldAt? (run {} corpus ⟨true, .reject⟩) ⟨"card.hbs"⟩ "title").isSome := by decide +kernel
  obtain ⟨field, held⟩ := Option.isSome_iff_exists.mp sampled
  obtain ⟨_, fields, _⟩ := strictness_trades {} corpus .reject
  obtain ⟨rejecting, titles, rejected, degraded, traded⟩ := fields _ _ field held
  have refused : (fieldAt? (run {} corpus ⟨false, .reject⟩) ⟨"card.hbs"⟩ "title").map (·.errors) =
      some [.untypedField ⟨"card.hbs"⟩ "title" (.conflictingTypes ["Number", "String"])] := by
    decide +kernel
  rw [rejected, Option.map_some, Option.some.injEq] at refused
  have found : .untypedField ⟨"card.hbs"⟩ "title" (.conflictingTypes ["Number", "String"]) ∈
      rejecting.errors := refused ▸ List.mem_singleton_self _
  obtain ⟨cause, same⟩ := mem_field_errors found
  obtain ⟨_, _, rfl⟩ := DefinitionError.untypedField.inj same
  obtain ⟨_, type, typed, leaf, warned⟩ := traded.conflicting _ (same ▸ found)
  exact ⟨titles, type, degraded, typed, leaf, warned⟩

end ViewSchema.StrictnessTrade
