import Mathlib.Data.Finset.Card
import ViewSchema.Proofs.IdentifierGrammar
import ViewSchema.Proofs.RegistryContents
import ViewSchema.Registry.Report

/-! The summary of a run lists everything that was found, once, and nothing else. What has to be found is
written down here from the class of each view and from the kinds that were seen in each of its fields,
without the passes over a registry that collect it. -/
namespace ViewSchema.ReportExactness
open IdentifierGrammar RegistryContents

/-- Against a class stand the first step of its namespace that is no identifier, and then its local name
if that is none. -/
def classFindings (identity : Identity) : List DefinitionError :=
  ((identity.namespaceSegments.filter (¬ Identifier ·)).take 1).map
      (fun segment => .invalidIdentity identity.key identity.fullName (.namespaceSegment segment)) ++
    if Identifier identity.localName then []
    else [.invalidIdentity identity.key identity.fullName (.localName identity.localName)]

/-- Against a field stands one finding if the kinds of its samples come to no type. -/
def fieldFindings (config : Config) (corpus : Corpus) (key : ViewKey) (name : String) :
    List DefinitionError :=
  match unify config.unifyOptions (sampledKinds corpus key name).toList with
  | .ok _ => []
  | .error cause => [.untypedField key name cause]

/-- Against a shared name stands one finding, which lists the other views with the name in ascending
order. -/
def nameFindings (config : Config) (corpus : Corpus) (key : ViewKey) : List DefinitionError :=
  let others := (viewKeys config corpus).toList.filter fun other =>
    other ≠ key ∧ (classOf config corpus other).fullName = (classOf config corpus key).fullName
  if others = [] then [] else [.nameCollision key (classOf config corpus key).fullName others]

def findings (config : Config) (corpus : Corpus) (key : ViewKey) : List DefinitionError :=
  classFindings (classOf config corpus key) ++
    (sampledNames corpus key).toList.flatMap (fieldFindings config corpus key) ++
      nameFindings config corpus key

/-- The mixtures that were tolerated on the way to the type of a field. -/
def toleratedIn (config : Config) (corpus : Corpus) (key : ViewKey) (name : String) : List Warning :=
  match unify config.unifyOptions (sampledKinds corpus key name).toList with
  | .ok unified => unified.loosenings.map (⟨key, name, ·⟩)
  | .error _ => []

/-- Everything that makes a view known, bags of values left out. -/
def knownViews (config : Config) (corpus : Corpus) : List ViewKey :=
  (corpus.views.keys.toList ++ corpus.samples.map Sample.view ++
    corpus.samples.flatMap fun sample => sample.kind.targets).filter (¬ config.isMapTemplate ·)

/-- The field of every sample, bags of values left out. -/
def sampledFields (config : Config) (corpus : Corpus) : List (ViewKey × String) :=
  (corpus.samples.filter fun sample => ¬ config.isMapTemplate sample.view).map fun sample =>
    (sample.view, sample.field)

/-! ### Each pass collects what it has to -/

private theorem identity_errors_eq (identity : Identity) : identity.errors = classFindings identity := by
  have refused : (fun segment => !Text.isIdentifier segment) = fun segment => decide (¬ Identifier segment) := by
    funext segment
    simp only [← isIdentifier_iff, Bool.not_eq_true, Bool.decide_eq_false]
  simp only [Identity.errors, Identity.faults, classFindings, refused, isIdentifier_iff, List.map_append,
    List.take_one, List.head?_filter, ← Option.toList_map]
  split <;> simp [Function.comp_def]

private theorem collisionOf_eq (config : Config) (corpus : Corpus) (key : ViewKey) :
    collisionOf config corpus key = nameFindings config corpus key := by
  have others : namesakesOf config corpus key = (viewKeys config corpus).toList.filter fun other =>
      other ≠ key ∧ (classOf config corpus other).fullName = (classOf config corpus key).fullName := by
    apply List.filter_congr
    intro other _
    rw [Bool.eq_iff_iff]
    simp [and_comm]
  simp only [collisionOf, nameFindings, ← others]
  split
  · next alone => simp [alone]
  · next more => rw [if_neg more]

theorem errors_fieldOf (config : Config) (corpus : Corpus) (key : ViewKey) (name : String) :
    (fieldOf config corpus key name).errors = fieldFindings config corpus key name := by
  rw [fieldFindings, ← outcomeOf_eq_unify]
  rfl

theorem warnings_fieldOf (config : Config) (corpus : Corpus) (key : ViewKey) (name : String) :
    (fieldOf config corpus key name).warnings = toleratedIn config corpus key name := by
  rw [toleratedIn, ← outcomeOf_eq_unify]
  rfl

theorem errors_viewOf (config : Config) (corpus : Corpus) (key : ViewKey) :
    (viewOf config corpus key).errors = findings config corpus key := by
  have ofClass := identity_errors_eq (classOf config corpus key)
  have shared := collisionOf_eq config corpus key
  simp only [viewOf, ownFindings, findings, ofClass, shared, fieldNames_eq_sampledNames, errors_fieldOf]

theorem warningsOf_eq (config : Config) (corpus : Corpus) : warningsOf config corpus = fun key =>
    (sampledNames corpus key).toList.flatMap (toleratedIn config corpus key) := by
  funext key
  simp only [warningsOf, fieldNames_eq_sampledNames, warnings_fieldOf]

/-- Every field of the registry under its view, view by view. -/
def definedFields (config : Config) (corpus : Corpus) : List (ViewKey × String) :=
  (viewKeys config corpus).toList.flatMap fun key =>
    (fieldNames corpus key).toList.map fun name => (key, name)

private theorem definedFields_nodup (config : Config) (corpus : Corpus) :
    (definedFields config corpus).Nodup := by
  refine SortedSet.nodup_flatMap (fun key _ => ?_) ?_
  · exact (SortedSet.nodup_toList _).map fun _ _ same => (Prod.mk.inj same).2
  · intro key other pair held heldAgain
    obtain ⟨name, _, rfl⟩ := List.mem_map.mp held
    obtain ⟨otherName, _, same⟩ := List.mem_map.mp heldAgain
    exact (Prod.mk.inj same).1.symm

private theorem definedFields_toFinset (config : Config) (corpus : Corpus) :
    (definedFields config corpus).toFinset = (sampledFields config corpus).toFinset := by
  ext ⟨key, name⟩
  simp only [List.mem_toFinset, definedFields, sampledFields, List.mem_flatMap, List.mem_map,
    List.mem_filter]
  constructor
  · rintro ⟨_, known, _, named, ⟨⟩⟩
    obtain ⟨sample, seen, rfl, rfl⟩ := mem_fieldNames.mp named
    exact ⟨sample, ⟨seen, by simp [plain_of_mem_viewKeys known]⟩, rfl⟩
  · rintro ⟨sample, ⟨seen, plain⟩, ⟨⟩⟩
    have known := mem_viewKeys_of_sample seen (by simpa using plain)
    exact ⟨_, known, _, mem_fieldNames.mpr ⟨sample, seen, rfl, rfl⟩, rfl⟩

private theorem fields_report (config : Config) (corpus : Corpus) :
    (Registry.build config corpus).report.fields = (sampledFields config corpus).toFinset.card := by
  have counted : (Registry.build config corpus).report.fields = (definedFields config corpus).length := by
    simp only [Registry.report, views_build, SortedMap.values_ofKeys, List.flatMap_map, viewOf,
      List.length_flatMap, List.length_map, definedFields]
  rw [counted, ← definedFields_toFinset, List.toFinset_card_of_nodup (definedFields_nodup config corpus)]

private theorem views_report (config : Config) (corpus : Corpus) :
    (Registry.build config corpus).report.views = (knownViews config corpus).toFinset.card := by
  have counted : (Registry.build config corpus).report.views = (viewKeys config corpus).toList.length := by
    simp only [Registry.report, views_build, SortedMap.size_ofKeys]
  have same : (viewKeys config corpus).toList.toFinset = (knownViews config corpus).toFinset := by
    ext key
    simp [viewKeys, knownViews]
  rw [counted, ← same, List.toFinset_card_of_nodup (SortedSet.nodup_toList _)]

/-- The summary of a run is exact: what was found against the views, view by view in ascending order, with
nothing lost, repeated or moved to another view or field, and how many views and fields there are. -/
theorem report_exact (config : Config) (corpus : Corpus) :
    (Registry.build config corpus).report.errors =
        (viewKeys config corpus).toList.flatMap (findings config corpus) ∧
      (Registry.build config corpus).report.errors.Nodup ∧
      (Registry.build config corpus).report.warnings =
        ((viewKeys config corpus).toList.flatMap fun key =>
          (sampledNames corpus key).toList.flatMap (toleratedIn config corpus key)) ∧
      (Registry.build config corpus).report.warnings.Nodup ∧
      (Registry.build config corpus).report.views = (knownViews config corpus).toFinset.card ∧
      (Registry.build config corpus).report.fields = (sampledFields config corpus).toFinset.card := by
  have errors := errors_build config corpus
  have warnings := warnings_build config corpus
  refine ⟨?_, ?_, ?_, ?_, views_report config corpus, fields_report config corpus⟩
  · simp only [Registry.report, errors, errors_viewOf]
  · simp only [Registry.report, errors]
    refine SortedSet.nodup_flatMap (fun key _ => errors_viewOf_nodup config corpus key) ?_
    intro key other error found foundAgain
    exact (view_of_mem_errors found).symm.trans (view_of_mem_errors foundAgain)
  · simp only [Registry.report, warnings, warningsOf_eq]
  · simp only [Registry.report, warnings]
    refine SortedSet.nodup_flatMap (fun key _ => warningsOf_nodup config corpus key) ?_
    intro key other warning found foundAgain
    exact (view_of_mem_warnings found).symm.trans (view_of_mem_warnings foundAgain)

/-- Samples of two cards with one class name. The title of the first has no type, its link lets a text pass, and
what it links to is in a directory that is no identifier. -/
def cardSamples : List Sample :=
  [{ view := ⟨"a.b/card.hbs"⟩, field := "title", kind := .string },
    { view := ⟨"a.b/card.hbs"⟩, field := "title", kind := .number },
    { view := ⟨"a.b/card.hbs"⟩, field := "link", kind := .string },
    { view := ⟨"a.b/card.hbs"⟩, field := "link", kind := .objectReference ⟨"1/link.hbs"⟩ },
    { view := ⟨"a/b/card.hbs"⟩, field := "title", kind := .string }]

example : (Registry.build {} (.ofSamples cardSamples)).report =
    { views := 3
      fields := 3
      errors :=
        [.invalidIdentity ⟨"1/link.hbs"⟩ "1.LinkView" (.namespaceSegment "1"),
          .untypedField ⟨"a.b/card.hbs"⟩ "title" (.conflictingTypes ["Number", "String"]),
          .nameCollision ⟨"a.b/card.hbs"⟩ "a.b.CardView" [⟨"a/b/card.hbs"⟩],
          .nameCollision ⟨"a/b/card.hbs"⟩ "a.b.CardView" [⟨"a.b/card.hbs"⟩]]
      warnings :=
        [⟨⟨"a.b/card.hbs"⟩, "link", .referenceOrString ["ObjectReference(1/link.hbs)", "String"]⟩] } := by
  decide +kernel

end ViewSchema.ReportExactness
