import Mathlib.Data.Finset.Card
import ViewSchema.Proofs.IdentifierGrammar
import ViewSchema.Proofs.RegistryContents
import ViewSchema.Registry.Report

/-! When a registry is handed over. The gate looks only at the findings that were collected; what they come
to is said here about the corpus, so that a finding lost on the way would let through a registry that
this module refuses. -/
namespace ViewSchema.HandOffGate
open IdentifierGrammar RegistryContents

/-- What generated code needs of a corpus: a type for each sampled field of a view, a class for each view
that can be written, and no class for two views. -/
structure Releasable (config : Config) (corpus : Corpus) : Prop where
  typed : ∀ sample ∈ corpus.samples, config.isMapTemplate sample.view = false →
    ∃ unified, unify config.unifyOptions (sampledKinds corpus sample.view sample.field).toList = .ok unified
  writable : ∀ key ∈ viewKeys config corpus,
    (∀ segment ∈ (classOf config corpus key).namespaceSegments, Identifier segment) ∧
      Identifier (classOf config corpus key).localName
  distinct : ∀ key ∈ viewKeys config corpus, ∀ other ∈ viewKeys config corpus,
    (classOf config corpus key).fullName = (classOf config corpus other).fullName → key = other

theorem field_errors_eq_nil : (fieldOf config corpus key name).errors = [] ↔
    ∃ unified, unify config.unifyOptions (sampledKinds corpus key name).toList = .ok unified := by
  rw [← outcomeOf_eq_unify]
  unfold FieldDefinition.errors fieldOf
  cases outcome : outcomeOf config corpus key name with
  | error cause => simp
  | ok unified => simp

theorem collisionOf_eq_nil : collisionOf config corpus key = [] ↔
    ∀ other ∈ viewKeys config corpus,
      (classOf config corpus other).fullName = (classOf config corpus key).fullName → other = key := by
  have alone : collisionOf config corpus key = [] ↔ namesakesOf config corpus key = [] := by
    unfold collisionOf
    split <;> simp_all
  rw [alone, namesakesOf, List.filter_eq_nil_iff]
  constructor
  · intro none other known same
    by_contra apart
    exact none other known (by simp [same, apart])
  · intro only other known found
    have found : (classOf config corpus other).fullName = (classOf config corpus key).fullName ∧
        other ≠ key := by simpa using found
    exact found.2 (only other known found.1)

theorem errors_viewOf_eq_nil : (viewOf config corpus key).errors = [] ↔
    (classOf config corpus key).errors = [] ∧
      (∀ name ∈ fieldNames corpus key, (fieldOf config corpus key name).errors = []) ∧
        collisionOf config corpus key = [] := by
  simp only [viewOf, ownFindings, List.append_eq_nil_iff, List.flatMap_eq_nil_iff, and_assoc,
    SortedSet.mem_def]

theorem hasErrors_build : (Registry.build config corpus).hasErrors = false ↔
    ∀ key ∈ viewKeys config corpus, (viewOf config corpus key).errors = [] := by
  simp [Registry.hasErrors, views_build, ViewDefinition.hasErrors, SortedSet.mem_def]

/-- No view has a finding against it exactly if the corpus is fit for generated code. -/
private theorem hasErrors_iff : (Registry.build config corpus).hasErrors = false ↔
    Releasable config corpus := by
  rw [hasErrors_build]
  constructor
  · intro clean
    have parts := fun key known => errors_viewOf_eq_nil.mp (clean key known)
    refine ⟨fun sample seen plain => ?_, fun key known => ?_, fun key known other knownOther same => ?_⟩
    · have known := mem_viewKeys_of_sample seen plain
      have named := mem_fieldNames.mpr ⟨sample, seen, rfl, rfl⟩
      exact field_errors_eq_nil.mp ((parts _ known).2.1 _ named)
    · exact identity_errors_eq_nil.mp (parts key known).1
    · exact collisionOf_eq_nil.mp (parts other knownOther).2.2 key known same
  · intro releasable key known
    refine errors_viewOf_eq_nil.mpr ⟨?_, fun name named => ?_, ?_⟩
    · exact identity_errors_eq_nil.mpr (releasable.writable key known)
    · obtain ⟨sample, seen, rfl, rfl⟩ := mem_fieldNames.mp named
      exact field_errors_eq_nil.mpr (releasable.typed sample seen (plain_of_mem_viewKeys known))
    · exact collisionOf_eq_nil.mpr fun other knownOther same =>
        releasable.distinct other knownOther key known same

/-- The views with findings, in ascending order. -/
def failingViews (config : Config) (corpus : Corpus) : List ViewKey :=
  (viewKeys config corpus).toList.filter fun key => (viewOf config corpus key).hasErrors

theorem mem_failingViews : key ∈ failingViews config corpus ↔
    key ∈ viewKeys config corpus ∧ ∃ error, error ∈ (viewOf config corpus key).errors := by
  have fails : (viewOf config corpus key).hasErrors = true ↔
      ∃ error, error ∈ (viewOf config corpus key).errors := by
    simp [ViewDefinition.hasErrors, List.eq_nil_iff_forall_not_mem]
  rw [failingViews, List.mem_filter, fails]
  rfl

/-- The findings are about no view but the failing ones, and about each of these. -/
private theorem paths_of_findings (config : Config) (corpus : Corpus) :
    ((Registry.build config corpus).report.errors.map (·.view.path)).toFinset =
      ((failingViews config corpus).map ViewKey.path).toFinset := by
  have errors : (Registry.build config corpus).report.errors = _ := errors_build config corpus
  ext path
  simp only [List.mem_toFinset, List.mem_map, errors, List.mem_flatMap, mem_failingViews]
  constructor
  · rintro ⟨error, ⟨key, known, found⟩, rfl⟩
    exact ⟨key, ⟨known, error, found⟩, congrArg ViewKey.path (view_of_mem_errors found).symm⟩
  · rintro ⟨key, ⟨known, error, found⟩, rfl⟩
    exact ⟨error, ⟨key, known, found⟩, congrArg ViewKey.path (view_of_mem_errors found)⟩

private theorem count_failing (config : Config) (corpus : Corpus) :
    ((Registry.build config corpus).views.values.filter ViewDefinition.hasErrors).length =
      ((Registry.build config corpus).report.errors.map (·.view.path)).toFinset.card := by
  have injective : Function.Injective ViewKey.path := by
    intro key other same
    cases key
    cases other
    exact congrArg ViewKey.mk same
  have distinct : (failingViews config corpus).Nodup := (SortedSet.nodup_toList _).filter _
  have counted : ((Registry.build config corpus).views.values.filter ViewDefinition.hasErrors).length =
      (failingViews config corpus).length := by
    simp only [views_build, SortedMap.values_ofKeys, List.filter_map, List.length_map, Function.comp_def,
      failingViews]
  rw [counted, paths_of_findings, List.toFinset_card_of_nodup (distinct.map injective), List.length_map]

/-- The gate lets exactly the fit corpora pass, unchanged. Any other is refused with the number of its
findings and of the views that they are about. -/
theorem validated_iff (config : Config) (corpus : Corpus) :
    ((Registry.build config corpus).validated = .ok (Registry.build config corpus) ↔
        Releasable config corpus) ∧
      ((Registry.build config corpus).validated =
          .error (.validation (Registry.build config corpus).report.errors.length
            ((Registry.build config corpus).report.errors.map (·.view.path)).toFinset.card) ↔
        ¬ Releasable config corpus) := by
  rw [← count_failing, ← hasErrors_iff]
  unfold Registry.validated
  cases (Registry.build config corpus).hasErrors with
  | false => simp
  | true => simp [Registry.report]

end ViewSchema.HandOffGate
