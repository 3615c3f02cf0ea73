import ViewSchema.Proofs.ExtractionAccount

/-! A corpus grows in four ways: a sample is pushed, the use of a view is recorded, a document is extracted, and
another corpus is merged in. However these follow one another, and whatever the merged corpora were made of in
turn, a corpus comes to what one list of observations leaves behind. So its samples and its records of the views
stay in step, and merging is an operation on corpora that may be grouped at will. -/
namespace ViewSchema.UsageRecords
open ExtractionProvenance RecordedViews CorpusMerging ExtractionAccount

/-- How a corpus came about. The corpus that is merged into another one came about in the same way. -/
inductive Run where
  | start
  | push (run : Run) (sample : Sample)
  | recordUsage (run : Run) (view : ViewKey) (origin : String) (note : Option String)
  | extract (run : Run) (config : Config) (document : Json) (origin : String)
  | extend (run other : Run)

namespace Run

/-- The corpus that a run ends with. -/
def corpus : Run → Corpus
  | start => ∅
  | push run sample => run.corpus.push sample
  | recordUsage run view origin note => run.corpus.recordUsage view origin note
  | extract run config document origin => run.corpus.extract config document origin
  | extend run other => run.corpus.extend other.corpus

/-- The samples that a run pushed, itself, by extraction or in a corpus that it merged in, in their order. -/
def pushed : Run → List Sample
  | start => []
  | push run sample => run.pushed ++ [sample]
  | recordUsage run _ _ _ => run.pushed
  | extract run config document origin =>
    run.pushed ++ (observations config origin document).filterMap sampleOf?
  | extend run other => run.pushed ++ other.pushed

/-- All that a run took in, as one list. -/
def observed : Run → List Observation
  | start => []
  | push run sample => run.observed ++ [.sample sample]
  | recordUsage run view origin note => run.observed ++ [.usage view origin note]
  | extract run config document origin => run.observed ++ observations config origin document
  | extend run other => run.observed ++ other.observed

end Run

/-- Samples and records of views in step: the view of a sample has a record, which holds the document of the
sample if that is known, and no record holds an unknown document. -/
structure Consistent (corpus : Corpus) : Prop where
  used : ∀ sample ∈ corpus.samples, sample.view ∈ corpus.views.keys
  filed : ∀ sample ∈ corpus.samples, sample.origin ≠ "" →
    ∃ usage, corpus.views.get? sample.view = some usage ∧ sample.origin ∈ usage.origins
  named : ∀ view usage, corpus.views.get? view = some usage → "" ∉ usage.origins

/-! ### A run is worth its observations -/

theorem corpus_eq_recordAll (run : Run) : run.corpus = (∅ : Corpus).recordAll run.observed := by
  induction run with
  | start => rfl
  | push run sample ih => rw [Run.corpus, Run.observed, recordAll_append, ← ih]; rfl
  | recordUsage run view origin note ih => rw [Run.corpus, Run.observed, recordAll_append, ← ih]; rfl
  | extract run config document origin ih => rw [Run.corpus, Run.observed, recordAll_append, ← ih]; rfl
  | extend run other ih ihOther =>
    rw [Run.corpus, Run.observed, recordAll_append, ← ih, ihOther, extend_recordAll]

theorem samples_eq_pushed (run : Run) : run.corpus.samples = run.pushed := by
  induction run with
  | start => rfl
  | push run sample ih => rw [Run.pushed, ← ih]; rfl
  | recordUsage run view origin note ih => exact ih
  | extract run config document origin ih =>
    rw [Run.pushed, ← ih]
    exact samples_extract config run.corpus document origin
  | extend run other ih ihOther => rw [Run.pushed, ← ih, ← ihOther]; rfl

/-! ### What observations leave behind is consistent -/

theorem mem_origins_of_get? (known : (Corpus.recordAll ∅ found).views.get? view = some usage) :
    origin ∈ usage.origins ↔
      ∃ observation ∈ found, usedView observation = view ∧ origin ≠ "" ∧ originOf observation = origin := by
  have same : ExtractionAccount.known (Corpus.recordAll ∅ found) view = usage := by
    rw [ExtractionAccount.known, Corpus.usage?, known, Option.getD_some]
  rw [← same, mem_origins_recordAll]
  exact or_iff_right SortedSet.not_mem_empty

theorem consistent_recordAll (found : List Observation) : Consistent ((∅ : Corpus).recordAll found) := by
  have seen : ∀ sample ∈ ((∅ : Corpus).recordAll found).samples, Observation.sample sample ∈ found := by
    intro sample held
    rw [samples_recordAll] at held
    exact mem_filterMap_sampleOf?.mp held
  have used : ∀ sample ∈ ((∅ : Corpus).recordAll found).samples,
      sample.view ∈ ((∅ : Corpus).recordAll found).views.keys := fun sample held =>
    mem_views_recordAll.mpr (.inr ⟨_, seen sample held, rfl⟩)
  refine ⟨used, fun sample held named => ?_, fun view usage known unnamed => ?_⟩
  · obtain ⟨usage, known⟩ := SortedMap.mem_keys.mp (used sample held)
    exact ⟨usage, known, (mem_origins_of_get? known).mpr ⟨_, seen sample held, rfl, named, rfl⟩⟩
  · obtain ⟨_, _, _, named, _⟩ := (mem_origins_of_get? known).mp unnamed
    exact named rfl

/-! ### Merging -/

theorem extend_assoc (a b c : Corpus) : (a.extend b).extend c = a.extend (b.extend c) := by
  apply corpus_eq
  · exact List.append_assoc _ _ _
  · intro view
    simp only [usage?_extend]
    exact Std.Associative.assoc _ _ _

theorem empty_extend (corpus : Corpus) : (∅ : Corpus).extend corpus = corpus := by
  apply corpus_eq
  · rfl
  · intro view
    have unknown : (∅ : Corpus).usage? view = none := rfl
    rw [usage?_extend, unknown, Option.merge_none_left]

theorem views_extend_comm (a b : Corpus) : (a.extend b).views = (b.extend a).views := by
  apply SortedMap.ext_get?
  intro view
  have merged := fun a b => usage?_extend a b view
  simp only [Corpus.usage?] at merged
  rw [merged, merged]
  exact Std.Commutative.comm _ _

/-- However a corpus came about, its samples are those pushed, in their order, and its records of the views agree
with them. To merge corpora is associative, the empty corpus changes nothing, and the records do not depend on
the order. -/
theorem usage_records_consistent :
    (∀ run : Run, run.corpus.samples = run.pushed ∧ Consistent run.corpus) ∧
      (∀ a b c : Corpus, (a.extend b).extend c = a.extend (b.extend c)) ∧
      (∀ corpus : Corpus, (∅ : Corpus).extend corpus = corpus ∧ corpus.extend ∅ = corpus) ∧
      ∀ a b : Corpus, (a.extend b).views = (b.extend a).views := by
  refine ⟨fun run => ⟨samples_eq_pushed run, ?_⟩, extend_assoc, fun corpus => ?_, views_extend_comm⟩
  · rw [corpus_eq_recordAll]
    exact consistent_recordAll run.observed
  · exact ⟨empty_extend corpus, extend_empty corpus⟩

end ViewSchema.UsageRecords
