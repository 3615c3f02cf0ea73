import ViewSchema.Extraction
import ViewSchema.Proofs.JsonStructure

/-! Where samples come from. A walk records a sample only for a member of an instance that it stands on,
with the member's own value and the kind of that value, and a corpus holds exactly the samples of its
documents in the order of the walk. -/
namespace ViewSchema.ExtractionProvenance
open JsonStructure

/-! ### The corpus of some documents -/

/-- The sample that an observation adds to a corpus, if it adds one. -/
def sampleOf? : Observation → Option Sample
  | .usage _ _ _ => none
  | .sample sample => some sample

/-- The corpus of a list of documents, each with its origin. -/
def corpusOf (config : Config) (documents : List (Json × String)) : Corpus :=
  documents.foldl (fun corpus entry => corpus.extract config entry.1 entry.2) ∅

theorem samples_recordAll (corpus : Corpus) (observations : List Observation) :
    (corpus.recordAll observations).samples = corpus.samples ++ observations.filterMap sampleOf? := by
  induction observations generalizing corpus with
  | nil => simp [Corpus.recordAll]
  | cons observation rest ih =>
    have step : (corpus.record observation).samples =
        corpus.samples ++ (sampleOf? observation).toList := by
      cases observation with
      | usage view origin note => simp [Corpus.record, Corpus.recordUsage, sampleOf?]
      | sample sample => simp [Corpus.record, Corpus.push, Corpus.recordUsage, sampleOf?]
    have later := ih (corpus.record observation)
    rw [Corpus.recordAll, List.foldl_cons, ← Corpus.recordAll, later, step]
    cases added : sampleOf? observation <;> simp [added]

theorem samples_extract (config : Config) (corpus : Corpus) (document : Json) (origin : String) :
    (corpus.extract config document origin).samples =
      corpus.samples ++ (observations config origin document).filterMap sampleOf? :=
  samples_recordAll corpus _

/-- The samples of a corpus are those of its documents, document by document. -/
theorem samples_corpusOf (config : Config) (documents : List (Json × String)) :
    (corpusOf config documents).samples =
      documents.flatMap fun entry => (observations config entry.2 entry.1).filterMap sampleOf? := by
  suffices onto : ∀ corpus : Corpus,
      (documents.foldl (fun corpus entry => corpus.extract config entry.1 entry.2) corpus).samples =
        corpus.samples ++
          documents.flatMap fun entry => (observations config entry.2 entry.1).filterMap sampleOf? from
    onto ∅
  induction documents with
  | nil => simp
  | cons entry rest ih =>
    intro corpus
    rw [List.foldl_cons, ih, samples_extract, List.append_assoc, List.flatMap_cons]

theorem mem_filterMap_sampleOf? {found : List Observation} :
    sample ∈ found.filterMap sampleOf? ↔ Observation.sample sample ∈ found := by
  rw [List.mem_filterMap]
  constructor
  · rintro ⟨observation, member, added⟩
    cases observation with
    | usage view origin note => cases added
    | sample other =>
      cases added
      exact member
  · intro member
    exact ⟨_, member, rfl⟩

theorem mem_samples_corpusOf : sample ∈ (corpusOf config documents).samples ↔
    ∃ entry ∈ documents, Observation.sample sample ∈ observations config entry.2 entry.1 := by
  simp only [samples_corpusOf, List.mem_flatMap, mem_filterMap_sampleOf?]

/-! ### What a walk records -/

theorem mem_observeItems : observation ∈ observeItems config origin items ↔
    ∃ item ∈ items, observation ∈ observe config origin false item := by
  induction items with
  | nil => simp [observeItems]
  | cons item rest ih => simp [observeItems, ih]

theorem observeMembers_eq_flatMap (config : Config) (origin : String) (members : List (String × Json)) :
    observeMembers config origin members = members.flatMap fun member =>
      if isMetaKey member.1 then [] else observe config origin false member.2 := by
  induction members with
  | nil => rfl
  | cons member rest ih => rw [observeMembers, ih, List.flatMap_cons]

theorem mem_observeMembers : observation ∈ observeMembers config origin members ↔
    ∃ key value, (key, value) ∈ members ∧ isMetaKey key = false ∧
      observation ∈ observe config origin false value := by
  rw [observeMembers_eq_flatMap]
  exact mem_flatMap_plain fun _ value => observe config origin false value

theorem observeFields_eq_flatMap (config : Config) (origin : String) (view : ViewKey)
    (whole members : List (String × Json)) :
    observeFields config origin view whole members = members.flatMap fun member =>
      if isMetaKey member.1 then []
      else
        ((fieldSample? config origin view whole member.1 member.2).map Observation.sample).toList ++
          observe config origin (config.isMapField member.1) member.2 := by
  induction members with
  | nil => rfl
  | cons member rest ih => rw [observeFields, ih, List.flatMap_cons]

theorem mem_observeFields : observation ∈ observeFields config origin view whole members ↔
    ∃ field value, (field, value) ∈ members ∧ isMetaKey field = false ∧
      ((∃ sample, fieldSample? config origin view whole field value = some sample ∧
          .sample sample = observation) ∨
        observation ∈ observe config origin (config.isMapField field) value) := by
  rw [observeFields_eq_flatMap]
  refine (mem_flatMap_plain fun field value =>
    ((fieldSample? config origin view whole field value).map Observation.sample).toList ++
      observe config origin (config.isMapField field) value).trans ?_
  simp only [List.mem_append, Option.mem_toList, Option.map_eq_some_iff]

/-! ### Every sample is one of its payload -/

/-- The kind of a sample is the one that its field and its payload decide. -/
def Classified (config : Config) (sample : Sample) : Prop :=
  classifyField config sample.field sample.payload = some sample.kind

private theorem fieldSample_classified
    (found : fieldSample? config origin view whole field value = some sample) :
    Classified config sample := by
  obtain ⟨kind, classified, rfl⟩ := Option.map_eq_some_iff.mp found
  exact classified

/-- A walk records no sample whose kind is not that of its payload, in whatever role it meets an object. -/
theorem observed_classified (seen : Observation.sample sample ∈ observe config origin asBag value) :
    Classified config sample := by
  induction value using Json.induction generalizing asBag with
  | array items ih =>
    obtain ⟨item, held, below⟩ := mem_observeItems.mp seen
    exact ih item held below
  | object members ih =>
    simp only [observe] at seen
    split at seen
    · next view named =>
      obtain ⟨field, value, held, plain, ⟨found, sampled, same⟩ | below⟩ :=
        mem_observeFields.mp (List.mem_of_ne_of_mem (by simp) seen)
      · cases same
        exact fieldSample_classified sampled
      · exact ih field value held below
    · obtain ⟨key, value, held, plain, below⟩ := mem_observeMembers.mp seen
      exact ih key value held below
  | _ => simp [observe] at seen

theorem corpusOf_classified (seen : sample ∈ (corpusOf config documents).samples) :
    Classified config sample := by
  obtain ⟨entry, _, observed⟩ := mem_samples_corpusOf.mp seen
  exact observed_classified observed

end ViewSchema.ExtractionProvenance
