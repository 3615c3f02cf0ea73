import ViewSchema.Proofs.ExtractionProvenance
import ViewSchema.Proofs.OrderedContainers

/-! One corpus for a whole run, or one for each document and all of them merged: the two ways lead to the same
corpus. A corpus takes an observation in wherever it was merged from, because what is known of a view is
the union of what each corpus knows. So a run can be stopped and gone on with at any document, and what it
had already seen stays in front of what it sees later. -/
namespace ViewSchema.CorpusMerging
open ExtractionProvenance

/-! ### What is known of a view -/

private theorem usage_eq {a b : ViewUsage} (origins : ∀ origin, origin ∈ a.origins ↔ origin ∈ b.origins)
    (notes : ∀ note, note ∈ a.notes ↔ note ∈ b.notes) : a = b := by
  obtain ⟨originsA, notesA⟩ := a
  obtain ⟨originsB, notesB⟩ := b
  rw [ViewUsage.mk.injEq]
  exact ⟨SortedSet.ext origins, SortedSet.ext notes⟩

theorem join_empty (usage : ViewUsage) : usage.join {} = usage :=
  usage_eq (fun _ => SortedSet.mem_union.trans (or_iff_left SortedSet.not_mem_empty))
    fun _ => SortedSet.mem_union.trans (or_iff_left SortedSet.not_mem_empty)

instance : Std.Associative ViewUsage.join where
  assoc _ _ _ := usage_eq (fun _ => by simp only [ViewUsage.join, SortedSet.mem_union, or_assoc])
    fun _ => by simp only [ViewUsage.join, SortedSet.mem_union, or_assoc]

instance : Std.Commutative ViewUsage.join where
  comm _ _ := usage_eq (fun _ => by simp only [ViewUsage.join, SortedSet.mem_union, or_comm])
    fun _ => by simp only [ViewUsage.join, SortedSet.mem_union, or_comm]

theorem withOrigin_join (a b : ViewUsage) (origin : String) :
    (a.join b).withOrigin origin = a.join (b.withOrigin origin) := by
  unfold ViewUsage.withOrigin
  split
  · rfl
  · refine usage_eq (fun other => ?_) fun note => .rfl
    simp only [ViewUsage.join, SortedSet.mem_insert, SortedSet.mem_union]
    exact or_left_comm

theorem withNote_join (a b : ViewUsage) (note : Option String) :
    (a.join b).withNote note = a.join (b.withNote note) := by
  cases note with
  | none => rfl
  | some text =>
    refine usage_eq (fun origin => .rfl) fun other => ?_
    simp only [ViewUsage.withNote, ViewUsage.join, SortedSet.mem_insert, SortedSet.mem_union]
    exact or_left_comm

/-! ### One observation -/

theorem corpus_eq {a b : Corpus} (samples : a.samples = b.samples)
    (usage : ∀ view, a.usage? view = b.usage? view) : a = b := by
  obtain ⟨samplesA, viewsA⟩ := a
  obtain ⟨samplesB, viewsB⟩ := b
  rw [Corpus.mk.injEq]
  exact ⟨samples, SortedMap.ext_get? usage⟩

theorem usage?_recordUsage (corpus : Corpus) (used : ViewKey) (origin : String) (note : Option String)
    (view : ViewKey) : (corpus.recordUsage used origin note).usage? view =
      if view = used then some ((((corpus.usage? used).getD {}).withOrigin origin).withNote note)
      else corpus.usage? view :=
  SortedMap.get?_alter _ _ _ _

theorem usage?_extend (a b : Corpus) (view : ViewKey) :
    (a.extend b).usage? view = Option.merge .join (a.usage? view) (b.usage? view) :=
  SortedMap.get?_merge _ _ _ _

theorem extend_empty (corpus : Corpus) : corpus.extend ∅ = corpus := by
  apply corpus_eq
  · exact List.append_nil _
  · intro view
    have unknown : (∅ : Corpus).usage? view = none := rfl
    rw [usage?_extend, unknown, Option.merge_none_right]

/-- A use is taken in by the merged corpus as the second one takes it in, whichever of the two knows the view. -/
theorem recordUsage_extend (a b : Corpus) (used : ViewKey) (origin : String) (note : Option String) :
    (a.extend b).recordUsage used origin note = a.extend (b.recordUsage used origin note) := by
  apply corpus_eq
  · rfl
  · intro view
    simp only [usage?_recordUsage, usage?_extend]
    split
    · next same =>
      subst same
      cases first : a.usage? view with
      | none => cases b.usage? view <;> rfl
      | some known =>
        have joined : ∀ more : ViewUsage, ((known.join more).withOrigin origin).withNote note =
            known.join ((more.withOrigin origin).withNote note) := fun more => by
          rw [withOrigin_join, withNote_join]
        cases b.usage? view with
        | some more => exact congrArg some (joined more)
        | none =>
          have alone := joined {}
          rw [join_empty] at alone
          exact congrArg some alone
    · rfl

theorem record_extend (a b : Corpus) (observation : Observation) :
    (a.extend b).record observation = a.extend (b.record observation) := by
  cases observation with
  | usage view origin note => exact recordUsage_extend a b view origin note
  | sample sample =>
    have used := recordUsage_extend a b sample.view sample.origin none
    apply corpus_eq
    · exact List.append_assoc _ _ _
    · exact fun view => congrArg (·.usage? view) used

/-! ### Whole documents -/

theorem recordAll_extend (a b : Corpus) (found : List Observation) :
    (a.extend b).recordAll found = a.extend (b.recordAll found) := by
  induction found generalizing b with
  | nil => rfl
  | cons observation rest ih =>
    have step := record_extend a b observation
    rw [Corpus.recordAll, List.foldl_cons, ← Corpus.recordAll, step, ih]
    rfl

/-- To merge in what some observations leave behind is to take them in. -/
theorem extend_recordAll (corpus : Corpus) (found : List Observation) :
    corpus.extend ((∅ : Corpus).recordAll found) = corpus.recordAll found := by
  rw [← recordAll_extend, extend_empty]

theorem recordAll_append (corpus : Corpus) (found more : List Observation) :
    corpus.recordAll (found ++ more) = (corpus.recordAll found).recordAll more :=
  List.foldl_append

/-- A document adds to a corpus what it is worth on its own. -/
theorem extract_eq_extend (config : Config) (corpus : Corpus) (document : Json) (origin : String) :
    corpus.extract config document origin = corpus.extend (.ofDocument config document origin) :=
  (extend_recordAll corpus _).symm

theorem foldl_extract_extend (config : Config) (a b : Corpus) (documents : List (Json × String)) :
    documents.foldl (fun corpus entry => corpus.extract config entry.1 entry.2) (a.extend b) =
      a.extend (documents.foldl (fun corpus entry => corpus.extract config entry.1 entry.2) b) := by
  induction documents generalizing b with
  | nil => rfl
  | cons entry rest ih =>
    have step : (a.extend b).extract config entry.1 entry.2 = a.extend (b.extract config entry.1 entry.2) :=
      recordAll_extend a b _
    rw [List.foldl_cons, List.foldl_cons, step, ih]

/-- An array shows what its items show, item by item. -/
theorem extract_array (config : Config) (corpus : Corpus) (items : List Json) (origin : String) :
    corpus.extract config (.array items) origin =
      items.foldl (fun corpus item => corpus.extract config item origin) corpus := by
  have walked : ∀ items, corpus.extract config (.array items) origin =
      corpus.recordAll (observeItems config origin items) := fun items => by
    rw [Corpus.extract, observations, observe]
  rw [walked]
  clear walked
  induction items generalizing corpus with
  | nil => rfl
  | cons item rest ih =>
    rw [observeItems, recordAll_append, List.foldl_cons]
    exact ih (corpus.extract config item origin)

/-- A corpus that holds all of another one, the samples of the other in front. -/
structure Grows (before after : Corpus) : Prop where
  samples : before.samples <+: after.samples
  usage : ∀ view known, before.usage? view = some known → ∃ later, after.usage? view = some later ∧
    (∀ origin ∈ known.origins, origin ∈ later.origins) ∧ ∀ note ∈ known.notes, note ∈ later.notes

theorem grows_extend (a b : Corpus) : Grows a (a.extend b) := by
  refine ⟨List.prefix_append _ _, fun view known used => ?_⟩
  rw [usage?_extend, used]
  cases b.usage? view with
  | none => exact ⟨known, rfl, fun _ => id, fun _ => id⟩
  | some more =>
    exact ⟨known.join more, rfl, fun _ member => SortedSet.mem_union.mpr (.inl member),
      fun _ member => SortedSet.mem_union.mpr (.inl member)⟩

/-- Extracting documents one after the other is merging what each of them is worth, an array is worth what
its items are, and nothing that was known before is lost or moved. -/
theorem incremental_eq_merged (config : Config) (corpus : Corpus) (documents : List (Json × String)) :
    documents.foldl (fun corpus entry => corpus.extract config entry.1 entry.2) corpus =
        documents.foldl (fun corpus entry => corpus.extend (.ofDocument config entry.1 entry.2)) corpus ∧
      (∀ items origin, corpus.extract config (.array items) origin =
        items.foldl (fun corpus item => corpus.extract config item origin) corpus) ∧
      Grows corpus
        (documents.foldl (fun corpus entry => corpus.extract config entry.1 entry.2) corpus) := by
  refine ⟨?_, extract_array config corpus, ?_⟩
  · have step : (fun (corpus : Corpus) (entry : Json × String) => corpus.extract config entry.1 entry.2) =
        fun corpus entry => corpus.extend (.ofDocument config entry.1 entry.2) := by
      funext corpus entry
      exact extract_eq_extend config corpus entry.1 entry.2
    rw [step]
  · have onto := foldl_extract_extend config corpus ∅ documents
    rw [extend_empty] at onto
    rw [onto]
    exact grows_extend _ _

/-- A teaser for a remarked card, and in a second document two cards. -/
def cardDocuments : List (Json × String) :=
  [(.object [("_template", .string "teaser.hbs"),
      ("card", .object [("_note", .string "A large card."), ("_template", .string "card.hbs"),
        ("title", .string "Welcome")])], "first.json"),
    (.array [.object [("_template", .string "card.hbs"), ("title", .null)],
      .object [("_template", .string "card.hbs"), ("title", .number (.integer 2))]], "second.json")]

/-- The second document comes after the first, and what the two know of a card is joined. -/
example :
    let seen : Corpus := cardDocuments.foldl (fun corpus entry => corpus.extract {} entry.1 entry.2) ∅
    seen.samples.map (fun sample => (sample.view, sample.field, sample.kind, sample.origin)) =
        [(⟨"teaser.hbs"⟩, "card", .objectReference ⟨"card.hbs"⟩, "first.json"),
          (⟨"card.hbs"⟩, "title", .string, "first.json"),
          (⟨"card.hbs"⟩, "title", .number, "second.json")] ∧
      seen.usage? ⟨"teaser.hbs"⟩ = some { origins := .ofList ["first.json"] } ∧
      seen.usage? ⟨"card.hbs"⟩ =
        some { origins := .ofList ["first.json", "second.json"], notes := .ofList ["A large card."] } := by
  decide +kernel

end ViewSchema.CorpusMerging
