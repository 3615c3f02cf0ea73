import Mathlib.Data.List.Forall2
import ViewSchema.Proofs.CorpusMerging
import ViewSchema.Proofs.LocatedObservations

/-! What extraction makes of a document, in terms of the document. The positions at which the walk takes an object
for an instance are listed once each; for every field of these instances there is one sample, and there are
no others; and the views that are known, with their origins and notes, are those of the instances. -/
namespace ViewSchema.ExtractionAccount
open JsonStructure JsonPositions ExtractionProvenance RecordedViews LocatedObservations

/-! ### What is known of a view -/

/-- What a corpus knows of a view. Of a view that was never used it knows nothing. -/
def known (corpus : Corpus) (view : ViewKey) : ViewUsage := (corpus.usage? view).getD {}

def originOf : Observation → String
  | .usage _ origin _ => origin
  | .sample sample => sample.origin

def noteOf? : Observation → Option String
  | .usage _ _ note => note
  | .sample _ => none

theorem mem_withOrigin {usage : ViewUsage} :
    other ∈ (usage.withOrigin origin).origins ↔ other ∈ usage.origins ∨ other ≠ "" ∧ origin = other := by
  unfold ViewUsage.withOrigin
  split
  · next unknown =>
    have empty : origin = "" := String.isEmpty_iff.mp unknown
    refine (or_iff_left ?_).symm
    rintro ⟨named, rfl⟩
    exact named empty
  · next known =>
    rw [SortedSet.mem_insert, or_comm, eq_comm]
    refine or_congr_right (and_iff_right_of_imp ?_).symm
    rintro rfl rfl
    exact known rfl

theorem mem_withNote {usage : ViewUsage} :
    other ∈ (usage.withNote note).notes ↔ other ∈ usage.notes ∨ note = some other := by
  cases note with
  | none => simp [ViewUsage.withNote]
  | some text => rw [ViewUsage.withNote, SortedSet.mem_insert, or_comm, eq_comm, Option.some.injEq]

@[simp] theorem origins_withNote (usage : ViewUsage) (note : Option String) :
    (usage.withNote note).origins = usage.origins := by
  cases note <;> rfl

@[simp] theorem notes_withOrigin (usage : ViewUsage) (origin : String) :
    (usage.withOrigin origin).notes = usage.notes := by
  unfold ViewUsage.withOrigin
  split <;> rfl

theorem known_record (corpus : Corpus) (observation : Observation) (view : ViewKey) :
    known (corpus.record observation) view =
      if view = usedView observation then
        ((known corpus view).withOrigin (originOf observation)).withNote (noteOf? observation)
      else known corpus view := by
  have recorded : (corpus.record observation).usage? view =
      (corpus.recordUsage (usedView observation) (originOf observation) (noteOf? observation)).usage? view := by
    cases observation <;> rfl
  rw [known, recorded, CorpusMerging.usage?_recordUsage]
  split
  · next same => rw [same, Option.getD_some, known]
  · rfl

/-- What every observation may add to what is known, a run of observations adds if one of them does. -/
private theorem known_recordAll (told : ViewUsage → Prop) {tells : Observation → Prop}
    (step : ∀ corpus observation,
      told (known (corpus.record observation) view) ↔ told (known corpus view) ∨ tells observation)
    (corpus : Corpus) (found : List Observation) : told (known (corpus.recordAll found) view) ↔
      told (known corpus view) ∨ ∃ observation ∈ found, tells observation := by
  induction found generalizing corpus with
  | nil => simp [Corpus.recordAll]
  | cons observation rest ih =>
    rw [Corpus.recordAll, List.foldl_cons, ← Corpus.recordAll, ih, step, or_assoc]
    simp only [List.mem_cons, exists_eq_or_imp]

theorem mem_origins_recordAll (corpus : Corpus) (found : List Observation) :
    origin ∈ (known (corpus.recordAll found) view).origins ↔ origin ∈ (known corpus view).origins ∨
      ∃ observation ∈ found, usedView observation = view ∧ origin ≠ "" ∧ originOf observation = origin := by
  refine known_recordAll (origin ∈ ·.origins) (fun corpus observation => ?_) corpus found
  rw [known_record]
  split
  · next same => rw [origins_withNote, mem_withOrigin, and_iff_right same.symm]
  · next other => exact (or_iff_left fun added => other added.1.symm).symm

theorem mem_notes_recordAll (corpus : Corpus) (found : List Observation) :
    note ∈ (known (corpus.recordAll found) view).notes ↔ note ∈ (known corpus view).notes ∨
      ∃ observation ∈ found, usedView observation = view ∧ noteOf? observation = some note := by
  refine known_recordAll (note ∈ ·.notes) (fun corpus observation => ?_) corpus found
  rw [known_record]
  split
  · next same => rw [mem_withNote, notes_withOrigin, and_iff_right same.symm]
  · next other => exact (or_iff_left fun added => other added.1.symm).symm

/-! ### What objects remark -/

theorem text?_eq_some {value : Json} : value.text? = some text ↔ value = .string text := by
  cases value <;> simp [Json.text?]

theorem members?_eq_some {value : Json} : value.members? = some members ↔ value = .object members := by
  cases value <;> simp [Json.members?]

theorem viewNote?_eq_some :
    viewNote? members = some text ↔ Json.member? members "_note" = some (.string text) := by
  simp only [viewNote?, noteKey, Option.bind_eq_bind, Option.bind_eq_some_iff, text?_eq_some, exists_eq_right]

theorem fieldNote?_eq_some : fieldNote? members key = some text ↔
    ∃ notes, Json.member? members "_fieldNotes" = some (.object notes) ∧
      Json.member? notes key = some (.string text) := by
  simp only [fieldNote?, fieldNotesKey, Option.bind_eq_bind, Option.bind_eq_some_iff, text?_eq_some,
    members?_eq_some, exists_eq_right]
  grind

/-! ### Instances and samples by position -/

/-- The position of an instance, where an observation says that it is one. -/
def usedAt? : Position × Observation → Option Position
  | (position, .usage _ _ _) => some position
  | (_, .sample _) => none

/-- The sample of an observation, with the position of its instance. -/
def sampledAt? (entry : Position × Observation) : Option (Position × Sample) :=
  (sampleOf? entry.2).map (entry.1, ·)

/-- The positions at which the walk takes an object for an instance. -/
def instances (config : Config) (document : Json) (origin : String) : List Position :=
  (located config origin ⟨false, document⟩).filterMap usedAt?

/-- The samples of a document, with the positions of their instances. -/
def sampled (config : Config) (document : Json) (origin : String) : List (Position × Sample) :=
  (located config origin ⟨false, document⟩).filterMap sampledAt?

theorem mem_instances : position ∈ instances config document origin ↔ ∃ members view,
    Reaches config origin ⟨false, document⟩ position ⟨false, .object members⟩ ∧
      instanceKey? config members = some view := by
  simp only [instances, List.mem_filterMap, Prod.exists, mem_located]
  constructor
  · rintro ⟨position, observation, ⟨last, path, shown⟩, used⟩
    cases shown with
    | usage named =>
      cases used
      exact ⟨_, _, path, named⟩
    | sample => cases used
  · rintro ⟨members, view, path, named⟩
    exact ⟨position, _, ⟨_, path, .usage named⟩, rfl⟩

theorem mem_sampled : (position, sample) ∈ sampled config document origin ↔ ∃ members view key value,
    Reaches config origin ⟨false, document⟩ position ⟨false, .object members⟩ ∧
      instanceKey? config members = some view ∧ (key, value) ∈ members ∧ isMetaKey key = false ∧
      fieldSample? config origin view members key value = some sample := by
  simp only [sampled, List.mem_filterMap, Prod.exists, mem_located, sampledAt?, Option.map_eq_some_iff]
  constructor
  · rintro ⟨position, observation, ⟨last, path, shown⟩, _, recorded, ⟨⟩⟩
    cases shown with
    | usage named => cases recorded
    | sample named held plain found =>
      cases recorded
      exact ⟨_, _, _, _, path, named, held, plain, found⟩
  · rintro ⟨members, view, key, value, path, named, held, plain, found⟩
    exact ⟨position, _, ⟨_, path, .sample named held plain found⟩, sample, rfl, rfl⟩

/-- The samples of a corpus, in their order. -/
theorem samples_ofDocument (config : Config) (document : Json) (origin : String) :
    (Corpus.ofDocument config document origin).samples = (sampled config document origin).map Prod.snd := by
  have walked : observations config origin document = (located config origin ⟨false, document⟩).map Prod.snd :=
    (located_observations config origin ⟨false, document⟩).symm
  rw [Corpus.ofDocument, samples_extract, walked, List.filterMap_map, sampled, List.map_filterMap]
  refine (List.nil_append _).trans (congrArg (List.filterMap · _) ?_)
  funext entry
  cases recorded : sampleOf? entry.2 <;> simp [sampledAt?, recorded]

theorem instances_nodup (distinct : DistinctKeys document) : (instances config document origin).Nodup := by
  refine List.pairwise_filterMap.mpr ((located_apart config origin ⟨false, document⟩ distinct).imp ?_)
  intro first second apart p usedFirst q usedSecond same
  obtain ⟨_, _ | _⟩ := first <;> cases usedFirst
  obtain ⟨_, _ | _⟩ := second <;> cases usedSecond
  exact apart (Prod.ext same rfl)

theorem fields_nodup (distinct : DistinctKeys document) :
    ((sampled config document origin).map fun entry => (entry.1, entry.2.field)).Nodup := by
  refine List.pairwise_map.mpr (List.pairwise_filterMap.mpr ?_)
  refine (located_apart config origin ⟨false, document⟩ distinct).imp ?_
  intro first second apart p sampledFirst q sampledSecond same
  obtain ⟨sample, recorded, rfl⟩ := Option.map_eq_some_iff.mp sampledFirst
  obtain ⟨other, recordedToo, rfl⟩ := Option.map_eq_some_iff.mp sampledSecond
  obtain ⟨here, field⟩ := Prod.mk.inj same
  refine apart (Prod.ext here ?_)
  simp only [subject, recorded, recordedToo]
  exact congrArg some field

/-! ### The instances and fields of the document -/

/-- An object that names the view and stands at the position, below arrays and plain keys alone. -/
structure InstanceAt (config : Config) (document : Json) (position : Position) (members : List (String × Json))
    (view : ViewKey) : Prop where
  found : at? document position = some (.object members)
  plain : Plain position
  named : instanceKey? config members = some view

/-- The sample of a field, the field being given by the position of its instance and by its key. -/
structure SampleOf (config : Config) (document : Json) (origin : String) (field : Position × String)
    (sample : Sample) : Prop where
  payload : ∃ members, InstanceAt config document field.1 members sample.view ∧
    Json.member? members field.2 = some sample.payload ∧
      ∀ text, sample.note = some text ↔ ∃ notes, Json.member? members "_fieldNotes" = some (.object notes) ∧
        Json.member? notes field.2 = some (.string text)
  key : sample.field = field.2
  kind : classifyField config field.2 sample.payload = some sample.kind
  origin : sample.origin = origin

theorem instanceAt_of_reached (distinct : DistinctKeys document)
    (path : Reaches config origin ⟨false, document⟩ position ⟨false, .object members⟩)
    (named : instanceKey? config members = some view) :
    InstanceAt config document position members view ∧ (members.map Prod.fst).Nodup := by
  obtain ⟨found, plain, inside⟩ := found_of_reached path distinct
  exact ⟨⟨found, plain, named⟩, inside.keys⟩

/-- The object at the position of an instance is the one that the walk came to. -/
theorem reached_of_listed (distinct : DistinctKeys document) (listed : position ∈ instances config document origin)
    (there : at? document position = some (.object members)) : ∃ view, instanceKey? config members = some view ∧
      Reaches config origin ⟨false, document⟩ position ⟨false, .object members⟩ := by
  obtain ⟨others, view, path, named⟩ := mem_instances.mp listed
  obtain ⟨found, _⟩ := found_of_reached path distinct
  cases found.symm.trans there
  exact ⟨view, named, path⟩

/-- Every sample is that of the field it is listed for. -/
theorem sampleOf_sampled (distinct : DistinctKeys document)
    (listed : (position, sample) ∈ sampled config document origin) :
    SampleOf config document origin (position, sample.field) sample := by
  obtain ⟨members, view, key, value, path, named, held, plain, found⟩ := mem_sampled.mp listed
  obtain ⟨stands, keys⟩ := instanceAt_of_reached distinct path named
  obtain ⟨kind, classified, rfl⟩ := Option.map_eq_some_iff.mp found
  exact ⟨⟨members, stands, member?_of_mem keys held, fun text => fieldNote?_eq_some⟩, rfl, classified, rfl⟩

/-- The fields that are listed are those of the instances, but for nulls. -/
theorem mem_fields (distinct : DistinctKeys document) :
    (position, key) ∈ (sampled config document origin).map (fun entry => (entry.1, entry.2.field)) ↔
      position ∈ instances config document origin ∧ isMetaKey key = false ∧ ∃ members value,
        at? document position = some (.object members) ∧ Json.member? members key = some value ∧
          value ≠ .null := by
  simp only [List.mem_map, Prod.exists, Prod.mk.injEq]
  constructor
  · rintro ⟨position, sample, listed, rfl, rfl⟩
    obtain ⟨members, view, key, value, path, named, held, plain, found⟩ := mem_sampled.mp listed
    obtain ⟨stands, keys⟩ := instanceAt_of_reached distinct path named
    obtain ⟨kind, classified, rfl⟩ := Option.map_eq_some_iff.mp found
    refine ⟨mem_instances.mpr ⟨members, view, path, named⟩, plain, members, value, stands.found,
      member?_of_mem keys held, ?_⟩
    rintro rfl
    cases classified
  · rintro ⟨listed, plain, members, value, there, looked, observed⟩
    obtain ⟨view, named, path⟩ := reached_of_listed distinct listed there
    obtain ⟨kind, classified⟩ := kindOf_of_ne_null config (config.isMapField key) observed
    have found : fieldSample? config origin view members key value =
        some ⟨view, key, kind, value, origin, fieldNote? members key⟩ :=
      Option.map_eq_some_iff.mpr ⟨kind, classified, rfl⟩
    have recorded := mem_sampled.mpr ⟨members, view, key, value, path, named, mem_of_member? looked, plain, found⟩
    exact ⟨position, _, recorded, rfl, rfl⟩

/-! ### The views of the document -/

/-- The observations of a view are about instances that name it. -/
theorem shown_instance (shown : Shown config origin last observation) : ∃ members,
    last = ⟨false, .object members⟩ ∧ instanceKey? config members = some (usedView observation) ∧
      originOf observation = origin ∧ ∀ text, noteOf? observation = some text → viewNote? members = some text := by
  cases shown with
  | usage named => exact ⟨_, rfl, named, rfl, fun _ => id⟩
  | sample named held plain found =>
    obtain ⟨kind, classified, rfl⟩ := Option.map_eq_some_iff.mp found
    exact ⟨_, rfl, named, rfl, nofun⟩

theorem observed_iff : observation ∈ observations config origin document ↔ ∃ position last,
    Reaches config origin ⟨false, document⟩ position last ∧ Shown config origin last observation := by
  rw [observations, ← located_observations config origin ⟨false, document⟩]
  simp only [List.mem_map, Prod.exists, exists_eq_right, mem_located]

theorem observed_view_iff : view ∈ (Corpus.ofDocument config document origin).views.keys ↔
    ∃ observation ∈ observations config origin document, usedView observation = view :=
  mem_views_recordAll.trans (or_iff_right SortedSet.not_mem_empty)

/-- The views of a corpus are those that the instances of the document name. -/
theorem mem_views (distinct : DistinctKeys document) :
    view ∈ (Corpus.ofDocument config document origin).views.keys ↔
      ∃ position ∈ instances config document origin, ∃ members,
        InstanceAt config document position members view := by
  rw [observed_view_iff]
  constructor
  · rintro ⟨observation, seen, rfl⟩
    obtain ⟨position, last, path, shown⟩ := observed_iff.mp seen
    obtain ⟨members, rfl, named, _⟩ := shown_instance shown
    exact ⟨position, mem_instances.mpr ⟨members, _, path, named⟩, members,
      (instanceAt_of_reached distinct path named).1⟩
  · rintro ⟨position, listed, members, stands⟩
    obtain ⟨_, _, path⟩ := reached_of_listed distinct listed stands.found
    exact ⟨_, observed_iff.mpr ⟨position, _, path, .usage stands.named⟩, rfl⟩

private theorem known_ofDocument (found : (Corpus.ofDocument config document origin).usage? view = some usage) :
    known ((∅ : Corpus).recordAll (observations config origin document)) view = usage := by
  have looked : ((∅ : Corpus).recordAll (observations config origin document)).usage? view = some usage := found
  rw [known, looked, Option.getD_some]

theorem originOf_observed (seen : observation ∈ observations config origin document) :
    originOf observation = origin := by
  obtain ⟨position, last, path, shown⟩ := observed_iff.mp seen
  obtain ⟨members, _, _, same, _⟩ := shown_instance shown
  exact same

/-- A view is known from the one origin that a document has, unless that is unknown. -/
theorem mem_origins (found : (Corpus.ofDocument config document origin).usage? view = some usage) :
    other ∈ usage.origins ↔ other = origin ∧ origin ≠ "" := by
  rw [← known_ofDocument found, mem_origins_recordAll]
  refine (or_iff_right SortedSet.not_mem_empty).trans ?_
  constructor
  · rintro ⟨observation, seen, _, named, rfl⟩
    have same := originOf_observed seen
    exact ⟨same, same ▸ named⟩
  · rintro ⟨rfl, named⟩
    have used : view ∈ (Corpus.ofDocument config document other).views.keys :=
      SortedMap.mem_keys.mpr ⟨usage, found⟩
    obtain ⟨observation, seen, rfl⟩ := observed_view_iff.mp used
    exact ⟨observation, seen, rfl, named, originOf_observed seen⟩

/-- A view is known with the notes of its instances. -/
theorem mem_notes (distinct : DistinctKeys document)
    (found : (Corpus.ofDocument config document origin).usage? view = some usage) :
    note ∈ usage.notes ↔ ∃ position ∈ instances config document origin, ∃ members,
      InstanceAt config document position members view ∧ Json.member? members "_note" = some (.string note) := by
  rw [← known_ofDocument found, mem_notes_recordAll]
  refine (or_iff_right SortedSet.not_mem_empty).trans ?_
  constructor
  · rintro ⟨observation, seen, rfl, noted⟩
    obtain ⟨position, last, path, shown⟩ := observed_iff.mp seen
    obtain ⟨members, rfl, named, _, notes⟩ := shown_instance shown
    exact ⟨position, mem_instances.mpr ⟨members, _, path, named⟩, members,
      (instanceAt_of_reached distinct path named).1, viewNote?_eq_some.mp (notes note noted)⟩
  · rintro ⟨position, listed, members, stands, noted⟩
    obtain ⟨_, _, path⟩ := reached_of_listed distinct listed stands.found
    exact ⟨_, observed_iff.mpr ⟨position, _, path, .usage stands.named⟩, rfl,
      viewNote?_eq_some.mpr noted⟩

/-! ### The account of a document -/

/-- The corpus of a document, in terms of the instances in the document and of their fields. -/
structure Account (config : Config) (document : Json) (origin : String) (instances : List Position)
    (fields : List (Position × String)) : Prop where
  instances_nodup : instances.Nodup
  /-- Only objects that name a view are instances. -/
  sound : ∀ position ∈ instances, ∃ members view, InstanceAt config document position members view
  /-- Every object that names a view is an instance, unless it is the value of a map key. -/
  complete : ∀ position members view, InstanceAt config document position members view →
    ¬ UnderMapKey config position → position ∈ instances
  fields_nodup : fields.Nodup
  /-- The fields are those of the instances that have a value. -/
  fields_exact : ∀ position key, (position, key) ∈ fields ↔
    position ∈ instances ∧ isMetaKey key = false ∧ ∃ members value,
      at? document position = some (.object members) ∧ Json.member? members key = some value ∧ value ≠ .null
  /-- The samples are those of the fields, one for each. -/
  samples : List.Forall₂ (SampleOf config document origin) fields (Corpus.ofDocument config document origin).samples
  views : ∀ view, view ∈ (Corpus.ofDocument config document origin).views.keys ↔
    ∃ position ∈ instances, ∃ members, InstanceAt config document position members view
  usage : ∀ view usage, (Corpus.ofDocument config document origin).usage? view = some usage →
    (∀ other, other ∈ usage.origins ↔ other = origin ∧ origin ≠ "") ∧
      ∀ note, note ∈ usage.notes ↔ ∃ position ∈ instances, ∃ members,
        InstanceAt config document position members view ∧ Json.member? members "_note" = some (.string note)

/-- Extraction loses nothing and records nothing twice: its corpus is told by the instances in the document. Only
of the values of map keys it is left open whether they are among these. -/
theorem extraction_accounted (config : Config) (origin : String) (distinct : DistinctKeys document) :
    ∃ instances fields, Account config document origin instances fields := by
  refine ⟨instances config document origin,
    (sampled config document origin).map fun entry => (entry.1, entry.2.field), ?_⟩
  exact {
    instances_nodup := instances_nodup distinct
    sound := by
      intro position listed
      obtain ⟨members, view, path, named⟩ := mem_instances.mp listed
      exact ⟨members, view, (instanceAt_of_reached distinct path named).1⟩
    complete := by
      intro position members view stands outside
      obtain ⟨role, path, bag⟩ := reached_of_found config origin false stands.found stands.plain
      cases role with
      | false => exact mem_instances.mpr ⟨members, view, path, stands.named⟩
      | true => exact absurd ((bag rfl).resolve_left nofun) outside
    fields_nodup := fields_nodup distinct
    fields_exact := fun position key => mem_fields distinct
    samples := by
      rw [samples_ofDocument, List.forall₂_map_left_iff, List.forall₂_map_right_iff, List.forall₂_same]
      rintro ⟨position, sample⟩ listed
      exact sampleOf_sampled distinct listed
    views := fun view => mem_views distinct
    usage := fun view usage found => ⟨fun other => mem_origins found, fun note => mem_notes distinct found⟩
  }

/-- A page with a tile in a bag in its second row. -/
def startPage : Json := .object [("_note", .string "The start page."), ("_template", .string "page.hbs"),
  ("rows", .array [.null, .object [("left", .object [("_view", .string "tile.hbs"), ("title", .string "News")])]])]

/-- The tile is an instance, and its title is a field of it. -/
theorem startPage_accounted : DistinctKeys startPage ∧
    ∃ instances fields, Account {} startPage "start.json" instances fields ∧
      ([.member "rows", .item 1, .member "left"], "title") ∈ fields := by
  have ordered : startPage.canonical = startPage := rfl
  have distinct : DistinctKeys startPage := ordered ▸ canonical_distinctKeys startPage
  obtain ⟨instances, fields, account⟩ := extraction_accounted {} "start.json" distinct
  have plain : Plain [.member "rows", .item 1, .member "left"] :=
    plain_cons_member.mpr ⟨by decide, plain_cons_item.mpr (plain_cons_member.mpr ⟨by decide, plain_nil⟩)⟩
  have tile : InstanceAt {} startPage [.member "rows", .item 1, .member "left"]
      [("_view", .string "tile.hbs"), ("title", .string "News")] ⟨"tile.hbs"⟩ :=
    ⟨rfl, plain, by decide +kernel⟩
  have outside : ¬ UnderMapKey {} [.member "rows", .item 1, .member "left"] := by
    rintro ⟨key, last, mapKey⟩
    cases last
    exact absurd mapKey (by decide +kernel)
  have listed := account.complete _ _ _ tile outside
  exact ⟨distinct, instances, fields, account,
    (account.fields_exact _ _).mpr ⟨listed, by decide, _, _, tile.found, rfl, nofun⟩⟩

end ViewSchema.ExtractionAccount
