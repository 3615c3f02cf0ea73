import Mathlib.Data.List.Perm.Basic
import ViewSchema.Proofs.RegistryContents

/-! Where the samples of a corpus end up. A run could file them in one pass, with a place for each view that gets a
definition and in it a place for each field name: a sample goes behind the others of its field, and one whose
view has no place is left out. A finished registry holds what that pass files. So every sample that a view
can own is owned by one field, none is lost or filed twice, and no view is touched by the samples of another. -/
namespace ViewSchema.SampleFiling
open RegistryContents

/-! ### The views that get a definition -/

/-- A kind refers to a view, at any depth. -/
inductive Refers : Kind → ViewKey → Prop where
  | itself (view : ViewKey) : Refers (.objectReference view) view
  | inside {kind item : Kind} (held : item ∈ kind.items) (deeper : Refers item view) : Refers kind view

mutual

private theorem refers_of_target : {kind : Kind} → view ∈ kind.targets → Refers kind view
  | .objectReference own, listed => List.mem_singleton.mp listed ▸ .itself own
  | .list items, listed =>
    have ⟨_, held, deeper⟩ := refers_of_targetOf items listed
    .inside held deeper
  | .map items, listed =>
    have ⟨_, held, deeper⟩ := refers_of_targetOf items listed
    .inside held deeper

private theorem refers_of_targetOf : (items : List Kind) → view ∈ Kind.targetsOf items →
    ∃ item ∈ items, Refers item view
  | item :: rest, listed => by
    rcases List.mem_append.mp listed with own | later
    · exact ⟨item, List.mem_cons_self, refers_of_target own⟩
    · obtain ⟨other, held, deeper⟩ := refers_of_targetOf rest later
      exact ⟨other, List.mem_cons_of_mem _ held, deeper⟩

end

/-- The targets of a kind are listed from all depths, and from nowhere else. -/
theorem mem_targets_iff : view ∈ kind.targets ↔ Refers kind view := by
  refine ⟨refers_of_target, fun refers => ?_⟩
  induction refers with
  | itself view => exact List.mem_singleton_self view
  | @inside view kind item held deeper ih =>
    have listed : view ∈ Kind.targetsOf kind.items := by
      rw [Kind.targetsOf_eq_flatMap]
      exact List.mem_flatMap.mpr ⟨item, held, ih⟩
    cases kind with
    | list items => exact listed
    | map items => exact listed
    | _ => cases held

/-- The corpus knows of a view: the view was used, it has a sample, or a sample refers to it. -/
def Known (corpus : Corpus) (key : ViewKey) : Prop :=
  key ∈ corpus.views.keys ∨ ∃ sample ∈ corpus.samples, sample.view = key ∨ Refers sample.kind key

theorem mem_viewKeys_iff :
    key ∈ viewKeys config corpus ↔ Known corpus key ∧ config.isMapTemplate key = false := by
  simp only [mem_viewKeys, Known, mem_targets_iff]

/-! ### Filing in one pass -/

/-- The samples of one view, by field. -/
abbrev Folders := SortedMap String (List Sample)

/-- A sample put behind the others of its field. -/
def put (folders : Folders) (sample : Sample) : Folders :=
  folders.alter sample.field fun held => held.getD [] ++ [sample]

/-- A sample put where its view and its field say, or left out if its view has no place. -/
def file (files : SortedMap ViewKey Folders) (sample : Sample) : SortedMap ViewKey Folders :=
  match files.get? sample.view with
  | none => files
  | some folders => files.insert sample.view (put folders sample)

/-- The samples of a corpus, filed one after the other, with a place for each view that gets a definition. -/
def filed (config : Config) (corpus : Corpus) : SortedMap ViewKey Folders :=
  corpus.samples.foldl file (.ofKeys (viewKeys config corpus) fun _ => .empty)

/-- One sample changes the place of its own view only. -/
theorem get?_file (files : SortedMap ViewKey Folders) (sample : Sample) (key : ViewKey) :
    (file files sample).get? key =
      (files.get? key).map fun folders => if sample.view = key then put folders sample else folders := by
  unfold file
  by_cases own : sample.view = key
  · subst own
    cases place : files.get? sample.view with
    | none => simp [place]
    | some folders => simp [SortedMap.get?_insert]
  · have other : key ≠ sample.view := Ne.symm own
    cases files.get? sample.view with
    | none => simp [own]
    | some folders => simp [SortedMap.get?_insert, own, other]

/-- A pass puts the samples of a view into its place in their order, and no others. -/
theorem get?_foldl_file (samples : List Sample) (files : SortedMap ViewKey Folders) (key : ViewKey) :
    (samples.foldl file files).get? key =
      (files.get? key).map fun folders => (samples.filter (·.view == key)).foldl put folders := by
  induction samples generalizing files with
  | nil => simp
  | cons sample rest ih =>
    rw [List.foldl_cons, ih, get?_file, Option.map_map]
    congr 1
    funext folders
    by_cases own : sample.view = key
    · simp [own]
    · simp [own]

/-- A pass over the samples of one view puts those of a field behind what the field had. -/
theorem get?_foldl_put (samples : List Sample) (folders : Folders) (name : String) :
    (samples.foldl put folders).get? name =
      if samples.filter (·.field == name) = [] then folders.get? name
      else some ((folders.get? name).getD [] ++ samples.filter (·.field == name)) := by
  induction samples generalizing folders with
  | nil => simp
  | cons sample rest ih =>
    have step : (put folders sample).get? name =
        if name = sample.field then some ((folders.get? sample.field).getD [] ++ [sample])
        else folders.get? name :=
      SortedMap.get?_alter _ _ _ _
    rw [List.foldl_cons, ih, step]
    by_cases own : sample.field = name
    · subst own
      by_cases last : rest.filter (·.field == sample.field) = []
      · simp [last]
      · simp [last]
    · have other : name ≠ sample.field := Ne.symm own
      simp [own, other]

theorem mem_fieldNames_iff : name ∈ fieldNames corpus key ↔ fieldSamples corpus key name ≠ [] := by
  rw [mem_fieldNames, Ne, List.eq_nil_iff_forall_not_mem]
  simp [mem_fieldSamples]

theorem fieldSamples_eq (corpus : Corpus) (key : ViewKey) (name : String) :
    fieldSamples corpus key name = (corpus.samples.filter (·.view == key)).filter (·.field == name) := by
  rw [List.filter_filter, fieldSamples]
  exact List.filter_congr fun sample _ => Bool.and_comm _ _

/-- What the fields of a registry hold, by view and by field. -/
def holdings (registry : Registry) : SortedMap ViewKey Folders :=
  registry.views.map fun _ view => view.fields.map fun _ field => field.samples

/-- A run files its samples as one pass over them does. -/
theorem holdings_build (config : Config) (corpus : Corpus) :
    holdings (Registry.build config corpus) = filed config corpus := by
  have folders : ∀ key, (viewOf config corpus key).fields.map (fun _ field => field.samples) =
      (corpus.samples.filter (·.view == key)).foldl put .empty := by
    intro key
    apply SortedMap.ext_get?
    intro name
    have absent : (SortedMap.empty : Folders).get? name = none := rfl
    have held : ((viewOf config corpus key).fields.map fun _ field => field.samples).get? name =
        if name ∈ fieldNames corpus key then some (fieldSamples corpus key name) else none := by
      rw [viewOf, SortedMap.map_ofKeys, SortedMap.get?_ofKeys]
      rfl
    rw [held, get?_foldl_put, ← fieldSamples_eq, absent]
    by_cases sampled : fieldSamples corpus key name = []
    · simp [mem_fieldNames_iff, sampled]
    · simp [mem_fieldNames_iff, sampled]
  apply SortedMap.ext_get?
  intro key
  rw [holdings, views_build, SortedMap.map_ofKeys, SortedMap.get?_ofKeys, filed, get?_foldl_file,
    SortedMap.get?_ofKeys]
  split
  · exact congrArg some (folders key)
  · rfl

/-! ### Nothing is lost and nothing is filed twice -/

/-- Sorting a list into groups by distinct labels keeps every occurrence of what has one of the labels. -/
private theorem flatMap_filter_perm [DecidableEq β] (label : α → β) {labels : List β} (distinct : labels.Nodup)
    (l : List α) :
    (labels.flatMap fun b => l.filter (label · == b)).Perm (l.filter (label · ∈ labels)) := by
  induction labels with
  | nil => simp
  | cons b rest ih =>
    obtain ⟨fresh, distinctRest⟩ := List.nodup_cons.mp distinct
    have first : (l.filter (label · ∈ b :: rest)).filter (label · == b) = l.filter (label · == b) := by
      rw [List.filter_filter]
      refine List.filter_congr fun x _ => ?_
      by_cases own : label x = b <;> simp [own]
    have others : (l.filter (label · ∈ b :: rest)).filter (!label · == b) = l.filter (label · ∈ rest) := by
      rw [List.filter_filter]
      refine List.filter_congr fun x _ => ?_
      by_cases own : label x = b
      · simp [own, fresh]
      · simp [own]
    have split := List.filter_append_perm (label · == b) (l.filter (label · ∈ b :: rest))
    rw [first, others] at split
    rw [List.flatMap_cons]
    exact ((List.Perm.refl _).append (ih distinctRest)).trans split

/-- The fields of a view together hold the samples of the view. -/
private theorem samples_of_view (config : Config) (corpus : Corpus) (key : ViewKey) :
    ((viewOf config corpus key).fields.values.flatMap FieldDefinition.samples).Perm
      (corpus.samples.filter (·.view == key)) := by
  have named : (corpus.samples.filter (·.view == key)).filter (·.field ∈ (fieldNames corpus key).toList) =
      corpus.samples.filter (·.view == key) := by
    refine List.filter_eq_self.mpr fun sample held => ?_
    obtain ⟨seen, own⟩ := List.mem_filter.mp held
    exact decide_eq_true (mem_fieldNames.mpr ⟨sample, seen, by simpa using own, rfl⟩)
  have groups := flatMap_filter_perm Sample.field (SortedSet.nodup_toList (fieldNames corpus key))
    (corpus.samples.filter (·.view == key))
  rw [named] at groups
  simp only [viewOf, SortedMap.values_ofKeys, List.flatMap_map, fieldOf, fieldSamples_eq]
  exact groups

/-- The fields of all views together hold the samples of all views but the bags, each as often as it was seen. -/
theorem samples_build (config : Config) (corpus : Corpus) :
    ((Registry.build config corpus).views.values.flatMap fun view =>
        view.fields.values.flatMap FieldDefinition.samples).Perm
      (corpus.samples.filter (!config.isMapTemplate ·.view)) := by
  have known : corpus.samples.filter (·.view ∈ (viewKeys config corpus).toList) =
      corpus.samples.filter (!config.isMapTemplate ·.view) := by
    refine List.filter_congr fun sample seen => ?_
    cases bag : config.isMapTemplate sample.view with
    | false => exact decide_eq_true (mem_viewKeys_of_sample seen bag)
    | true =>
      refine decide_eq_false fun listed => ?_
      rw [plain_of_mem_viewKeys listed] at bag
      cases bag
  have groups := flatMap_filter_perm Sample.view (SortedSet.nodup_toList (viewKeys config corpus))
    corpus.samples
  rw [known] at groups
  rw [views_build, SortedMap.values_ofKeys, List.flatMap_map]
  exact (List.Perm.flatMap_left _ fun key _ => samples_of_view config corpus key).trans groups

/-! ### Fields and their samples -/

theorem get?_build_eq_some : (Registry.build config corpus).get? key = some view ↔
    key ∈ viewKeys config corpus ∧ viewOf config corpus key = view := by
  rw [get?_build, Option.ite_none_right_eq_some, Option.some.injEq]

theorem field?_viewOf_eq_some : (viewOf config corpus key).field? name = some field ↔
    name ∈ fieldNames corpus key ∧ fieldOf config corpus key name = field := by
  rw [field?_viewOf, Option.ite_none_right_eq_some, Option.some.injEq]

/-- The registry has a field, under the key of a view and the name of the field. -/
def FieldAt (registry : Registry) (key : ViewKey) (name : String) (field : FieldDefinition) : Prop :=
  ∃ view, registry.get? key = some view ∧ view.field? name = some field

theorem fieldAt_build : FieldAt (Registry.build config corpus) key name field ↔
    key ∈ viewKeys config corpus ∧ name ∈ fieldNames corpus key ∧ fieldOf config corpus key name = field := by
  simp only [FieldAt, get?_build_eq_some, and_assoc, exists_and_left, exists_eq_left', field?_viewOf_eq_some]

/-- A view's fields are made of its own samples. -/
theorem fields_viewOf_congr {other : Corpus}
    (same : other.samples.filter (·.view == key) = corpus.samples.filter (·.view == key)) :
    (viewOf config other key).fields = (viewOf config corpus key).fields := by
  have names : fieldNames other key = fieldNames corpus key := by rw [fieldNames, fieldNames, same]
  have samples : ∀ name, fieldSamples other key name = fieldSamples corpus key name := by
    intro name
    rw [fieldSamples_eq, fieldSamples_eq, same]
  have fields : fieldOf config other key = fieldOf config corpus key := by
    funext name
    simp only [fieldOf, outcomeOf, kindsSeen, samples]
  rw [viewOf, viewOf, names, fields]

/-- What becomes of the samples of a corpus in a registry. -/
structure FilesSamples (config : Config) (corpus : Corpus) (registry : Registry) : Prop where
  /-- There is one definition for each view key of the corpus. -/
  keyed : registry.views.keys = viewKeys config corpus
  /-- A view has a definition if the corpus knows of it, unless its instances are bags. -/
  defined : ∀ key, (∃ view, registry.get? key = some view) ↔
    Known corpus key ∧ config.isMapTemplate key = false
  /-- Definitions stand under their own keys, and fields under their own names. -/
  own : ∀ key view, registry.get? key = some view → view.key = key ∧
    ∀ name field, view.field? name = some field → field.view = key ∧ field.name = name
  /-- A view has the fields that it has samples of. -/
  named : ∀ key view, registry.get? key = some view → ∀ name,
    (∃ field, view.field? name = some field) ↔
      ∃ sample ∈ corpus.samples, sample.view = key ∧ sample.field = name
  /-- A field has the samples of its view and its name, in the order in which they were seen. -/
  samples : ∀ key name field, FieldAt registry key name field →
    field.samples = corpus.samples.filter fun sample => sample.view = key ∧ sample.field = name
  /-- A sample is owned by one field, unless it is of a bag. -/
  owned : ∀ sample ∈ corpus.samples, config.isMapTemplate sample.view = false →
    ∃! place : ViewKey × String, ∃ field, FieldAt registry place.1 place.2 field ∧ sample ∈ field.samples
  /-- No field owns a sample of a bag. -/
  leftOut : ∀ sample, config.isMapTemplate sample.view = true →
    ∀ key name field, FieldAt registry key name field → sample ∉ field.samples
  /-- Repeated samples are all kept, and none is held twice. -/
  once : (registry.views.values.flatMap fun view =>
      view.fields.values.flatMap FieldDefinition.samples).Perm
    (corpus.samples.filter (!config.isMapTemplate ·.view))
  /-- The fields hold what a single pass over the samples files. -/
  onePass : holdings registry = filed config corpus
  /-- A corpus with the same samples of a view makes the same fields of them, whatever else it holds. -/
  apart : ∀ (other : Corpus) key view otherView,
    other.samples.filter (·.view == key) = corpus.samples.filter (·.view == key) →
      registry.get? key = some view → (Registry.build config other).get? key = some otherView →
        otherView.fields = view.fields

/-- A run files every sample under its view and its field, in order, and owns it there and nowhere else. -/
theorem build_files_samples (config : Config) (corpus : Corpus) :
    FilesSamples config corpus (Registry.build config corpus) := by
  constructor
  case keyed => rw [views_build, SortedMap.keys_ofKeys]
  case defined =>
    intro key
    simp only [get?_build_eq_some, exists_and_left, exists_eq', and_true, mem_viewKeys_iff]
  case own =>
    intro key view found
    obtain ⟨known, rfl⟩ := get?_build_eq_some.mp found
    refine ⟨rfl, fun name field held => ?_⟩
    obtain ⟨_, rfl⟩ := field?_viewOf_eq_some.mp held
    exact ⟨rfl, rfl⟩
  case named =>
    intro key view found name
    obtain ⟨known, rfl⟩ := get?_build_eq_some.mp found
    simp only [field?_viewOf_eq_some, exists_and_left, exists_eq', and_true, mem_fieldNames]
  case samples =>
    intro key name field place
    obtain ⟨_, _, rfl⟩ := fieldAt_build.mp place
    refine List.filter_congr fun sample _ => ?_
    rw [Bool.decide_and]
    rfl
  case owned =>
    intro sample seen plain
    have known := mem_viewKeys_of_sample seen plain
    have named : sample.field ∈ fieldNames corpus sample.view := mem_fieldNames.mpr ⟨sample, seen, rfl, rfl⟩
    refine ⟨(sample.view, sample.field), ⟨_, fieldAt_build.mpr ⟨known, named, rfl⟩, ?_⟩, ?_⟩
    · exact mem_fieldSamples.mpr ⟨seen, rfl, rfl⟩
    · rintro ⟨key, name⟩ ⟨field, place, held⟩
      obtain ⟨_, _, rfl⟩ := fieldAt_build.mp place
      obtain ⟨_, view, field⟩ := mem_fieldSamples.mp held
      exact Prod.ext view.symm field.symm
  case leftOut =>
    intro sample bag key name field place held
    obtain ⟨known, _, rfl⟩ := fieldAt_build.mp place
    obtain ⟨_, rfl, _⟩ := mem_fieldSamples.mp held
    rw [plain_of_mem_viewKeys known] at bag
    cases bag
  case once => exact samples_build config corpus
  case onePass => exact holdings_build config corpus
  case apart =>
    intro other key view otherView same found foundToo
    obtain ⟨_, rfl⟩ := get?_build_eq_some.mp found
    obtain ⟨_, rfl⟩ := get?_build_eq_some.mp foundToo
    exact fields_viewOf_congr same

end ViewSchema.SampleFiling
