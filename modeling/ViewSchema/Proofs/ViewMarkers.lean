import ViewSchema.Proofs.KeyNormalization
import ViewSchema.Proofs.RecordedViews

/-! Which view an object names. The first marker with a text that is not blank decides, and the text is asked for
blanks before it is read as a path. A text of separators alone is not blank, but no step is left of it as a path:
its marker is not passed over, and the object counts as an instance of a view that is no file. This is the only
way to such a view, for an object and for a corpus alike. -/
namespace ViewSchema.ViewMarkers
open KeyNormalization RecordedViews ExtractionProvenance
open Relation (ReflTransGen)

/-! ### Paths without a step -/

/-- The text holds nothing but separators and steps to the directory itself, apart from blanks around them. -/
def BareRoot (path : String) : Prop := RootSteps (spelledAlike path.toList)

/-- A spelling that starts at no separator has a step unless it is empty. -/
theorem segments_eq_nil_of_rooted (rooted : Rooted cs) : (ViewKey.mk (.ofList cs)).segments = [] ↔ cs = [] := by
  cases cs with
  | nil => simp [ViewKey.segments, Text.cutAt]
  | cons c rest =>
    have inside : ¬ (c == '/') = true := fun same => rooted.no_separator rest (by rw [beq_iff_eq.mp same])
    obtain ⟨first, others, pieces⟩ := List.exists_cons_of_ne_nil (List.splitOnP_ne_nil (· == '/') rest)
    simp [ViewKey.segments, Text.cutAt, List.splitOnP_cons_eq_if_modifyHead, inside, pieces]

theorem normalize_eq_nil_iff : ViewKey.normalize cs = [] ↔ RootSteps (spelledAlike cs) := by
  rw [normalize_eq]
  constructor
  · intro nothing
    obtain ⟨⟨steps, root, same⟩, -⟩ := dropRoot_drops (spelledAlike cs)
    rw [nothing, List.append_nil] at same
    exact same ▸ root
  · intro root
    have none : Rooted [] := ⟨nofun, nofun⟩
    simpa using dropRoot_append root none

theorem segments_ofPath_eq_nil_iff : (ViewKey.ofPath path).segments = [] ↔ BareRoot path := by
  have rooted : Rooted (ViewKey.normalize path.toList) := (dropRoot_drops (spelledAlike path.toList)).2
  exact (segments_eq_nil_of_rooted rooted).trans normalize_eq_nil_iff

theorem ofPath_eq_empty_iff : ViewKey.ofPath path = ⟨""⟩ ↔ BareRoot path := by
  simp [ViewKey.ofPath, BareRoot, normalize_eq_nil_iff, String.ofList_eq_empty_iff]

theorem bareRoot_of_blank (blank : Text.trim path = "") : BareRoot path := by
  have trimmed : Text.trimChars path.toList = [] := String.ofList_eq_empty_iff.mp blank
  rw [BareRoot, spelledAlike, trimmed]
  exact .none

/-! ### The marker that decides -/

/-- The text under a key of an object. -/
def textUnder? (members : List (String × Json)) (marker : String) : Option String :=
  (Json.member? members marker).bind Json.text?

/-- The first marker with a text that is not blank has this one. -/
def Decides (members : List (String × Json)) (path : String) : Prop :=
  ∃ before marker after, viewMarkers = before ++ marker :: after ∧ textUnder? members marker = some path ∧
    Text.trim path ≠ "" ∧ ∀ earlier ∈ before, ∀ text, textUnder? members earlier = some text → Text.trim text = ""

/-- The marker that decides leads to no file. -/
def NamesNoFile (members : List (String × Json)) : Prop := ∃ path, Decides members path ∧ BareRoot path

/-- The view of a text that is not blank. -/
def pathOf? (path : String) : Option ViewKey := if Text.trim path = "" then none else some (.ofPath path)

theorem viewMarker?_eq (members : List (String × Json)) :
    viewMarker? members = viewMarkers.findSome? fun marker => (textUnder? members marker).bind pathOf? := by
  unfold viewMarker? textUnder? pathOf?
  congr
  funext marker
  cases Json.member? members marker <;> simp

theorem pathOf?_eq_some : pathOf? path = some key ↔ Text.trim path ≠ "" ∧ ViewKey.ofPath path = key := by
  simp [pathOf?]

theorem bind_pathOf?_eq_none {held : Option String} :
    held.bind pathOf? = none ↔ ∀ text, held = some text → Text.trim text = "" := by
  simp [pathOf?]

/-- An object names the view of the text that decides, whatever that text leads to. -/
theorem viewMarker?_eq_some_iff :
    viewMarker? members = some key ↔ ∃ path, Decides members path ∧ ViewKey.ofPath path = key := by
  rw [viewMarker?_eq, List.findSome?_eq_some_iff]
  constructor
  · rintro ⟨before, marker, after, order, named, passed⟩
    obtain ⟨path, held, found⟩ := Option.bind_eq_some_iff.mp named
    obtain ⟨filled, rfl⟩ := pathOf?_eq_some.mp found
    have blank := fun earlier listed => bind_pathOf?_eq_none.mp (passed earlier listed)
    exact ⟨path, ⟨before, marker, after, order, held, filled, blank⟩, rfl⟩
  · rintro ⟨path, ⟨before, marker, after, order, held, filled, blank⟩, rfl⟩
    have passed := fun earlier listed => bind_pathOf?_eq_none.mpr (blank earlier listed)
    have named := Option.bind_eq_some_iff.mpr ⟨path, held, pathOf?_eq_some.mpr ⟨filled, rfl⟩⟩
    exact ⟨before, marker, after, order, named, passed⟩

theorem viewMarker?_eq_empty_iff : viewMarker? members = some ⟨""⟩ ↔ NamesNoFile members := by
  simp only [viewMarker?_eq_some_iff, ofPath_eq_empty_iff, NamesNoFile]

/-! ### Passing over what leads to no file -/

/-- The view of a text that leads to a file. -/
def fileOf? (path : String) : Option ViewKey :=
  if (ViewKey.ofPath path).segments = [] then none else some (.ofPath path)

/-- The view that an object names if a marker whose text leads to no file is passed over for the next one. -/
def namedFile? (members : List (String × Json)) : Option ViewKey :=
  viewMarkers.findSome? fun marker => (textUnder? members marker).bind fileOf?

theorem fileOf?_eq_some : fileOf? path = some key ↔ ¬ BareRoot path ∧ ViewKey.ofPath path = key := by
  simp [fileOf?, segments_ofPath_eq_nil_iff]

theorem fileOf?_eq_none : fileOf? path = none ↔ BareRoot path := by
  simp [fileOf?, segments_ofPath_eq_nil_iff]

/-- What is passed over for its blanks is passed over for leading nowhere as well. -/
theorem bind_fileOf?_eq_none {held : Option String} (blank : ∀ text, held = some text → Text.trim text = "") :
    held.bind fileOf? = none := by
  refine Option.bind_eq_none_iff.mpr fun text same => ?_
  exact fileOf?_eq_none.mpr (bareRoot_of_blank (blank text same))

theorem segments_of_namedFile? (named : namedFile? members = some key) : key.segments ≠ [] := by
  obtain ⟨_, marker, _, _, found, _⟩ := List.findSome?_eq_some_iff.mp named
  obtain ⟨path, _, leads⟩ := Option.bind_eq_some_iff.mp found
  obtain ⟨root, rfl⟩ := fileOf?_eq_some.mp leads
  exact mt segments_ofPath_eq_nil_iff.mp root

/-- The two ways to pass over markers differ for those objects alone whose deciding marker leads to no file. -/
theorem viewMarker?_eq_namedFile?_iff : viewMarker? members = namedFile? members ↔ ¬ NamesNoFile members := by
  constructor
  · intro same noFile
    have named : namedFile? members = some ⟨""⟩ := same.symm.trans (viewMarker?_eq_empty_iff.mpr noFile)
    exact segments_of_namedFile? named (by decide)
  · intro leads
    cases found : viewMarker? members with
    | none =>
      rw [viewMarker?_eq, List.findSome?_eq_none_iff] at found
      refine (List.findSome?_eq_none_iff.mpr fun marker listed => ?_).symm
      exact bind_fileOf?_eq_none (bind_pathOf?_eq_none.mp (found marker listed))
    | some key =>
      obtain ⟨path, decides, rfl⟩ := viewMarker?_eq_some_iff.mp found
      have root : ¬ BareRoot path := fun root => leads ⟨path, decides, root⟩
      obtain ⟨before, marker, after, order, held, _, blank⟩ := decides
      have named := Option.bind_eq_some_iff.mpr ⟨path, held, fileOf?_eq_some.mpr ⟨root, rfl⟩⟩
      have passed := fun earlier listed => bind_fileOf?_eq_none (blank earlier listed)
      exact (List.findSome?_eq_some_iff.mpr ⟨before, marker, after, order, named, passed⟩).symm

/-! ### Objects and corpora -/

theorem segments_of_viewMarker?_iff :
    (∀ key, viewMarker? members = some key → key.segments ≠ []) ↔ ¬ NamesNoFile members := by
  constructor
  · intro filled noFile
    exact filled _ (viewMarker?_eq_empty_iff.mpr noFile) (by decide)
  · intro leads key named none
    obtain ⟨path, decides, rfl⟩ := viewMarker?_eq_some_iff.mp named
    exact leads ⟨path, decides, segments_ofPath_eq_nil_iff.mp none⟩

theorem instanceKey?_eq_some_iff : instanceKey? config members = some view ↔
    viewMarker? members = some view ∧ config.isMapTemplate view = false := by
  simp [instanceKey?, Option.filter_eq_some_iff]

/-- What an object names has a step in its path exactly if the first marker that is not blank does not hold
separators alone, and exactly then it is what the object names if such markers are passed over as well. A corpus
records the view without a path exactly if its documents show an object that is marked so, and no setting makes a
bag of that view. -/
theorem named_views_are_files_iff (config : Config) (documents : List (Json × String))
    (members : List (String × Json)) :
    ((∀ key, viewMarker? members = some key → key.segments ≠ []) ↔ ¬ NamesNoFile members) ∧
      (viewMarker? members = namedFile? members ↔ ¬ NamesNoFile members) ∧
      (⟨""⟩ ∈ (corpusOf config documents).views.keys ↔
        config.isMapTemplate ⟨""⟩ = false ∧ ∃ entry ∈ documents, ∃ shown,
          ReflTransGen (Visits config) ⟨false, entry.1⟩ ⟨false, .object shown⟩ ∧ NamesNoFile shown) := by
  refine ⟨segments_of_viewMarker?_iff, viewMarker?_eq_namedFile?_iff, ?_⟩
  simp only [mem_views_corpusOf, Encounters, instanceKey?_eq_some_iff, viewMarker?_eq_empty_iff]
  constructor
  · rintro ⟨entry, listed, shown, path, noFile, plain⟩
    exact ⟨plain, entry, listed, shown, path, noFile⟩
  · rintro ⟨plain, entry, listed, shown, path, noFile⟩
    exact ⟨entry, listed, shown, path, noFile, plain⟩

/-- A card behind a template that is only a separator. -/
def markedBySeparator : List (String × Json) := [("_template", .string "/"), ("_view", .string "card.hbs")]

/-- The separator hides the card, and the view without a path goes into the corpus. -/
theorem separator_hides_card :
    viewMarker? markedBySeparator = some ⟨""⟩ ∧ (ViewKey.mk "").segments = [] ∧
      namedFile? markedBySeparator = some ⟨"card.hbs"⟩ ∧
      (Corpus.ofDocument {} (.object markedBySeparator) "page.json").views.keys.toList = [⟨""⟩] := by
  decide +kernel

end ViewSchema.ViewMarkers
