import ViewSchema.Proofs.ClassNames
import ViewSchema.Proofs.CommonDirectories

/-! Which views get one class is decided by their own paths. The directories that a run leaves out are the
start of the path of each of its views, and a start that two dotted names share does not tell them apart or
make them equal, even where a directory has dots in its name. So neither the views that come with two views
nor the settings of the run can make their classes collide or keep them from it. -/
namespace ViewSchema.NamespaceElision
open ClassNames CommonDirectories

/-! ### Dotted names with one start -/

theorem intercalate_eq_empty {steps : List String} (named : ∀ step ∈ steps, step ≠ "") :
    ".".intercalate steps = "" ↔ steps = [] := by
  cases steps with
  | nil => simp
  | cons first rest =>
    have filled : first ≠ "" := named first List.mem_cons_self
    cases rest with
    | nil => simpa using filled
    | cons second rest => simp [filled]

private theorem intercalate_longer {start steps : List String} (more : start ≠ []) (further : steps ≠ []) :
    ".".intercalate (start ++ steps) ≠ ".".intercalate start := by
  intro same
  rw [String.intercalate_append_of_ne_nil more further] at same
  have lengths := congrArg String.length same
  have dot : ".".length = 1 := rfl
  simp only [String.length_append, dot] at lengths
  omega

/-- Two dotted names that go on after one start are equal exactly if what they go on with is. The steps may hold
dots themselves, and one of the names may be the start alone. -/
theorem intercalate_append_inj {start a b : List String} (namedA : ∀ step ∈ a, step ≠ "")
    (namedB : ∀ step ∈ b, step ≠ "") :
    ".".intercalate (start ++ a) = ".".intercalate (start ++ b) ↔
      ".".intercalate a = ".".intercalate b := by
  by_cases none : start = []
  · rw [none, List.nil_append, List.nil_append]
  · by_cases endA : a = [] <;> by_cases endB : b = []
    · simp [endA, endB]
    · have longer := intercalate_longer none endB
      have filled := mt (intercalate_eq_empty namedB).mp endB
      simp [endA, Ne.symm longer, Ne.symm filled]
    · have longer := intercalate_longer none endA
      have filled := mt (intercalate_eq_empty namedA).mp endA
      simp [endB, longer, filled]
    · rw [String.intercalate_append_of_ne_nil none endA, String.intercalate_append_of_ne_nil none endB]
      exact String.append_right_inj _

/-! ### Views that get one class -/

/-- Two views meet if their directories make one dotted name and their file names one word. Only the two
paths decide it. -/
def Meet (a b : ViewKey) : Prop :=
  ".".intercalate a.directories = ".".intercalate b.directories ∧
    Naming.pascalCase (Naming.fileStem a.fileName) = Naming.pascalCase (Naming.fileStem b.fileName)

theorem sameClass_iff_meet {naming : Naming} (shared : naming.elided <+: a.directories)
    (sharedToo : naming.elided <+: b.directories) :
    SameClass (naming.identify a) (naming.identify b) ↔ Meet a b := by
  obtain ⟨ownA, pathA⟩ := shared
  obtain ⟨ownB, pathB⟩ := sharedToo
  have namedA : ∀ step ∈ ownA, step ≠ "" := fun step listed =>
    directory_ne_empty (pathA ▸ List.mem_append_right _ listed)
  have namedB : ∀ step ∈ ownB, step ≠ "" := fun step listed =>
    directory_ne_empty (pathB ▸ List.mem_append_right _ listed)
  have directories : naming.namespaceOf a = naming.namespaceOf b ↔
      ".".intercalate a.directories = ".".intercalate b.directories := by
    rw [namespaceOf_eq pathA, namespaceOf_eq pathB, intercalate_append_inj namedA namedB, ← pathA, ← pathB,
      intercalate_append_inj namedA namedB]
  have files : naming.localNameOf a = naming.localNameOf b ↔
      Naming.pascalCase (Naming.fileStem a.fileName) = Naming.pascalCase (Naming.fileStem b.fileName) := by
    rw [Naming.localNameOf, Naming.localNameOf, String.append_left_inj, String.append_right_inj]
  exact and_congr directories files

/-- Two views have one class among some views exactly if they have one among any more views, and exactly if
their whole paths meet. -/
theorem sameClass_of_included (config : Config) {views more : List ViewKey} (included : views ⊆ more)
    {a b : ViewKey} (listed : a ∈ views) (listedToo : b ∈ views) :
    (SameClass ((Naming.ofViews config views).identify a) ((Naming.ofViews config views).identify b) ↔
        SameClass ((Naming.ofViews config more).identify a) ((Naming.ofViews config more).identify b)) ∧
      (SameClass ((Naming.ofViews config views).identify a) ((Naming.ofViews config views).identify b) ↔
        Meet a b) := by
  have few : SameClass ((Naming.ofViews config views).identify a)
      ((Naming.ofViews config views).identify b) ↔ Meet a b :=
    sameClass_iff_meet (commonDirectories_isPrefix listed) (commonDirectories_isPrefix listedToo)
  have many : SameClass ((Naming.ofViews config more).identify a)
      ((Naming.ofViews config more).identify b) ↔ Meet a b :=
    sameClass_iff_meet (commonDirectories_isPrefix (included listed))
      (commonDirectories_isPrefix (included listedToo))
  exact ⟨few.trans many.symm, few⟩

/-- Two cards in directories that differ only in where their dots and slashes stand. -/
def dottedCards : List ViewKey := [⟨"site/a.b/c/card.hbs"⟩, ⟨"site/a/b.c/card.hbs"⟩]

/-- The cards have one class by themselves, where the site is left out, and beside a view of another site,
where nothing is. -/
theorem sameClass_of_included_dotted_cards :
    let apart := Naming.ofViews {} dottedCards
    let together := Naming.ofViews {} (⟨"shop/list.hbs"⟩ :: dottedCards)
    (apart.elided = ["site"] ∧ together.elided = []) ∧
      SameClass (apart.identify ⟨"site/a.b/c/card.hbs"⟩) (apart.identify ⟨"site/a/b.c/card.hbs"⟩) ∧
      SameClass (together.identify ⟨"site/a.b/c/card.hbs"⟩) (together.identify ⟨"site/a/b.c/card.hbs"⟩) := by
  intro apart together
  have met : SameClass (apart.identify ⟨"site/a.b/c/card.hbs"⟩) (apart.identify ⟨"site/a/b.c/card.hbs"⟩) := by
    decide +kernel
  have kept := sameClass_of_included {} (List.subset_cons_self ⟨"shop/list.hbs"⟩ dottedCards)
    (a := ⟨"site/a.b/c/card.hbs"⟩) (b := ⟨"site/a/b.c/card.hbs"⟩) (by decide) (by decide)
  exact ⟨by decide +kernel, met, kept.1.mp met⟩

end ViewSchema.NamespaceElision
