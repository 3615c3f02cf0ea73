import ViewSchema.Naming.Resolver

/-! The directories that a run leaves out of its namespaces are the longest start that the paths of its views
have in common. A list of directories is a start of what two paths share exactly if it is a start of both, and
one view after the other keeps it so. This settles the whole result: it depends on the set of views alone, and
of no path is anything lost but this start. -/
namespace ViewSchema.CommonDirectories

/-! ### The greatest shared start -/

theorem isPrefix_sharedStart [DecidableEq α] {start xs ys : List α} :
    start <+: Naming.sharedStart xs ys ↔ start <+: xs ∧ start <+: ys := by
  induction xs generalizing start ys with
  | nil => simp +contextual [Naming.sharedStart]
  | cons x xs ih =>
    cases ys with
    | nil => simp +contextual [Naming.sharedStart]
    | cons y ys =>
      cases start with
      | nil => simp
      | cons first rest =>
        by_cases same : x = y
        · subst same
          simp only [Naming.sharedStart, ↓reduceIte, List.cons_prefix_cons, ih]
          exact and_and_left
        · simp only [Naming.sharedStart, same, ↓reduceIte, List.cons_prefix_cons, List.prefix_nil,
            reduceCtorEq, false_iff]
          rintro ⟨⟨rfl, -⟩, rfl, -⟩
          exact same rfl

/-- What is left after some more views has the starts that were shared before and are starts of each of
their paths. -/
theorem isPrefix_foldl_sharedStart {rest : List ViewKey} {start shared : List String} :
    start <+: rest.foldl (fun shared other => Naming.sharedStart shared other.directories) shared ↔
      start <+: shared ∧ ∀ key ∈ rest, start <+: key.directories := by
  induction rest generalizing shared with
  | nil => simp
  | cons next rest ih => rw [List.foldl_cons, ih, isPrefix_sharedStart, List.forall_mem_cons, and_assoc]

theorem isPrefix_commonDirectories (filled : keys ≠ []) :
    start <+: Naming.commonDirectories keys ↔ ∀ key ∈ keys, start <+: key.directories := by
  cases keys with
  | nil => exact absurd rfl filled
  | cons first rest => rw [Naming.commonDirectories, isPrefix_foldl_sharedStart, List.forall_mem_cons]

/-- The directories that a run leaves out are the first ones of each of its views. -/
theorem commonDirectories_isPrefix (listed : key ∈ keys) :
    Naming.commonDirectories keys <+: key.directories :=
  (isPrefix_commonDirectories (List.ne_nil_of_mem listed)).mp List.prefix_rfl key listed

/-- All the views are in these directories, and every other list of directories that they are all in is a
start of this one. -/
structure GreatestShared (keys : List ViewKey) (start : List String) : Prop where
  shared : ∀ key ∈ keys, start <+: key.directories
  greatest : ∀ other, (∀ key ∈ keys, other <+: key.directories) → other <+: start

theorem GreatestShared.unique (first : GreatestShared keys a) (second : GreatestShared keys b) : a = b := by
  have below : a <+: b := second.greatest a first.shared
  have above : b <+: a := first.greatest b second.shared
  exact below.eq_of_length_le above.length_le

theorem greatestShared_commonDirectories (filled : keys ≠ []) :
    GreatestShared keys (Naming.commonDirectories keys) where
  shared _ listed := commonDirectories_isPrefix listed
  greatest _ shared := (isPrefix_commonDirectories filled).mpr shared

theorem GreatestShared.congr (same : ∀ key, key ∈ keys ↔ key ∈ others)
    (found : GreatestShared keys start) : GreatestShared others start where
  shared key listed := found.shared key ((same key).mpr listed)
  greatest other below := found.greatest other fun key listed => below key ((same key).mp listed)

theorem commonDirectories_congr (same : ∀ key, key ∈ keys ↔ key ∈ others) :
    Naming.commonDirectories keys = Naming.commonDirectories others := by
  by_cases filled : keys = []
  · subst filled
    have none : others = [] := List.eq_nil_iff_forall_not_mem.mpr fun key listed =>
      List.not_mem_nil ((same key).mpr listed)
    rw [none]
  · obtain ⟨key, listed⟩ := List.exists_mem_of_ne_nil keys filled
    have filledToo : others ≠ [] := List.ne_nil_of_mem ((same key).mp listed)
    exact ((greatestShared_commonDirectories filled).congr same).unique
      (greatestShared_commonDirectories filledToo)

/-! ### What is left of a path -/

theorem directory_ne_empty {key : ViewKey} (step : name ∈ key.directories) : name ≠ "" := by
  have kept := (List.mem_filter.mp ((List.dropLast_prefix key.segments).subset step)).2
  simpa using kept

/-- The namespace of a view starts with the root, unless that is empty, and goes on with the directories
that are not left out. -/
theorem namespaceOf_eq {naming : Naming} (path : naming.elided ++ own = key.directories) :
    naming.namespaceOf key = ".".intercalate ([naming.root].filter (!·.isEmpty) ++ own) := by
  have named : own.filter (!·.isEmpty) = own := by
    refine List.filter_eq_self.mpr fun step listed => ?_
    have filled : step ≠ "" := directory_ne_empty (path ▸ List.mem_append_right _ listed)
    simpa using filled
  rw [Naming.namespaceOf, ← path, List.drop_left, ← List.singleton_append, List.filter_append, named]

/-- The directories that a namespace goes on with are all those of its view but the ones that are left out. -/
theorem elided_append_own (config : Config) (listed : key ∈ keys) :
    (Naming.ofViews config keys).elided ++ key.directories.drop (Naming.ofViews config keys).elided.length =
      key.directories :=
  List.prefix_iff_eq_append.mp (commonDirectories_isPrefix listed)

/-- Without views nothing is left out. Of any views, the directories that are left out are the greatest shared
ones, whichever way the views are listed, and the path of each view is made of these and of what its namespace
goes on with. -/
theorem commonDirectories_greatest :
    Naming.commonDirectories [] = [] ∧
      (∀ keys, keys ≠ [] → ∀ start,
        Naming.commonDirectories keys = start ↔ GreatestShared keys start) ∧
      (∀ keys others, (∀ key, key ∈ keys ↔ key ∈ others) →
        Naming.commonDirectories keys = Naming.commonDirectories others) ∧
      ∀ config keys, ∀ key ∈ keys, ∃ own,
        (Naming.ofViews config keys).elided ++ own = key.directories ∧
          (Naming.ofViews config keys).namespaceOf key =
            ".".intercalate ([(Naming.ofViews config keys).root].filter (!·.isEmpty) ++ own) := by
  refine ⟨rfl, fun keys filled start => ?_, fun _ _ => commonDirectories_congr, ?_⟩
  · have greatest := greatestShared_commonDirectories filled
    constructor
    · rintro rfl
      exact greatest
    · exact greatest.unique
  · intro config keys key listed
    have path := elided_append_own config listed
    exact ⟨_, path, namespaceOf_eq path⟩

/-- Views of one site, in directories of different depth, two of which only begin with the same letters. -/
def siteViews : List ViewKey :=
  [⟨"site/cards/big/x.hbs"⟩, ⟨"site//cards/y.hbs"⟩, ⟨"site/cardset/z.hbs"⟩]

/-- The views share the site and no more, in whichever order and however often they are listed, and the
namespace of the first has the rest of its path. -/
theorem commonDirectories_greatest_site :
    Naming.commonDirectories siteViews = ["site"] ∧ GreatestShared siteViews ["site"] ∧
      Naming.commonDirectories (siteViews.reverse ++ siteViews) = ["site"] ∧
      ∃ own, ["site"] ++ own = ["site", "cards", "big"] ∧
        (Naming.ofViews {} siteViews).namespaceOf ⟨"site/cards/big/x.hbs"⟩ = ".".intercalate own := by
  obtain ⟨_, exactly, listings, paths⟩ := commonDirectories_greatest
  have shared : Naming.commonDirectories siteViews = ["site"] := by decide +kernel
  have again := listings siteViews (siteViews.reverse ++ siteViews) (by simp)
  obtain ⟨own, path, nameSpace⟩ := paths {} siteViews ⟨"site/cards/big/x.hbs"⟩ List.mem_cons_self
  have elided : (Naming.ofViews {} siteViews).elided = ["site"] := shared
  have directories : ViewKey.directories ⟨"site/cards/big/x.hbs"⟩ = ["site", "cards", "big"] := by
    decide +kernel
  rw [elided, directories] at path
  have greatest := (exactly siteViews (List.cons_ne_nil _ _) _).mp shared
  exact ⟨shared, greatest, again.symm.trans shared, own, path, nameSpace⟩

end ViewSchema.CommonDirectories
