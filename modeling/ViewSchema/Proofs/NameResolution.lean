import ViewSchema.Proofs.ClassNames
import ViewSchema.Proofs.ReferenceClosure

/-! How the file of a view writes the classes that it refers to. Local names are given away in the order in
which they are asked for, the own class first; who comes too late is written in full. That order, and who
owns a name by it, is stated here on plain lists, and the plan of every view is compared with it: each
reference is written in exactly one way, and in a way that means its own class. -/
namespace ViewSchema.NameResolution
open UnificationSemantics RegistryContents ExtractionProvenance ReferenceClosure

/-! ### Who owns a local name -/

/-- The reference that a local name belongs to: the first one that asks for it. -/
def ownerOf? (requests : List TypeReference) (localName : String) : Option TypeReference :=
  requests.find? (·.localName == localName)

/-- A reference owns its local name if no other reference asks for the name earlier. -/
def Owns (requests : List TypeReference) (reference : TypeReference) : Prop :=
  ownerOf? requests reference.localName = some reference

theorem ownerOf?_append (first more : List TypeReference) (localName : String) :
    ownerOf? (first ++ more) localName = (ownerOf? first localName).or (ownerOf? more localName) :=
  List.find?_append

theorem mem_of_owns (owns : Owns requests reference) : reference ∈ requests :=
  List.mem_of_find?_eq_some owns

theorem localName_of_owner (owned : ownerOf? requests name = some owner) : owner.localName = name := by
  simpa using List.find?_some owned

theorem exists_owner (asked : reference ∈ requests) :
    ∃ owner, ownerOf? requests reference.localName = some owner := by
  rw [← Option.isSome_iff_exists, ownerOf?, List.find?_isSome]
  exact ⟨reference, asked, by simp⟩

/-- A class that can do without an import: it stands in the namespace of the file or in an implicit one. -/
def InReach (nameSpace : String) (namespaces : List String) (reference : TypeReference) : Prop :=
  reference.nameSpace = nameSpace ∨ reference.nameSpace ∈ namespaces

theorem needsImport_iff {set : ImportSet} : set.needsImport reference = true ↔
    reference.builtin = false ∧ ¬ InReach set.nameSpace set.implicitNamespaces.toList reference := by
  simp [ImportSet.needsImport, InReach, and_assoc]

/-- A file imports what owns its local name and needs it. -/
theorem mem_imports_of_owners {set : ImportSet} (owners : ∀ name, set.owners.get? name = ownerOf? requests name) :
    name ∈ set.imports ↔
      ∃ reference, Owns requests reference ∧ set.needsImport reference = true ∧ reference.fullName = name := by
  have owner : ∀ reference, reference ∈ set.owners.values ↔ Owns requests reference := by
    intro reference
    simp only [SortedMap.mem_values, owners, Owns]
    constructor
    · rintro ⟨name, owned⟩
      rwa [localName_of_owner owned]
    · intro owns
      exact ⟨_, owns⟩
  simp only [ImportSet.imports, SortedSet.mem_ofList, List.mem_map, List.mem_filter, owner, and_assoc]

/-- The own class is the first to ask for its local name. -/
theorem owners_forView (identity : Identity) (name : String) :
    (ImportSet.forView identity).owners.get? name = ownerOf? [.ofIdentity identity] name := by
  have own : (ImportSet.forView identity).owners.get? name =
      if name = identity.localName then some (.ofIdentity identity) else none :=
    SortedMap.get?_insert .empty identity.localName name (TypeReference.ofIdentity identity)
  rw [own]
  by_cases named : identity.localName = name
  · simp [ownerOf?, TypeReference.ofIdentity, named]
  · simp [ownerOf?, TypeReference.ofIdentity, named, Ne.symm named]

/-! ### Adding references to a file -/

section Draft
open ReferencePlan

/-- What becomes of one more reference: it gets its local name, or has it already, or finds it taken and is
written in full. -/
theorem add_cases (draft : Draft) (reference : TypeReference) :
    (draft.set.owners.get? reference.localName = none ∧
        draft.add reference =
          { draft with set.owners := draft.set.owners.insert reference.localName reference }) ∨
      (draft.set.owners.get? reference.localName = some reference ∧ draft.add reference = draft) ∨
      ∃ owner, draft.set.owners.get? reference.localName = some owner ∧ owner ≠ reference ∧
        draft.add reference = { draft with qualified := draft.qualified.insert reference.fullName } := by
  cases owned : draft.set.owners.get? reference.localName with
  | none => exact .inl ⟨rfl, by simp [Draft.add, ImportSet.add, owned]⟩
  | some owner =>
    by_cases same : owner = reference
    · exact .inr (.inl ⟨by rw [same], by simp [Draft.add, ImportSet.add, owned, same]⟩)
    · exact .inr (.inr ⟨owner, rfl, same, by simp [Draft.add, ImportSet.add, owned, same]⟩)

theorem owners_add (draft : Draft) (reference : TypeReference) (name : String) :
    (draft.add reference).set.owners.get? name =
      (draft.set.owners.get? name).or (if reference.localName = name then some reference else none) := by
  rcases add_cases draft reference with ⟨free, added⟩ | ⟨owned, added⟩ | ⟨owner, taken, _, added⟩
  · rw [added, SortedMap.get?_insert]
    by_cases named : reference.localName = name
    · subst named
      simp [free]
    · simp [named, Ne.symm named]
  · rw [added]
    by_cases named : reference.localName = name
    · subst named
      simp [owned]
    · simp [named]
  · rw [added]
    by_cases named : reference.localName = name
    · subst named
      simp [taken]
    · simp [named]

/-- Names that are given away stay with their owners, and any other goes to the first that asks for it. -/
theorem owners_foldl (references : List TypeReference) (draft : Draft) (name : String) :
    (references.foldl Draft.add draft).set.owners.get? name =
      (draft.set.owners.get? name).or (ownerOf? references name) := by
  induction references generalizing draft with
  | nil => simp [ownerOf?]
  | cons reference rest ih =>
    rw [List.foldl_cons, ih, owners_add, Option.or_assoc]
    congr 1
    by_cases named : reference.localName = name <;> simp [ownerOf?, named]

/-- Written in full are the references whose local name has another owner in the end. -/
theorem mem_qualified_foldl (references : List TypeReference) (draft : Draft) (name : String) :
    name ∈ (references.foldl Draft.add draft).qualified ↔ name ∈ draft.qualified ∨
      ∃ reference ∈ references, reference.fullName = name ∧ ∃ owner, owner ≠ reference ∧
        (references.foldl Draft.add draft).set.owners.get? reference.localName = some owner := by
  induction references generalizing draft with
  | nil => simp
  | cons reference rest ih =>
    have settled : (rest.foldl Draft.add (draft.add reference)).set.owners.get? reference.localName =
        (draft.set.owners.get? reference.localName).or (some reference) := by
      rw [owners_foldl, owners_add, if_pos rfl]
      cases draft.set.owners.get? reference.localName <;> rfl
    have first : name ∈ (draft.add reference).qualified ↔ name ∈ draft.qualified ∨
        (reference.fullName = name ∧ ∃ owner, owner ≠ reference ∧
          (draft.set.owners.get? reference.localName).or (some reference) = some owner) := by
      rcases add_cases draft reference with ⟨free, added⟩ | ⟨owned, added⟩ | ⟨owner, taken, other, added⟩
      · simp [added, free]
      · simp [added, owned]
      · simp [added, taken, Ne.symm other, or_comm, eq_comm]
    simp only [List.foldl_cons, ih, first, List.exists_mem_cons_iff, settled, or_assoc]

theorem needsImport_foldl (references : List TypeReference) (draft : Draft) :
    (references.foldl Draft.add draft).set.needsImport = draft.set.needsImport := by
  induction references generalizing draft with
  | nil => rfl
  | cons reference rest ih =>
    rw [List.foldl_cons, ih]
    rcases add_cases draft reference with ⟨_, added⟩ | ⟨_, added⟩ | ⟨_, _, _, added⟩
    · rw [added]
      rfl
    · rw [added]
    · rw [added]

end Draft

/-! ### The plan of one file -/

/-- Exactly one of three statements holds. -/
def ExactlyOne (p q r : Prop) : Prop := (p ∧ ¬ q ∧ ¬ r) ∨ (¬ p ∧ q ∧ ¬ r) ∨ (¬ p ∧ ¬ q ∧ r)

section Plan
variable {identity : Identity} {namespaces : List String} {references : List TypeReference}

/-- The file of a class after it was asked for some references, one after the other. -/
def fileDraft (identity : Identity) (namespaces : List String) (references : List TypeReference) :
    ReferencePlan.Draft :=
  references.foldl ReferencePlan.Draft.add
    { set := (ImportSet.forView identity).withImplicitNamespaces namespaces }

theorem owners_fileDraft (name : String) :
    (fileDraft identity namespaces references).set.owners.get? name =
      ownerOf? (.ofIdentity identity :: references) name := by
  have start : ((ImportSet.forView identity).withImplicitNamespaces namespaces).owners.get? name =
      ownerOf? [.ofIdentity identity] name := owners_forView identity name
  rw [fileDraft, owners_foldl, start, ← ownerOf?_append, List.singleton_append]

theorem mem_qualified_fileDraft : name ∈ (fileDraft identity namespaces references).qualified ↔
    ∃ reference ∈ references, reference.fullName = name ∧ ∃ owner, owner ≠ reference ∧
      ownerOf? (.ofIdentity identity :: references) reference.localName = some owner := by
  have start : name ∉ (SortedSet.empty : SortedSet String) := SortedSet.not_mem_empty
  rw [fileDraft, mem_qualified_foldl, or_iff_right start]
  simp only [← fileDraft.eq_def, owners_fileDraft]

theorem needsImport_fileDraft :
    (fileDraft identity namespaces references).set.needsImport reference = true ↔
      reference.builtin = false ∧ ¬ InReach identity.nameSpace namespaces reference := by
  have listed : ∀ name, name ∈ (SortedSet.empty ∪ SortedSet.ofList namespaces).toList ↔ name ∈ namespaces := by
    intro name
    rw [← SortedSet.mem_def, SortedSet.mem_union, SortedSet.mem_ofList]
    exact or_iff_right SortedSet.not_mem_empty
  rw [fileDraft, needsImport_foldl, needsImport_iff]
  simp only [InReach, ImportSet.withImplicitNamespaces, ImportSet.forView, listed]

theorem mem_imports_fileDraft : name ∈ (fileDraft identity namespaces references).set.imports ↔
    ∃ reference, Owns (.ofIdentity identity :: references) reference ∧ reference.builtin = false ∧
      ¬ InReach identity.nameSpace namespaces reference ∧ reference.fullName = name := by
  simp only [mem_imports_of_owners owners_fileDraft, needsImport_fileDraft, and_assoc]

/-- Requests that can be told apart: each is for a class, and a full name is that of one class alone. -/
structure Distinguishable (requests : List TypeReference) : Prop where
  classes : ∀ reference ∈ requests, reference.builtin = false
  named : ∀ a ∈ requests, ∀ b ∈ requests, a.fullName = b.fullName → a = b

variable (told : Distinguishable (.ofIdentity identity :: references))
include told

/-- Imported is who owns its local name and is out of reach. -/
theorem imported_iff (asked : reference ∈ TypeReference.ofIdentity identity :: references) :
    reference.fullName ∈ (fileDraft identity namespaces references).set.imports ↔
      Owns (.ofIdentity identity :: references) reference ∧
        ¬ InReach identity.nameSpace namespaces reference := by
  rw [mem_imports_fileDraft]
  constructor
  · rintro ⟨other, owns, _, remote, same⟩
    obtain rfl := told.named _ (mem_of_owns owns) _ asked same
    exact ⟨owns, remote⟩
  · rintro ⟨owns, remote⟩
    exact ⟨reference, owns, told.classes _ asked, remote, rfl⟩

/-- Written in full is who does not own its local name. -/
theorem qualified_iff (asked : reference ∈ references) :
    reference.fullName ∈ (fileDraft identity namespaces references).qualified ↔
      ¬ Owns (.ofIdentity identity :: references) reference := by
  rw [mem_qualified_fileDraft]
  constructor
  · rintro ⟨other, askedToo, same, owner, apart, owned⟩ owns
    obtain rfl := told.named _ (.tail _ askedToo) _ (.tail _ asked) same
    exact apart (Option.some.inj (owned.symm.trans owns))
  · intro late
    obtain ⟨owner, owned⟩ := exists_owner (List.mem_cons_of_mem (.ofIdentity identity) asked)
    refine ⟨reference, asked, rfl, owner, fun same => late ?_, owned⟩
    rw [Owns, owned, same]

/-- A reference is written in full, or imported, or known by its local name without an import. -/
theorem written_one_way (asked : reference ∈ references) :
    ExactlyOne (reference.fullName ∈ (fileDraft identity namespaces references).qualified)
      (reference.fullName ∈ (fileDraft identity namespaces references).set.imports)
      (InReach identity.nameSpace namespaces reference ∧
        Owns (.ofIdentity identity :: references) reference) := by
  rw [ExactlyOne, qualified_iff told asked, imported_iff told (.tail _ asked)]
  by_cases owns : Owns (.ofIdentity identity :: references) reference
  · by_cases reach : InReach identity.nameSpace namespaces reference
    · exact .inr (.inr (by simp [owns, reach]))
    · exact .inr (.inl (by simp [owns, reach]))
  · exact .inl (by simp [owns])

/-- The class that a file is for is neither imported nor written in full. -/
theorem own_not_listed :
    identity.fullName ∉ (fileDraft identity namespaces references).set.imports ∧
      identity.fullName ∉ (fileDraft identity namespaces references).qualified := by
  have owns : Owns (.ofIdentity identity :: references) (.ofIdentity identity) := by
    simp [Owns, ownerOf?]
  constructor
  · intro imported
    have remote := ((imported_iff told List.mem_cons_self).mp imported).2
    exact remote (.inl rfl)
  · intro qualified
    obtain ⟨other, asked, same, owner, apart, owned⟩ := mem_qualified_fileDraft.mp qualified
    obtain rfl := told.named _ (.tail _ asked) (.ofIdentity identity) (.head _) same
    exact apart (Option.some.inj (owned.symm.trans owns))

end Plan

/-! ### The references of a view -/

/-- The views that the type of a field refers to at any depth, each with the name of the field. -/
def fieldMentions (name : String) (field : FieldDefinition) : List (String × ViewKey) :=
  match field.type? with
  | some type => type.references.toList.map fun target => (name, target)
  | none => []

/-- The views that the fields of a view refer to, field by field. -/
def mentions (view : ViewDefinition) : List (String × ViewKey) :=
  view.fields.entries.flatMap fun entry => fieldMentions entry.1 entry.2

/-- The classes that ask for a local name in the file of a view: its own first, and then those that its
fields refer to. -/
def requests (registry : Registry) (view : ViewDefinition) : List TypeReference :=
  .ofIdentity view.identity :: (mentions view).map fun mention => registry.typeReference mention.2

/-- Fields come in the order of their names, and the references of one field in the order of their keys. -/
def MentionedBefore (a b : String × ViewKey) : Prop := Before a.1 b.1 ∨ a.1 = b.1 ∧ Before a.2 b.2

theorem mem_fieldMentions : mention ∈ fieldMentions name field ↔
    mention.1 = name ∧ ∃ type, field.type? = some type ∧ mention.2 ∈ type.references := by
  obtain ⟨key, target⟩ := mention
  unfold fieldMentions
  cases field.type? with
  | none => simp
  | some type => simp [SortedSet.mem_def, and_comm, eq_comm]

theorem mem_mentions : mention ∈ mentions view ↔ ∃ field type,
    view.fields.get? mention.1 = some field ∧ field.type? = some type ∧ mention.2 ∈ type.references := by
  simp only [mentions, List.mem_flatMap, Prod.exists, mem_fieldMentions, SortedMap.mem_entries]
  constructor
  · rintro ⟨_, field, held, rfl, type, typed, referred⟩
    exact ⟨field, type, held, typed, referred⟩
  · rintro ⟨field, type, held, typed, referred⟩
    exact ⟨_, field, held, rfl, type, typed, referred⟩

theorem mentions_ordered (view : ViewDefinition) : (mentions view).Pairwise MentionedBefore := by
  refine List.pairwise_flatMap.mpr ⟨fun entry _ => ?_, ?_⟩
  · unfold fieldMentions
    split
    · next type _ =>
      rw [List.pairwise_map]
      exact type.references.ascending.imp fun before => .inr ⟨rfl, before⟩
    · exact .nil
  · have ascending := view.fields.ascending
    rw [List.pairwise_map] at ascending
    refine ascending.imp fun {entry later} before a ofEntry b ofLater => .inl ?_
    rwa [(mem_fieldMentions.mp ofEntry).1, (mem_fieldMentions.mp ofLater).1]

theorem targets_eq_mentions (view : ViewDefinition) : Registry.targets view = (mentions view).map Prod.snd := by
  simp only [Registry.targets, ViewDefinition.typedFields, SortedMap.values, mentions]
  induction view.fields.entries with
  | nil => rfl
  | cons entry rest ih =>
    cases typed : entry.2.type? with
    | none => simpa [fieldMentions, typed] using ih
    | some type => simpa [fieldMentions, typed, Function.comp_def] using ih

/-! ### Plans resolve names -/

/-- What a plan has to say about the references of a view. -/
structure Resolves (registry : Registry) (view : ViewDefinition) (plan : ReferencePlan) : Prop where
  /-- Every reference of a typed field is accounted for. -/
  complete : ∀ name target, (name, target) ∈ mentions view ↔ ∃ field type,
    view.fields.get? name = some field ∧ field.type? = some type ∧ target ∈ type.references
  /-- The references ask for their local names by field and by key. -/
  ordered : (mentions view).Pairwise MentionedBefore
  /-- A class that is referred to is written in full, or imported, or it is in reach and owns its local
  name. -/
  one_way : ∀ mention ∈ mentions view,
    ExactlyOne ((registry.typeReference mention.2).fullName ∈ plan.qualified)
      ((registry.typeReference mention.2).fullName ∈ plan.imports)
      (InReach view.identity.nameSpace registry.implicitNamespaces.toList (registry.typeReference mention.2) ∧
        Owns (requests registry view) (registry.typeReference mention.2))
  /-- No two imported classes share a local name. -/
  apart : ∀ a ∈ mentions view, ∀ b ∈ mentions view,
    (registry.typeReference a.2).fullName ∈ plan.imports →
    (registry.typeReference b.2).fullName ∈ plan.imports →
    (registry.typeReference a.2).localName = (registry.typeReference b.2).localName →
    registry.typeReference a.2 = registry.typeReference b.2
  /-- No imported class has the local name of the view. -/
  unshadowed : ∀ mention ∈ mentions view, (registry.typeReference mention.2).fullName ∈ plan.imports →
    (registry.typeReference mention.2).localName ≠ view.identity.localName
  /-- Only classes that are referred to are imported. -/
  imported : ∀ name ∈ plan.imports, ∃ mention ∈ mentions view,
    (registry.typeReference mention.2).fullName = name
  /-- A class is written in full only if another one with its local name asked for the name first. -/
  qualified : ∀ name ∈ plan.qualified, ∃ mention ∈ mentions view,
    (registry.typeReference mention.2).fullName = name ∧
      ∃ owner, ownerOf? (requests registry view) (registry.typeReference mention.2).localName = some owner ∧
        owner.localName = (registry.typeReference mention.2).localName ∧ owner.fullName ≠ name
  own : view.fullName ∉ plan.imports ∧ view.fullName ∉ plan.qualified
  ascending : plan.imports.toList.Pairwise (· < ·) ∧ plan.qualified.toList.Pairwise (· < ·)

theorem planOf_eq_fileDraft (registry : Registry) (view : ViewDefinition) : registry.planOf view =
    let draft := fileDraft view.identity registry.implicitNamespaces.toList (requests registry view).tail
    ⟨draft.set.imports, draft.qualified⟩ := by
  rw [Registry.planOf, targets_eq_mentions, List.map_map]
  rfl

/-- A plan resolves the references of a view whose requests can be told apart. -/
theorem resolves_of_distinguishable {registry : Registry} (told : Distinguishable (requests registry view)) :
    Resolves registry view (registry.planOf view) := by
  rw [planOf_eq_fileDraft]
  have asked : ∀ mention ∈ mentions view,
      registry.typeReference mention.2 ∈ (mentions view).map fun mention => registry.typeReference mention.2 :=
    fun mention member => List.mem_map_of_mem member
  refine
    { complete := fun _ _ => mem_mentions
      ordered := mentions_ordered view
      one_way := fun mention member => written_one_way told (asked mention member)
      apart := ?_, unshadowed := ?_, imported := ?_, qualified := ?_
      own := own_not_listed told
      ascending := ⟨SortedSet.pairwise_lt _, SortedSet.pairwise_lt _⟩ }
  · intro a ofA b ofB importedA importedB same
    have ownsA := ((imported_iff told (.tail _ (asked _ ofA))).mp importedA).1
    have ownsB := ((imported_iff told (.tail _ (asked _ ofB))).mp importedB).1
    exact Option.some.inj (ownsA.symm.trans (same ▸ ownsB))
  · intro mention member imported same
    obtain ⟨owns, remote⟩ := (imported_iff told (.tail _ (asked _ member))).mp imported
    have first : ownerOf? (.ofIdentity view.identity :: (requests registry view).tail)
        (registry.typeReference mention.2).localName = some (.ofIdentity view.identity) := by
      simp [ownerOf?, same, TypeReference.ofIdentity]
    rw [← Option.some.inj (first.symm.trans owns)] at remote
    exact remote (.inl rfl)
  · intro name listed
    obtain ⟨reference, owns, _, remote, rfl⟩ := mem_imports_fileDraft.mp listed
    rcases List.mem_cons.mp (mem_of_owns owns) with rfl | referred
    · exact absurd (.inl rfl) remote
    · obtain ⟨mention, member, rfl⟩ := List.mem_map.mp referred
      exact ⟨mention, member, rfl⟩
  · intro name listed
    obtain ⟨reference, referred, rfl, owner, other, owned⟩ := mem_qualified_fileDraft.mp listed
    obtain ⟨mention, member, rfl⟩ := List.mem_map.mp referred
    refine ⟨mention, member, rfl, owner, owned, localName_of_owner owned, fun same => other ?_⟩
    exact told.named _ (List.mem_of_find?_eq_some owned) _ (.tail _ (asked _ member)) same

/-! ### References within one run -/

/-- Every class that asks for a local name in the file of a view is the class of a view of the run. -/
theorem mem_requests_viewOf
    (asked : reference ∈ requests (Registry.build config (corpusOf config documents))
      (viewOf config (corpusOf config documents) key)) :
    ∃ other, reference = .ofIdentity (classOf config (corpusOf config documents) other) := by
  rcases List.mem_cons.mp asked with rfl | referred
  · exact ⟨key, rfl⟩
  · obtain ⟨⟨name, target⟩, mentioned, rfl⟩ := List.mem_map.mp referred
    obtain ⟨field, type, held, typed, within⟩ := mem_mentions.mp mentioned
    rw [viewOf, SortedMap.get?_ofKeys] at held
    split at held
    · cases held
      exact ⟨target, by rw [typeReference_build, if_pos (target_mem_viewKeys typed within)]⟩
    · cases held

theorem requests_distinguishable (config : Config) (documents : List (Json × String)) (key : ViewKey) :
    Distinguishable (requests (Registry.build config (corpusOf config documents))
      (viewOf config (corpusOf config documents) key)) where
  classes reference asked := by
    obtain ⟨other, rfl⟩ := mem_requests_viewOf asked
    rfl
  named a askedA b askedB same := by
    obtain ⟨first, rfl⟩ := mem_requests_viewOf askedA
    obtain ⟨second, rfl⟩ := mem_requests_viewOf askedB
    simp only [ClassNames.fullName_ofIdentity] at same
    exact ClassNames.reference_eq_of_fullName same

/-- Every view of a run has a plan, and the plan resolves its references. -/
theorem plan_resolves (config : Config) (documents : List (Json × String)) :
    ∀ view ∈ (Registry.build config (corpusOf config documents)).views.values,
      ∃ plan, (Registry.build config (corpusOf config documents)).plan? view.key = some plan ∧
        Resolves (Registry.build config (corpusOf config documents)) view plan := by
  intro view defined
  obtain ⟨key, known, rfl⟩ := mem_views_build.mp defined
  have registered : (Registry.build config (corpusOf config documents)).get? key =
      some (viewOf config (corpusOf config documents) key) := by
    rw [Registry.get?, views_build, SortedMap.get?_ofKeys, if_pos known]
  have own : (viewOf config (corpusOf config documents) key).key = key := rfl
  rw [own, Registry.plan?, registered, Option.map_some]
  have told := requests_distinguishable config documents key
  exact ⟨_, rfl, resolves_of_distinguishable told⟩

/-- A page that refers to another page with its own local name, to two cards, and to a neighbour. -/
def frontPage : Json :=
  .object
    [("_template", .string "site/home.hbs"),
      ("archive", .object [("_template", .string "archive/home.hbs")]),
      ("cards", .array
        [.object [("_template", .string "news/card.hbs")], .object [("_template", .string "blog/card.hbs")]]),
      ("teaser", .object [("_template", .string "site/teaser.hbs")])]

/-- One card is imported; the other one and the other page come too late; the neighbour is in reach. -/
theorem plan_resolves_front_page :
    let corpus := corpusOf {} [(frontPage, "page.json")]
    let home := viewOf {} corpus ⟨"site/home.hbs"⟩
    home ∈ (Registry.build {} corpus).views.values ∧
      Resolves (Registry.build {} corpus) home
        ⟨.ofList ["blog.CardView"], .ofList ["archive.HomeView", "news.CardView"]⟩ := by
  intro corpus home
  have defined : home ∈ (Registry.build {} corpus).views.values :=
    mem_views_build.mpr ⟨_, by decide +kernel, rfl⟩
  obtain ⟨plan, planned, resolved⟩ := plan_resolves {} [(frontPage, "page.json")] home defined
  have shown : (Registry.build {} corpus).plan? home.key =
      some ⟨.ofList ["blog.CardView"], .ofList ["archive.HomeView", "news.CardView"]⟩ := by decide +kernel
  rw [shown] at planned
  exact ⟨defined, Option.some.inj planned ▸ resolved⟩

end ViewSchema.NameResolution
