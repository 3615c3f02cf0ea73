import ViewSchema.Proofs.HandOffGate
import ViewSchema.Proofs.ImportRuns

/-! What a full name tells about the reference that it was made from. The name is read back by a cut at its last
dot, so dots of the namespace do no harm, wherever they stand, and one in the local name does. A built-in type
and a class at the root are printed alike, and such a name is read back as the built-in type. Up to that, each
name that the file of a view prints stands for one of the references that the file asked for. -/
namespace ViewSchema.FullNameDecoding
open IdentifierGrammar RegistryContents ExtractionProvenance NameResolution ImportRuns HandOffGate

/-- The local name is a single step. -/
def Undotted (reference : TypeReference) : Prop := '.' ∉ reference.localName.toList

instance : DecidablePred Undotted := fun reference =>
  inferInstanceAs (Decidable ('.' ∉ reference.localName.toList))

/-! ### Reading back -/

/-- A full name gives back everything but whether the reference is built in, which is guessed from its
namespace. -/
theorem ofFullName_fullName (undotted : Undotted reference) :
    TypeReference.ofFullName reference.fullName =
      { reference with builtin := reference.nameSpace.isEmpty } := by
  obtain ⟨nameSpace, localName, builtin⟩ := reference
  by_cases root : nameSpace = ""
  · have uncut : Text.cutAtLast '.' localName = none := Text.cutAtLast_eq_none_iff.mpr undotted
    simp [TypeReference.fullName, TypeReference.ofFullName, TypeReference.ofBuiltin, qualify, root, uncut]
  · have cut : Text.cutAtLast '.' (nameSpace ++ "." ++ localName) = some (nameSpace, localName) :=
      Text.cutAtLast_append undotted nameSpace
    simp [TypeReference.fullName, TypeReference.ofFullName, qualify, root, cut]

theorem ofFullName_fullName_eq_iff (undotted : Undotted reference) :
    TypeReference.ofFullName reference.fullName = reference ↔
      (reference.builtin = true ↔ reference.nameSpace = "") := by
  rw [ofFullName_fullName undotted, ← String.isEmpty_iff, ← Bool.eq_iff_iff, eq_comm (a := reference.builtin)]
  exact ⟨congrArg TypeReference.builtin, fun flag => by rw [flag]⟩

/-- Equal full names are made from equal parts. -/
theorem parts_eq_of_fullName (undotted : Undotted a) (undottedToo : Undotted b)
    (same : a.fullName = b.fullName) :
    a.nameSpace = b.nameSpace ∧ a.localName = b.localName := by
  have read := congrArg TypeReference.ofFullName same
  rw [ofFullName_fullName undotted, ofFullName_fullName undottedToo] at read
  obtain ⟨nameSpaces, localNames, -⟩ := TypeReference.mk.inj read
  exact ⟨nameSpaces, localNames⟩

/-- With a dot in a local name, two classes can have one full name. -/
example : (⟨"a", "b.Card", false⟩ : TypeReference).fullName = "a.b.Card" ∧
    (⟨"a.b", "Card", false⟩ : TypeReference).fullName = "a.b.Card" := by
  decide

theorem undotted_ofFullName (name : String) : Undotted (.ofFullName name) := by
  unfold TypeReference.ofFullName
  split
  · next cut => exact (Text.eq_of_cutAtLast cut).2
  · next uncut => exact Text.cutAtLast_eq_none_iff.mp uncut

theorem nameSpace_ofFullName (isBuiltin : (TypeReference.ofFullName name).builtin = true) :
    (TypeReference.ofFullName name).nameSpace = "" := by
  unfold TypeReference.ofFullName at isBuiltin ⊢
  split
  · next cut => simp [cut] at isBuiltin
  · rfl

/-- What is read from a text is printed as that text, unless the text begins with its only dot. -/
theorem fullName_ofFullName_iff (name : String) : (TypeReference.ofFullName name).fullName = name ↔
    ∀ localName : String, '.' ∉ localName.toList → name ≠ "." ++ localName := by
  constructor
  · -- The dot in front is gone once the name is printed again.
    rintro printed localName plain rfl
    have cut : Text.cutAtLast '.' ("." ++ localName) = some ("", localName) := Text.cutAtLast_append plain ""
    have lost : localName = "." ++ localName := by
      simpa [TypeReference.ofFullName, TypeReference.fullName, qualify, cut] using printed
    refine plain ?_
    rw [lost]
    simp
  · intro filled
    unfold TypeReference.ofFullName
    split
    · next nameSpace localName cut =>
      obtain ⟨rfl, plain⟩ := Text.eq_of_cutAtLast cut
      have named : nameSpace ≠ "" := by
        rintro rfl
        exact filled localName plain (by simp)
      simp [TypeReference.fullName, qualify, named]
    · rfl

/-! ### What a printed name stands for -/

/-- Among the references that were asked for, a name stands for one: it is its full name and reads back to its
namespace and local name, and no other has the name, except for one that differs only in being built in or not. -/
structure StandsFor (asked : List TypeReference) (name : String) (reference : TypeReference) : Prop where
  asked_for : reference ∈ asked
  printed : reference.fullName = name
  reads_back : (TypeReference.ofFullName name).nameSpace = reference.nameSpace ∧
    (TypeReference.ofFullName name).localName = reference.localName
  alone : ∀ other ∈ asked, other.fullName = name →
    other = reference ∨ other = { reference with builtin := !reference.builtin }

theorem standsFor_of_undotted (undotted : ∀ reference ∈ asked, Undotted reference) (member : reference ∈ asked)
    (printed : reference.fullName = name) : StandsFor asked name reference := by
  subst printed
  refine ⟨member, rfl, by simp [ofFullName_fullName (undotted reference member)], fun other memberToo same => ?_⟩
  obtain ⟨nameSpaces, localNames⟩ :=
    parts_eq_of_fullName (undotted other memberToo) (undotted reference member) same
  obtain ⟨nameSpace, localName, builtin⟩ := other
  cases nameSpaces
  cases localNames
  rcases Bool.eq_or_eq_not builtin reference.builtin with rfl | rfl
  · exact .inl rfl
  · exact .inr rfl

theorem asked_of_imported (imported : name ∈ (run start calls).imports) :
    ∃ reference ∈ requested start calls, reference.builtin = false ∧ reference.fullName = name := by
  obtain ⟨reference, owns, needed, printed⟩ := (mem_imports_of_owners (owners_run start calls)).mp imported
  exact ⟨reference, mem_of_owns owns, ((needsImport_run start calls reference).mp needed).1, printed⟩

section Plan
variable {registry : Registry} {view : ViewDefinition}

theorem asked_of_planned_import (imported : name ∈ (registry.planOf view).imports) :
    ∃ reference ∈ requests registry view, reference.builtin = false ∧ reference.fullName = name := by
  rw [planOf_eq_fileDraft] at imported
  obtain ⟨reference, owns, isClass, -, printed⟩ := mem_imports_fileDraft.mp imported
  exact ⟨reference, mem_of_owns owns, isClass, printed⟩

theorem asked_of_qualified (qualified : name ∈ (registry.planOf view).qualified) :
    ∃ reference ∈ requests registry view, reference.fullName = name := by
  rw [planOf_eq_fileDraft] at qualified
  obtain ⟨reference, referred, printed, -⟩ := mem_qualified_fileDraft.mp qualified
  exact ⟨reference, .tail _ referred, printed⟩

/-- A name in the plan of a view, be it imported or written in full. -/
def Planned (registry : Registry) (view : ViewDefinition) (name : String) : Prop :=
  name ∈ (registry.planOf view).imports ∨ name ∈ (registry.planOf view).qualified

theorem asked_of_planned (planned : Planned registry view name) :
    ∃ reference ∈ requests registry view, reference.fullName = name := by
  rcases planned with imported | qualified
  · obtain ⟨reference, asked, -, printed⟩ := asked_of_planned_import imported
    exact ⟨reference, asked, printed⟩
  · exact asked_of_qualified qualified

/-- What a view refers to is a class, or it is built in and has no namespace. -/
theorem nameSpace_of_builtin (asked : reference ∈ requests registry view) (isBuiltin : reference.builtin = true) :
    reference.nameSpace = "" := by
  rcases List.mem_cons.mp asked with rfl | referred
  · cases isBuiltin
  · obtain ⟨mention, -, rfl⟩ := List.mem_map.mp referred
    unfold Registry.typeReference at isBuiltin ⊢
    split
    · next identity held => simp [held, TypeReference.ofIdentity] at isBuiltin
    · next missing => exact nameSpace_ofFullName (by simpa [missing] using isBuiltin)

end Plan

/-! ### Registries without dots in local names -/

section Build
variable {config : Config} {corpus : Corpus}

/-- A view that is not registered is referred to by its path, which is cut at its last dot, so only the classes of
registered views can bring dots into local names. -/
theorem undotted_requests_build
    (undotted : ∀ key ∈ viewKeys config corpus, '.' ∉ (classOf config corpus key).localName.toList)
    (defined : view ∈ (Registry.build config corpus).views.values) :
    ∀ reference ∈ requests (Registry.build config corpus) view, Undotted reference := by
  obtain ⟨key, known, rfl⟩ := mem_views_build.mp defined
  intro reference asked
  rcases List.mem_cons.mp asked with rfl | referred
  · exact undotted key known
  · obtain ⟨mention, -, rfl⟩ := List.mem_map.mp referred
    rw [typeReference_build]
    split
    · next target => exact undotted mention.2 target
    · exact undotted_ofFullName mention.2.path

/-- File names bring no dots, so there are none unless the settings have them. -/
theorem undotted_of_settings (before : '.' ∉ (config.namePrefix.getD "").toList)
    (after : '.' ∉ config.nameSuffix.toList) (key : ViewKey) :
    '.' ∉ (classOf config corpus key).localName.toList := by
  have own := ClassNames.dot_not_mem_pascalCase (Naming.fileStem key.fileName)
  simp only [classOf, Naming.identify, Naming.localNameOf, Naming.ofViews, String.toList_append, List.mem_append,
    not_or]
  exact ⟨⟨before, own⟩, after⟩

/-- Whatever the settings are, a registry with a dot in a local name is not handed over. -/
theorem undotted_of_clean (clean : (Registry.build config corpus).hasErrors = false) :
    ∀ key ∈ viewKeys config corpus, '.' ∉ (classOf config corpus key).localName.toList := by
  intro key known dotted
  have written := (errors_viewOf_eq_nil.mp (hasErrors_build.mp clean key known)).1
  have continues := (identity_errors_eq_nil.mp written).2.continues '.' dotted
  exact absurd continues (by decide)

/-- Once a registry is handed over, every name in its plans stands for one reference, whatever the settings and the
corpus are. -/
theorem planned_names_of_validated (handedOver : (Registry.build config corpus).validated = .ok registry) :
    ∀ view ∈ registry.views.values, ∀ name, Planned registry view name →
      ∃ reference, StandsFor (requests registry view) name reference := by
  obtain ⟨clean, rfl⟩ := validated_eq_ok.mp handedOver
  intro view defined name planned
  have undotted := undotted_requests_build (undotted_of_clean clean) defined
  obtain ⟨reference, asked, printed⟩ := asked_of_planned planned
  exact ⟨reference, standsFor_of_undotted undotted asked printed⟩

end Build

/-! ### Full names decode -/

/-- The full name of a reference without a dot in its local name reads back to the reference exactly if it is built
in just where it has no namespace, and it always tells the namespace and the local name. So each import of a
file, after any calls, and each name in the plan of a view stand for one of the references that were asked for, a
class if the name is imported; and in a plan nothing is built in but what has no namespace. Within one run each
planned name is even that of one class alone, whatever the settings are. -/
theorem full_names_decode :
    (∀ reference, Undotted reference →
      (TypeReference.ofFullName reference.fullName = reference ↔
        (reference.builtin = true ↔ reference.nameSpace = ""))) ∧
    (∀ a b, Undotted a → Undotted b → a.fullName = b.fullName →
      a.nameSpace = b.nameSpace ∧ a.localName = b.localName) ∧
    (∀ start calls, (∀ reference ∈ requested start calls, Undotted reference) →
      ∀ name ∈ (run start calls).imports,
        ∃ reference, reference.builtin = false ∧ StandsFor (requested start calls) name reference) ∧
    (∀ registry view, (∀ reference ∈ requests registry view, Undotted reference) →
      (∀ name ∈ (registry.planOf view).imports,
        ∃ reference, reference.builtin = false ∧ StandsFor (requests registry view) name reference) ∧
      (∀ name ∈ (registry.planOf view).qualified,
        ∃ reference, StandsFor (requests registry view) name reference) ∧
      ∀ reference ∈ requests registry view, reference.builtin = true → reference.nameSpace = "") ∧
    ∀ config documents, ∀ view ∈ (Registry.build config (corpusOf config documents)).views.values,
      ∀ name, Planned (Registry.build config (corpusOf config documents)) view name →
        ∃! reference, reference ∈ requests (Registry.build config (corpusOf config documents)) view ∧
          reference.fullName = name := by
  refine ⟨fun reference => ofFullName_fullName_eq_iff, fun a b => parts_eq_of_fullName, ?_, ?_, ?_⟩
  · intro start calls undotted name imported
    obtain ⟨reference, asked, isClass, printed⟩ := asked_of_imported imported
    exact ⟨reference, isClass, standsFor_of_undotted undotted asked printed⟩
  · intro registry view undotted
    refine ⟨fun name imported => ?_, fun name qualified => ?_, fun reference => nameSpace_of_builtin⟩
    · obtain ⟨reference, asked, isClass, printed⟩ := asked_of_planned_import imported
      exact ⟨reference, isClass, standsFor_of_undotted undotted asked printed⟩
    · obtain ⟨reference, asked, printed⟩ := asked_of_qualified qualified
      exact ⟨reference, standsFor_of_undotted undotted asked printed⟩
  · -- Here local names may have dots, but all of them have the same ones.
    intro config documents view defined name planned
    obtain ⟨key, -, rfl⟩ := mem_views_build.mp defined
    have told := requests_distinguishable config documents key
    obtain ⟨reference, asked, printed⟩ := asked_of_planned planned
    refine ⟨reference, ⟨asked, printed⟩, fun other both => ?_⟩
    exact told.named other both.1 reference asked (both.2.trans printed.symm)

/-- Calls that ask for a class at the root, for the built-in type that is printed like it, and for a class in a
namespace with dots at its ends. -/
def rootCalls : List Call :=
  [.add ⟨"", "RootView", false⟩, .add (.ofBuiltin "RootView"), .addName "..shop.a..CardView"]

/-- A page that refers to a card at the root and to one in a directory. -/
def homePage : Json :=
  .object
    [("_template", .string "site/home.hbs"), ("first", .object [("_template", .string "card.hbs")]),
      ("second", .object [("_template", .string "news/card.hbs")])]

/-- The class at the root is imported by a name that reads back to the built-in type. In the plan of the page the
card at the root is imported and the other one is written in full. -/
theorem full_names_decode_home :
    let site := Start.inNamespace "site"
    let registry := Registry.build {} (corpusOf {} [(homePage, "page.json")])
    let home := viewOf {} (corpusOf {} [(homePage, "page.json")]) ⟨"site/home.hbs"⟩
    let root : TypeReference := ⟨"", "RootView", false⟩
    (Undotted ⟨"..shop.a.", "CardView", false⟩ ∧
      TypeReference.ofFullName "..shop.a..CardView" = ⟨"..shop.a.", "CardView", false⟩) ∧
    (Undotted root ∧ TypeReference.ofFullName root.fullName ≠ root ∧
      (TypeReference.ofFullName root.fullName).localName = root.localName) ∧
    ((∀ reference ∈ requested site rootCalls, Undotted reference) ∧
      ∃ reference, reference.builtin = false ∧ StandsFor (requested site rootCalls) "RootView" reference) ∧
    ((∀ reference ∈ requests registry home, Undotted reference) ∧
      (∃ reference, reference.builtin = false ∧ StandsFor (requests registry home) "CardView" reference) ∧
      ∃ reference, StandsFor (requests registry home) "news.CardView" reference) ∧
    ∃! reference, reference ∈ requests registry home ∧ reference.fullName = "news.CardView" := by
  intro site registry home root
  obtain ⟨decodes, parts, imports, plans, runs⟩ := full_names_decode
  have plain : Undotted root := by decide
  have read := parts _ root (undotted_ofFullName root.fullName) plain (by decide)
  have asked : ∀ reference ∈ requested site rootCalls, Undotted reference := by decide
  have rootImported : "RootView" ∈ (run site rootCalls).imports := by decide +kernel
  have defined : home ∈ registry.views.values := mem_views_build.mpr ⟨_, by decide +kernel, rfl⟩
  have referred := undotted_requests_build (fun key _ => undotted_of_settings (by decide) (by decide) key) defined
  have planned : registry.planOf home = ⟨.ofList ["CardView"], .ofList ["news.CardView"]⟩ := by decide +kernel
  obtain ⟨imported, qualified, -⟩ := plans registry home referred
  refine ⟨⟨by decide, ?_⟩, ⟨plain, ?_, read.2⟩, ⟨asked, ?_⟩, ⟨referred, ?_, ?_⟩, ?_⟩
  · exact (decodes ⟨"..shop.a.", "CardView", false⟩ (by decide)).mpr (by decide)
  · exact fun same => absurd ((decodes root plain).mp same) (by decide)
  · exact imports site rootCalls asked "RootView" rootImported
  · exact imported "CardView" (by rw [planned]; decide)
  · exact qualified "news.CardView" (by rw [planned]; decide)
  · exact runs {} [(homePage, "page.json")] home defined "news.CardView" (.inr (by rw [planned]; decide))

end ViewSchema.FullNameDecoding
