import ViewSchema.Proofs.NameResolution

/-! The references of one file over a whole run of calls. Whatever the calls are and however they are mixed, what
the file answers depends on two lists alone: the references that were asked for, with the own class in front,
and the namespaces that were opened. The first reference with a local name owns it for good, also where it
needs no import; a refused reference leaves no trace; and a namespace that is opened late counts as if it had
been open from the start. -/
namespace ViewSchema.ImportRuns
open NameResolution

/-- What a run starts with: nothing but a namespace, or the class of a view. -/
inductive Start where
  | inNamespace (nameSpace : String)
  | forView (identity : Identity)

/-- One call of a run. -/
inductive Call where
  | add (reference : TypeReference)
  /-- A reference that is given by its full name. -/
  | addName (fullName : String)
  /-- Namespaces whose classes need no import from now on. -/
  | openNamespaces (names : List String)

namespace Start

def set : Start → ImportSet
  | inNamespace nameSpace => .inNamespace nameSpace
  | forView identity => .forView identity

def nameSpace : Start → String
  | inNamespace nameSpace => nameSpace
  | forView identity => identity.nameSpace

/-- The class of a view owns its local name from the start. -/
def reserved : Start → List TypeReference
  | inNamespace _ => []
  | forView identity => [.ofIdentity identity]

end Start

namespace Call

/-- What a call comes to: the file after it, or a conflict. -/
def answer (set : ImportSet) : Call → Except ImportConflict ImportSet
  | add reference => set.add reference
  | addName fullName => set.addName fullName
  | openNamespaces names => .ok (set.withImplicitNamespaces names)

/-- The reference that a call asks for, if it asks for one. -/
def asked : Call → List TypeReference
  | add reference => [reference]
  | addName fullName => [.ofFullName fullName]
  | openNamespaces _ => []

/-- The namespaces that a call opens. -/
def opened : Call → List String
  | add _ => []
  | addName _ => []
  | openNamespaces names => names

end Call

/-- The file after a call; it stays as it is where the call is refused. -/
def perform (set : ImportSet) (call : Call) : ImportSet :=
  match call.answer set with
  | .ok next => next
  | .error _ => set

/-- The file after some calls, one after the other. -/
def run (start : Start) (calls : List Call) : ImportSet := calls.foldl perform start.set

/-- Everything that asked for a local name, in the order of asking, whether it got the name or not. -/
def requested (start : Start) (calls : List Call) : List TypeReference :=
  start.reserved ++ calls.flatMap Call.asked

/-! ### One call -/

section Step
variable (set : ImportSet) (call : Call)

/-- Adding to a file is adding to a draft of it, without the names that are written in full. -/
theorem perform_add (reference : TypeReference) :
    perform set (.add reference) = (ReferencePlan.Draft.add { set } reference).set := by
  rw [perform, Call.answer, ReferencePlan.Draft.add]
  cases set.add reference <;> rfl

theorem owners_perform (name : String) : (perform set call).owners.get? name =
    (set.owners.get? name).or (ownerOf? call.asked name) := by
  have one : ∀ reference : TypeReference, (perform set (.add reference)).owners.get? name =
      (set.owners.get? name).or (ownerOf? [reference] name) := by
    intro reference
    rw [perform_add, owners_add]
    by_cases named : reference.localName = name <;> simp [ownerOf?, named]
  cases call with
  | add reference => exact one reference
  | addName fullName => exact one (.ofFullName fullName)
  | openNamespaces names => exact Option.or_none.symm

/-- A call moves nothing but owners and opened namespaces. -/
theorem reach_perform : (perform set call).nameSpace = set.nameSpace ∧
    ∀ name, name ∈ (perform set call).implicitNamespaces ↔
      name ∈ set.implicitNamespaces ∨ name ∈ call.opened := by
  have one : ∀ reference : TypeReference, (perform set (.add reference)).nameSpace = set.nameSpace ∧
      (perform set (.add reference)).implicitNamespaces = set.implicitNamespaces := by
    intro reference
    rw [perform_add]
    rcases add_cases { set } reference with ⟨_, added⟩ | ⟨_, added⟩ | ⟨_, _, _, added⟩ <;> simp [added]
  cases call with
  | add reference => simp [one, Call.opened]
  | addName fullName =>
    have parsed : perform set (.addName fullName) = perform set (.add (.ofFullName fullName)) := rfl
    simp [parsed, one, Call.opened]
  | openNamespaces names =>
    simp [perform, Call.answer, Call.opened, ImportSet.withImplicitNamespaces]

end Step

/-! ### A whole run -/

section Run
variable (start : Start) (calls : List Call)

theorem run_append (call : Call) : run start (calls ++ [call]) = perform (run start calls) call := by
  simp [run]

theorem requested_append (call : Call) :
    requested start (calls ++ [call]) = requested start calls ++ call.asked := by
  simp [requested]

theorem owners_foldl_perform (set : ImportSet) (name : String) :
    (calls.foldl perform set).owners.get? name =
      (set.owners.get? name).or (ownerOf? (calls.flatMap Call.asked) name) := by
  induction calls generalizing set with
  | nil => simp [ownerOf?]
  | cons call rest ih =>
    rw [List.foldl_cons, ih, owners_perform, Option.or_assoc, List.flatMap_cons, ownerOf?_append]

/-- A local name belongs to the first that asked for it. -/
theorem owners_run (name : String) :
    (run start calls).owners.get? name = ownerOf? (requested start calls) name := by
  have own : start.set.owners.get? name = ownerOf? start.reserved name := by
    cases start with
    | inNamespace nameSpace => rfl
    | forView identity => exact owners_forView identity name
  rw [run, owners_foldl_perform, own, requested, ownerOf?_append]

theorem reach_foldl_perform (set : ImportSet) : (calls.foldl perform set).nameSpace = set.nameSpace ∧
    ∀ name, name ∈ (calls.foldl perform set).implicitNamespaces ↔
      name ∈ set.implicitNamespaces ∨ name ∈ calls.flatMap Call.opened := by
  induction calls generalizing set with
  | nil => simp
  | cons call rest ih =>
    obtain ⟨nameSpace, namespaces⟩ := reach_perform set call
    obtain ⟨laterSpace, laterSpaces⟩ := ih (perform set call)
    refine ⟨laterSpace.trans nameSpace, fun name => ?_⟩
    rw [List.foldl_cons, laterSpaces, namespaces, List.flatMap_cons, List.mem_append, or_assoc]

/-- A reference needs an import unless its namespace is the own one or was opened at any point of the run. -/
theorem needsImport_run (reference : TypeReference) : (run start calls).needsImport reference = true ↔
    reference.builtin = false ∧ ¬ InReach start.nameSpace (calls.flatMap Call.opened) reference := by
  obtain ⟨nameSpace, namespaces⟩ := reach_foldl_perform calls start.set
  have own : start.set.nameSpace = start.nameSpace := by cases start <;> rfl
  have closed : ∀ name, name ∉ start.set.implicitNamespaces := by
    intro name
    cases start <;> exact SortedSet.not_mem_empty
  rw [needsImport_iff, InReach, InReach, run, nameSpace, own, ← SortedSet.mem_def, namespaces,
    or_iff_right (closed _)]

/-- A call that asks for a reference gets it if nobody else asked for its local name before; otherwise it is
told who did. -/
theorem answer_cases {call : Call} (asked : reference ∈ call.asked) :
    (Owns (requested start (calls ++ [call])) reference ∧ ∃ set, call.answer (run start calls) = .ok set) ∨
      ∃ owner, owner ≠ reference ∧
        ownerOf? (requested start (calls ++ [call])) reference.localName = some owner ∧
          call.answer (run start calls) = .error ⟨owner, reference⟩ := by
  have added : call.answer (run start calls) = (run start calls).add reference ∧ call.asked = [reference] := by
    cases call with
    | add other =>
      obtain rfl := List.mem_singleton.mp asked
      exact ⟨rfl, rfl⟩
    | addName fullName =>
      obtain rfl := List.mem_singleton.mp asked
      exact ⟨rfl, rfl⟩
    | openNamespaces names => cases asked
  have owner : ownerOf? (requested start (calls ++ [call])) reference.localName =
      ((run start calls).owners.get? reference.localName).or (some reference) := by
    rw [requested_append, ownerOf?_append, ← owners_run, added.2]
    simp [ownerOf?]
  rw [Owns, owner, added.1, ImportSet.add]
  cases (run start calls).owners.get? reference.localName with
  | none => exact .inl ⟨rfl, _, rfl⟩
  | some owner =>
    by_cases same : owner = reference
    · exact .inl ⟨congrArg some same, _, if_pos same⟩
    · exact .inr ⟨owner, same, rfl, if_neg same⟩

/-- What a file answers after some calls. -/
structure Answers : Prop where
  /-- A reference is accepted exactly if the first one that asked for its local name is the same. -/
  accepted : ∀ call, ∀ reference ∈ call.asked,
    (call.answer (run start calls) = .ok (run start (calls ++ [call])) ↔
      Owns (requested start (calls ++ [call])) reference)
  /-- Any other reference is refused, with the one that was first, and the file stays as it is. -/
  refused : ∀ call, ∀ reference ∈ call.asked, ¬ Owns (requested start (calls ++ [call])) reference →
    ∃ owner, ownerOf? (requested start (calls ++ [call])) reference.localName = some owner ∧
      call.answer (run start calls) = .error ⟨owner, reference⟩ ∧
      ImportConflict.toFailure ⟨owner, reference⟩ =
        .importConflict reference.localName owner.fullName reference.fullName ∧
      run start (calls ++ [call]) = run start calls
  contains : ∀ reference,
    (run start calls).contains reference = true ↔ Owns (requested start calls) reference
  ascending : (run start calls).imports.toList.Pairwise (· < ·)
  /-- Imported is what owns its local name, is no built-in type and stands in no namespace in reach. -/
  imported : ∀ name, name ∈ (run start calls).imports ↔
    ∃ reference, Owns (requested start calls) reference ∧ reference.builtin = false ∧
      ¬ InReach start.nameSpace (calls.flatMap Call.opened) reference ∧ reference.fullName = name

end Run

/-- Every run of calls answers by who asked first and by what was opened. -/
theorem run_answers (start : Start) (calls : List Call) : Answers start calls where
  accepted call reference asked := by
    rcases answer_cases start calls asked with ⟨owns, set, accepted⟩ | ⟨owner, other, owned, refused⟩
    · exact iff_of_true (by rw [run_append, perform, accepted]) owns
    · refine iff_of_false (by simp [refused]) fun owns => other ?_
      exact Option.some.inj (owned.symm.trans owns)
  refused call reference asked late := by
    rcases answer_cases start calls asked with ⟨owns, _⟩ | ⟨owner, other, owned, refused⟩
    · exact absurd owns late
    · exact ⟨owner, owned, refused, rfl, by rw [run_append, perform, refused]⟩
  contains reference := by
    rw [ImportSet.contains, owners_run, beq_iff_eq, Owns]
  ascending := SortedSet.pairwise_lt _
  imported name := by
    simp only [mem_imports_of_owners (owners_run start calls), needsImport_run, and_assoc]

/-- Calls on the file of a page: a card, another card with its local name, a built-in type with that name, the
first card again, another page, a link, a class at the root, and the namespace of the link at last. -/
def pageCalls : List Call :=
  [.addName "shop.a.CardView", .addName "shop.b.CardView", .add (.ofBuiltin "CardView"),
    .addName "shop.a.CardView", .addName "old.PageView", .addName "util.Link",
    .add ⟨"", "RootView", false⟩, .openNamespaces ["util"]]

/-- The first card and the class at the root are imported. The link owns its name without an import, and nothing
is left of what came too late. -/
theorem run_answers_page :
    let page := Start.forView ⟨⟨"page.hbs"⟩, "site", "PageView"⟩
    Answers page pageCalls ∧
      (run page pageCalls).imports = .ofList ["RootView", "shop.a.CardView"] ∧
      (run page pageCalls).contains (.ofFullName "util.Link") = true ∧
      (run page pageCalls).contains (.ofFullName "shop.b.CardView") = false ∧
      (run page pageCalls).contains (.ofBuiltin "CardView") = false :=
  ⟨run_answers _ _, by decide +kernel, by decide +kernel, by decide +kernel, by decide +kernel⟩

end ViewSchema.ImportRuns
