import ViewSchema.Failure
import ViewSchema.Reference.Basic
import ViewSchema.Order.SortedMap

/-! The references of one generated file by their local names. The first reference with a local name owns
the name; another one with the same local name has to be written in full. What lies in the file's own
namespace, or in one that is imported anyway, owns its name without being imported. -/

namespace ViewSchema

/-- A local name that is asked for by two references. -/
structure ImportConflict where
  /-- The reference that owns the name. -/
  existing : TypeReference
  /-- The reference that cannot have it. -/
  rejected : TypeReference
deriving DecidableEq

/-- The failure that a conflict comes to where the rejected reference cannot be written in full. -/
def ImportConflict.toFailure (conflict : ImportConflict) : Failure :=
  .importConflict conflict.rejected.localName conflict.existing.fullName conflict.rejected.fullName

/-- The references of one generated file. -/
structure ImportSet where
  /-- The namespace of the file. -/
  nameSpace : String
  /-- Namespaces whose classes need no import. -/
  implicitNamespaces : SortedSet String := .empty
  /-- The owner of each local name. -/
  owners : SortedMap String TypeReference := .empty

namespace ImportSet

/-- The references of an empty file in a namespace. -/
def inNamespace (nameSpace : String) : ImportSet := { nameSpace }

/-- The references of a file that holds nothing but the class of a view, which owns its own name. -/
def forView (identity : Identity) : ImportSet :=
  let own := TypeReference.ofIdentity identity
  { nameSpace := identity.nameSpace, owners := .insert .empty own.localName own }

/-- The file with more namespaces whose classes need no import. -/
def withImplicitNamespaces (set : ImportSet) (names : List String) : ImportSet :=
  { set with implicitNamespaces := set.implicitNamespaces ∪ .ofList names }

/-- The file with one more reference, unless its local name belongs to another one. -/
def add (set : ImportSet) (reference : TypeReference) : Except ImportConflict ImportSet :=
  match set.owners.get? reference.localName with
  | none => .ok { set with owners := set.owners.insert reference.localName reference }
  | some existing => if existing = reference then .ok set else .error ⟨existing, reference⟩

/-- The file with one more reference, given by its full name. -/
def addName (set : ImportSet) (fullName : String) : Except ImportConflict ImportSet :=
  set.add (.ofFullName fullName)

/-- Whether the reference can be written by its local name alone. -/
def contains (set : ImportSet) (reference : TypeReference) : Bool :=
  set.owners.get? reference.localName == some reference

/-- Whether a reference that owns its local name has to be imported. -/
def needsImport (set : ImportSet) (reference : TypeReference) : Bool :=
  !reference.builtin && reference.nameSpace != set.nameSpace &&
    !set.implicitNamespaces.toList.contains reference.nameSpace

def imports (set : ImportSet) : SortedSet String :=
  .ofList ((set.owners.values.filter set.needsImport).map TypeReference.fullName)

end ImportSet

/-- How the references of one generated file are written. -/
structure ReferencePlan where
  /-- The full names of the classes that are imported. -/
  imports : SortedSet String := .empty
  /-- The full names of the classes that are written in full. -/
  qualified : SortedSet String := .empty
deriving DecidableEq

/-- A file whose references are being added, with those that had to be written in full so far. -/
structure ReferencePlan.Draft where
  set : ImportSet
  qualified : SortedSet String := .empty

namespace ReferencePlan

/-- The draft with one more reference, written in full if its local name belongs to another one. -/
def Draft.add (draft : Draft) (reference : TypeReference) : Draft :=
  match draft.set.add reference with
  | .ok set => { draft with set }
  | .error _ => { draft with qualified := draft.qualified.insert reference.fullName }

/-- How references are written that are added to a file one after the other. -/
def ofReferences (set : ImportSet) (references : List TypeReference) : ReferencePlan :=
  let draft := references.foldl Draft.add { set }
  ⟨draft.set.imports, draft.qualified⟩

end ReferencePlan

end ViewSchema
