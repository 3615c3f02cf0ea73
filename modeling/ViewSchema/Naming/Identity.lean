import ViewSchema.Text.Grammar
import ViewSchema.ViewKey

/-! The class that stands for a view in generated code: a dotted namespace and a local name. -/

namespace ViewSchema

/-- The class of a view. -/
structure Identity where
  key : ViewKey
  /-- The dotted namespace of the class, empty at the root. -/
  nameSpace : String
  localName : String
deriving DecidableEq

/-- A namespace and a local name, joined by a dot unless the namespace is the root. -/
def qualify (nameSpace localName : String) : String :=
  if nameSpace.isEmpty then localName else nameSpace ++ "." ++ localName

/-- Why a class cannot be written in generated code. -/
inductive IdentityFault where
  /-- A step of the namespace is no identifier. -/
  | namespaceSegment (segment : String)
  /-- The local name is no identifier. -/
  | localName (name : String)
deriving DecidableEq

def IdentityFault.reason : IdentityFault → String
  | namespaceSegment segment => "namespace segment [" ++ segment ++ "] is not a valid identifier"
  | localName name => "local name [" ++ name ++ "] is not a valid identifier"

namespace Identity

instance : Inhabited Identity := ⟨⟨default, "", ""⟩⟩

/-- The name of the class with its namespace in front. -/
def fullName (identity : Identity) : String := qualify identity.nameSpace identity.localName

/-- The class with the view that it stands for. -/
def describe (identity : Identity) : String := identity.fullName ++ " (" ++ identity.key.path ++ ")"

/-- The steps of the namespace; the root has none. -/
def namespaceSegments (identity : Identity) : List String :=
  if identity.nameSpace.isEmpty then [] else Text.cutAt (· == '.') identity.nameSpace

/-- What keeps the class from being written: the first bad step of the namespace, then a bad local
name. -/
def faults (identity : Identity) : List IdentityFault :=
  ((identity.namespaceSegments.find? (!Text.isIdentifier ·)).map IdentityFault.namespaceSegment).toList ++
    if Text.isIdentifier identity.localName then [] else [.localName identity.localName]

end Identity

end ViewSchema
