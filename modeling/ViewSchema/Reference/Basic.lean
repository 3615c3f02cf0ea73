import ViewSchema.Naming.Identity

/-! References to classes from generated code. A reference to a built-in type has no namespace, and so has
one to a class at the root; only the former never needs an import. -/

namespace ViewSchema

/-- A class or a built-in type, as generated code refers to it. -/
structure TypeReference where
  nameSpace : String
  localName : String
  builtin : Bool := false
deriving DecidableEq

namespace TypeReference

instance : Inhabited TypeReference := ⟨⟨"", "", true⟩⟩

def ofBuiltin (name : String) : TypeReference := ⟨"", name, true⟩

/-- The class with a full name; a name without a dot is that of a built-in type. -/
def ofFullName (name : String) : TypeReference :=
  match Text.cutAtLast '.' name with
  | some (nameSpace, localName) => ⟨nameSpace, localName, false⟩
  | none => ofBuiltin name

def ofIdentity (identity : Identity) : TypeReference := ⟨identity.nameSpace, identity.localName, false⟩

def fullName (reference : TypeReference) : String := qualify reference.nameSpace reference.localName

end TypeReference

end ViewSchema
