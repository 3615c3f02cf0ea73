import ViewSchema.Naming.Identity
import ViewSchema.Unification

/-! Findings about views. They are collected while a run goes on, each against the view or field it is
about, so that one bad field never hides another. -/

namespace ViewSchema

/-- A finding that keeps a view from being used. -/
inductive DefinitionError where
  /-- The kinds of a field have no type in common. -/
  | untypedField (view : ViewKey) (field : String) (cause : UnifyError)
  /-- The class of a view cannot be written. -/
  | invalidIdentity (view : ViewKey) (className : String) (fault : IdentityFault)
  /-- Other views have the same class. -/
  | nameCollision (view : ViewKey) (className : String) (others : List ViewKey)
deriving DecidableEq

def fieldPlace (view : ViewKey) (field : String) : String := "(" ++ view.path ++ " - " ++ field ++ ") "

def viewPlace (view : ViewKey) : String := "(" ++ view.path ++ ") "

def nameList (names : List String) : String := "[" ++ ", ".intercalate names ++ "]"

namespace DefinitionError

def view : DefinitionError → ViewKey
  | untypedField view _ _ => view
  | invalidIdentity view _ _ => view
  | nameCollision view _ _ => view

/-- The field that the finding is about, if it is about one. -/
def field? : DefinitionError → Option String
  | untypedField _ field _ => some field
  | invalidIdentity _ _ _ => none
  | nameCollision _ _ _ => none

def message : DefinitionError → String
  | untypedField view field cause => fieldPlace view field ++ cause.message
  | invalidIdentity view className fault =>
    viewPlace view ++ "resolves to invalid class identity [" ++ className ++ "]: " ++ fault.reason
  | nameCollision view className others =>
    viewPlace view ++ "resolves to a conflicting class name [" ++ className ++ "] shared with: " ++
      nameList (others.map ViewKey.path)

end DefinitionError

/-- A mixture of kinds that was tolerated in a field. -/
structure Warning where
  view : ViewKey
  field : String
  loosening : Loosening
deriving DecidableEq

def Warning.message (warning : Warning) : String :=
  fieldPlace warning.view warning.field ++
    match warning.loosening with
    | .referenceOrString kinds =>
      "has multiple value types " ++ nameList kinds ++
        ", but this is a common use case so it is allowed"
    | .fallback kinds =>
      "has conflicting value types " ++ nameList kinds ++ ", falling back to an opaque type"

def Identity.errors (identity : Identity) : List DefinitionError :=
  identity.faults.map (.invalidIdentity identity.key identity.fullName)

end ViewSchema
