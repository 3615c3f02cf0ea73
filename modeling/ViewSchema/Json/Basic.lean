import ViewSchema.Json.Binary64
import ViewSchema.Order.SortedMap

/-! JSON values. The members of an object are kept as a list of entries, because a reader has to see
a key that is written twice; a document is brought into canonical form, with ascending keys of which
the last entry counts, before anything is inferred from it. -/

namespace ViewSchema

namespace Json

/-- A number is kept as it was written: an integer of at most 64 bits, or a double. -/
inductive Number where
  | integer (value : Int)
  | float (value : Binary64)
deriving DecidableEq

def Number.render : Number → String
  | .integer value => toString value
  | .float value => value.render

end Json

/-- A JSON value. -/
inductive Json where
  | null
  | bool (value : Bool)
  | number (value : Json.Number)
  | string (value : String)
  | array (items : List Json)
  | object (members : List (String × Json))

namespace Json

instance : Inhabited Json := ⟨.null⟩

def text? : Json → Option String
  | .string value => some value
  | _ => none

def bool? : Json → Option Bool
  | .bool value => some value
  | _ => none

def items? : Json → Option (List Json)
  | .array items => some items
  | _ => none

def members? : Json → Option (List (String × Json))
  | .object members => some members
  | _ => none

/-- The value under a key of an object's members. -/
def member? (members : List (String × Json)) (key : String) : Option Json := members.lookup key

/-- An object from fields in any order: the keys are put into ascending order. -/
def record (fields : List (String × Json)) : Json := .object (SortedMap.ofList fields).entries

def texts (values : List String) : Json := .array (values.map .string)

def count (n : Nat) : Json := .number (.integer n)

mutual

/-- The value with the keys of every object in ascending order, each with its last value. -/
def canonical : Json → Json
  | .array items => .array (canonicalItems items)
  | .object members => record (canonicalMembers members)
  | .null => .null
  | .bool value => .bool value
  | .number value => .number value
  | .string value => .string value

/-- The items, each in canonical form. -/
def canonicalItems : List Json → List Json
  | [] => []
  | item :: rest => canonical item :: canonicalItems rest

/-- The members in the order given, each value in canonical form. -/
def canonicalMembers : List (String × Json) → List (String × Json)
  | [] => []
  | (key, value) :: rest => (key, canonical value) :: canonicalMembers rest

end

end Json

end ViewSchema
