import ViewSchema.Config.Basic
import ViewSchema.Json.Basic
import ViewSchema.Kind.Order

/-! The kind of a JSON value. An object is an instance of a view if one of its markers names one;
otherwise, or if the configuration says so, it is a bag of values. Keys that start with an underscore
hold remarks about an object and never values of it. -/

namespace ViewSchema

/-- Whether a key holds a remark about an object rather than a value of it. -/
def isMetaKey (key : String) : Bool := key.toList.head? == some '_'

/-- The keys that name the view of an object; the first that names one counts. -/
def viewMarkers : List String := ["_template", "_view"]

/-- The view that an object's markers name. A marker that holds no text, or only blanks, names none. -/
def viewMarker? (members : List (String × Json)) : Option ViewKey :=
  viewMarkers.findSome? fun marker => do
    let path ← (← Json.member? members marker).text?
    if (Text.trim path).isEmpty then none else some (ViewKey.ofPath path)

/-- The view that an object is an instance of, unless its instances are configured to be bags. -/
def instanceKey? (config : Config) (members : List (String × Json)) : Option ViewKey :=
  (viewMarker? members).filter fun key => !config.isMapTemplate key

mutual

/-- The kind of a value; nothing is learned from a null. An object that stands `asBag` is a bag whatever
its markers say. -/
def kindOf (config : Config) (asBag : Bool) : Json → Option Kind
  | .null => none
  | .bool _ => some .boolean
  | .number _ => some .number
  | .string _ => some .string
  | .array items => some (.listOf (kindsOfItems config items))
  | .object members =>
    match if asBag then none else instanceKey? config members with
    | some key => some (.objectReference key)
    | none => some (.mapOf (kindsOfMembers config members))

def kindsOfItems (config : Config) : List Json → List Kind
  | [] => []
  | item :: rest => (kindOf config false item).toList ++ kindsOfItems config rest

def kindsOfMembers (config : Config) : List (String × Json) → List Kind
  | [] => []
  | (key, value) :: rest =>
    (if isMetaKey key then [] else (kindOf config (config.isMapField key) value).toList) ++
      kindsOfMembers config rest

end

/-- The kind of a value that no field is known for. -/
def classify (config : Config) (value : Json) : Option Kind := kindOf config false value

/-- The kind of a value in a named field. -/
def classifyField (config : Config) (field : String) (value : Json) : Option Kind :=
  kindOf config (config.isMapField field) value

end ViewSchema
