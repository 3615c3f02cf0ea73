import ViewSchema.Classification
import ViewSchema.Corpus

/-! What a document shows of the views it uses. The walk goes through arrays and through the values of
objects, and stops at every instance of a view to note the view and the values of its fields before it
goes on inside them. -/

namespace ViewSchema

/-- The key of an object's remark about its view. -/
def noteKey : String := "_note"

/-- The key of an object's remarks about the fields of its view. -/
def fieldNotesKey : String := "_fieldNotes"

def viewNote? (members : List (String × Json)) : Option String := do
  (← Json.member? members noteKey).text?

/-- What an object says about one field of its view. -/
def fieldNote? (members : List (String × Json)) (field : String) : Option String := do
  let notes ← (← Json.member? members fieldNotesKey).members?
  (← Json.member? notes field).text?

/-- The sample of a field, if anything is learned from its value. `members` is the whole instance. -/
def fieldSample? (config : Config) (origin : String) (view : ViewKey) (members : List (String × Json))
    (field : String) (value : Json) : Option Sample :=
  (classifyField config field value).map fun kind =>
    { view, field, kind, payload := value, origin, note := fieldNote? members field }

mutual

/-- What a value shows. An object that stands `asBag` is searched without being an instance itself. -/
def observe (config : Config) (origin : String) (asBag : Bool) : Json → List Observation
  | .array items => observeItems config origin items
  | .object members =>
    match if asBag then none else instanceKey? config members with
    | some view =>
      .usage view origin (viewNote? members) :: observeFields config origin view members members
    | none => observeMembers config origin members
  | .null => []
  | .bool _ => []
  | .number _ => []
  | .string _ => []

/-- What the items of an array show, one after the other. -/
def observeItems (config : Config) (origin : String) : List Json → List Observation
  | [] => []
  | item :: rest => observe config origin false item ++ observeItems config origin rest

/-- What the values of a bag show, one after the other. -/
def observeMembers (config : Config) (origin : String) : List (String × Json) → List Observation
  | [] => []
  | (key, value) :: rest =>
    (if isMetaKey key then [] else observe config origin false value) ++
      observeMembers config origin rest

/-- What the fields of an instance show: for each field its sample, and then what is inside its value.
`whole` is the instance, `members` the part of it that is left. -/
def observeFields (config : Config) (origin : String) (view : ViewKey) (whole : List (String × Json)) :
    (members : List (String × Json)) → List Observation
  | [] => []
  | (field, value) :: rest =>
    (if isMetaKey field then []
      else
        ((fieldSample? config origin view whole field value).map Observation.sample).toList ++
          observe config origin (config.isMapField field) value) ++
      observeFields config origin view whole rest

end

/-- Everything that a document shows of the views it uses, in the order of a walk through it. -/
def observations (config : Config) (origin : String) (document : Json) : List Observation :=
  observe config origin false document

/-- The corpus after what one more document shows. -/
def Corpus.extract (config : Config) (corpus : Corpus) (document : Json) (origin : String) : Corpus :=
  corpus.recordAll (observations config origin document)

def Corpus.ofDocument (config : Config) (document : Json) (origin : String) : Corpus :=
  (∅ : Corpus).extract config document origin

end ViewSchema
