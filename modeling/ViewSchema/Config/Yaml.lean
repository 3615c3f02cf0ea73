import ViewSchema.Config.Decode
import ViewSchema.Yaml.Document

/-! Configurations in YAML. A configuration is a mapping with any of the known keys, or a text that says
nothing. A scalar is taken by its text wherever a text is expected, however it is written; only a plain
scalar can be a null or an empty set. -/

namespace ViewSchema

namespace Yaml

def nullTag : Tag := "tag:yaml.org,2002:null".toUTF8.toList

def boolTag : Tag := "tag:yaml.org,2002:bool".toUTF8.toList

/-- Spellings of null; an empty plain scalar is one too. -/
def nullTexts : List String := ["~", "null", "Null", "NULL"]

def boolOfText? (text : String) : Option Bool :=
  if ["true", "True", "TRUE"].contains text then some true
  else if ["false", "False", "FALSE"].contains text then some false
  else none

/-- The name of a private tag, which is all of it after its sign, or the sign if it stands alone. -/
def privateName? (tag : Tag) : Option String :=
  match tag with
  | [] => none
  | sign :: rest =>
    if sign = '!'.toNat.toUInt8 then
      String.fromUTF8? ⟨(if rest.isEmpty then [sign] else rest).toArray⟩
    else none

namespace Document

def text? (d : Document) (node : Node) : Option String :=
  match d.resolve node with
  | .scalar _ _ text => some text
  | _ => none

/-- A truth value: a plain scalar, or a literal one that is tagged as a truth value. -/
def bool? (d : Document) (node : Node) : Option Bool :=
  match d.resolve node with
  | .scalar .plain _ text => boolOfText? text
  | .scalar .literal (some tag) text => if tag = boolTag then boolOfText? text else none
  | _ => none

/-- A text, or a null in place of it. What is tagged as a null has to be spelled as one. -/
def optionalText? (d : Document) (node : Node) : Option (Option String) :=
  match d.resolve node with
  | .scalar .plain none text => some (if text.isEmpty || nullTexts.contains text then none else some text)
  | .scalar .plain (some tag) text =>
    if tag ≠ nullTag then some (some text)
    else if nullTexts.contains text then some none
    else none
  | .scalar _ _ text => some (some text)
  | _ => none

/-- The set of texts in a sequence; nothing is the empty set. -/
def textSet? (d : Document) (node : Node) : Option (SortedSet String) :=
  match d.resolve node with
  | .sequence items => do return .ofList (← items.mapM d.text?)
  | .scalar .plain _ "" => some .empty
  | _ => none

/-- One of several names: as a text, or as a private tag on a null. -/
def choice? (d : Document) (node : Node) : Option String :=
  match d.resolve node with
  | .scalar style tag text =>
    match tag.bind privateName? with
    | none => some text
    | some name =>
      if style = .plain && (text.isEmpty || nullTexts.contains text) then some name else none
  | _ => none

end Document

end Yaml

namespace Config

/-- The configuration with one setting taken from a YAML value; an unknown key changes nothing. -/
def withYamlSetting? (config : Config) (d : Yaml.Document) (key : String) (value : Yaml.Node) :
    Option Config :=
  match key with
  | "namespace_prefix" => do return { config with namespacePrefix := ← d.text? value }
  | "name_prefix" => do return { config with namePrefix := ← d.optionalText? value }
  | "name_suffix" => do return { config with nameSuffix := ← d.text? value }
  | "strict" => do return { config with strict := ← d.bool? value }
  | "conflict_policy" => do
    return { config with conflictPolicy := ← ConflictPolicy.ofName? (← d.choice? value) }
  | "map_templates" => do return { config with mapTemplates := ← d.textSet? value }
  | "map_keys" => do return { config with mapKeys := ← d.textSet? value }
  | "implicit_namespaces" => do return { config with implicitNamespaces := ← d.textSet? value }
  | _ => some config

def ofYaml? (d : Yaml.Document) : Option Config :=
  match d.resolve d.root with
  | .mapping entries => do
    let keys ← entries.mapM fun (key, _) => d.text? key
    guard (settingKeys.all fun key => keys.count key ≤ 1)
    (keys.zip (entries.map Prod.snd)).foldlM
      (fun config (key, value) => config.withYamlSetting? d key value) {}
  | .scalar .plain _ "" => some {}
  | _ => none

/-- The configuration that a YAML text describes; a text that says nothing describes the default. -/
def ofYamlText? (text : String) : Option Config := do
  match ← Yaml.parse? text with
  | none => return {}
  | some d => ofYaml? d

end Config

end ViewSchema
