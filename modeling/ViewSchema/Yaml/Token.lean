/-! The tokens of a YAML text. The tokens for the starts and ends of block collections stand for no
character: they say where the indentation opens and closes a collection. -/

namespace ViewSchema.Yaml

/-- How a scalar is written. -/
inductive Style where
  | plain
  | singleQuoted
  | doubleQuoted
  | literal
  | folded
deriving DecidableEq

/-- The name of the kind of a node, as bytes: percent escapes can write bytes that are no text. -/
abbrev Tag := List UInt8

/-- What a YAML text consists of. -/
inductive Token where
  /-- The version of YAML that a document asks for. -/
  | version (major minor : Nat)
  /-- A handle for tags, and the bytes that it stands for. -/
  | handle (name : String) (start : Tag)
  | documentStart
  | documentEnd
  | blockSequenceStart
  | blockMappingStart
  | blockEnd
  | flowSequenceStart
  | flowSequenceEnd
  | flowMappingStart
  | flowMappingEnd
  | blockEntry
  | flowEntry
  | key
  | value
  | anchor (name : String)
  /-- A node that stands in place of the one with this anchor. -/
  | reference (name : String)
  /-- A tag as a handle, which is empty if there is none, and what follows it. -/
  | tag (handle : String) (suffix : Tag)
  | scalar (style : Style) (text : String)
deriving DecidableEq

end ViewSchema.Yaml
