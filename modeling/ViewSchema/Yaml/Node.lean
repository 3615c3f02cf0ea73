import ViewSchema.Yaml.Token

/-! YAML values. A value may be anchored under a number, and a reference stands for the value with its
number. When a number is given out twice, the value that starts last has it. -/

namespace ViewSchema.Yaml

/-- A YAML value as it is written. -/
inductive Node where
  | scalar (style : Style) (tag : Option Tag) (text : String)
  | sequence (items : List Node)
  | mapping (entries : List (Node × Node))
  /-- A value under a number. -/
  | anchored (id : Nat) (node : Node)
  /-- The value with a number. -/
  | reference (id : Nat)

/-- The value of a place where nothing is written. -/
def Node.nothing : Node := .scalar .plain none ""

mutual

/-- The anchored values in a value, in the order in which they start. -/
def Node.anchors : Node → List (Nat × Node)
  | .scalar .. => []
  | .sequence items => itemAnchors items
  | .mapping entries => entryAnchors entries
  | .anchored id node => (id, node) :: node.anchors
  | .reference _ => []

/-- The anchored values in the items of a sequence. -/
def itemAnchors : List Node → List (Nat × Node)
  | [] => []
  | item :: rest => item.anchors ++ itemAnchors rest

/-- The anchored values in the entries of a mapping. -/
def entryAnchors : List (Node × Node) → List (Nat × Node)
  | [] => []
  | (key, value) :: rest => key.anchors ++ (value.anchors ++ entryAnchors rest)

end

/-- What a text says: a value, and the values that references stand for. -/
structure Document where
  root : Node
  /-- The anchored values, the one that starts last first. -/
  anchored : List (Nat × Node)

def Document.ofRoot (root : Node) : Document := ⟨root, root.anchors.reverse⟩

/-- A value in the document without its anchor, or the value that a reference stands for. -/
def Document.resolve (d : Document) : Node → Node
  | .anchored _ node => node
  | .reference id => (d.anchored.lookup id).getD .nothing
  | node => node

end ViewSchema.Yaml
