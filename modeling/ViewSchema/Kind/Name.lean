import ViewSchema.Kind.Order

/-! The names of kinds in messages. The name of a container repeats no name of what it holds, and lists
them as texts, which is not the order of the kinds themselves. -/

namespace ViewSchema.Kind

mutual

/-- The name of the kind in messages: the names of what a container holds stand between angle
brackets, each once and in ascending order. -/
def name : Kind → String
  | list items => "List<" ++ " | ".intercalate (SortedSet.ofList (namesOf items)).toList ++ ">"
  | map items => "Map<" ++ " | ".intercalate (SortedSet.ofList (namesOf items)).toList ++ ">"
  | objectReference view => "ObjectReference(" ++ view.path ++ ")"
  | boolean => Category.boolean.name
  | string => Category.string.name
  | number => Category.number.name

def namesOf : List Kind → List String
  | [] => []
  | kind :: rest => kind.name :: namesOf rest

end

theorem namesOf_eq_map (kinds : List Kind) : namesOf kinds = kinds.map name := by
  induction kinds with
  | nil => rfl
  | cons kind rest ih => rw [namesOf, ih, List.map_cons]

instance : ToString Kind := ⟨name⟩

/-- The names of the kinds, each once and in ascending order. -/
def sortedNames (kinds : List Kind) : List String := (SortedSet.ofList (namesOf kinds)).toList

example : (listOf [number, listOf [], boolean, number]).name = "List<Boolean | List<> | Number>" := by
  decide

end ViewSchema.Kind
