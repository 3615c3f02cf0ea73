import ViewSchema.ViewKey

/-! The single type of a field: lists and maps of one item type each, down to a leaf that is a scalar, a
reference to any of some views, or no usable type at all. -/

namespace ViewSchema

/-- The type of a field. -/
inductive FieldType where
  | boolean
  | string
  | number
  | list (item : FieldType)
  | map (item : FieldType)
  /-- An instance of any of the views. -/
  | objectReference (views : SortedSet ViewKey)
  /-- Any value at all, where the kinds that were seen have nothing in common. -/
  | anything
deriving DecidableEq

namespace FieldType

instance : Inhabited FieldType := ⟨.anything⟩

/-- The type of the items of a list or map. -/
def item? : FieldType → Option FieldType
  | list item => some item
  | map item => some item
  | _ => none

/-- Whether the type is a list or a map. -/
def isCollection (type : FieldType) : Bool := type.item?.isSome

/-- The innermost type, below all lists and maps. -/
def leaf : FieldType → FieldType
  | list item => item.leaf
  | map item => item.leaf
  | type => type

/-- The views that the type refers to. -/
def references : FieldType → SortedSet ViewKey
  | objectReference views => views
  | list item => item.references
  | map item => item.references
  | boolean => .empty
  | string => .empty
  | number => .empty
  | anything => .empty

def name : FieldType → String
  | boolean => "Boolean"
  | string => "String"
  | number => "Number"
  | list item => "List<" ++ item.name ++ ">"
  | map item => "Map<" ++ item.name ++ ">"
  | objectReference views =>
    "ObjectReference(" ++ " | ".intercalate (views.toList.map ViewKey.path) ++ ")"
  | anything => "Opaque"

instance : ToString FieldType := ⟨name⟩

/-! ### The order of types: by shape from the outside in, then by the views at the leaf -/

/-- The places of the shapes of a type in the order of shapes, from the outermost to the leaf. -/
def shape : FieldType → List Nat
  | boolean => [0]
  | string => [1]
  | number => [2]
  | list item => 3 :: item.shape
  | map item => 4 :: item.shape
  | objectReference _ => [5]
  | anything => [6]

theorem eq_of_shape {a b : FieldType} (shapes : a.shape = b.shape)
    (views : a.references = b.references) : a = b := by
  induction a generalizing b with
  | list item ih =>
    cases b with
    | list other => exact congrArg list (ih (List.cons.inj shapes).2 views)
    | _ => exact absurd shapes (by simp [shape])
  | map item ih =>
    cases b with
    | map other => exact congrArg map (ih (List.cons.inj shapes).2 views)
    | _ => exact absurd shapes (by simp [shape])
  | _ => cases b <;> simp_all [shape, references]

instance : Ord FieldType :=
  ⟨compareLex (compareOn shape) (compareOn fun type => type.references.toList)⟩

instance : Std.TransOrd FieldType :=
  inferInstanceAs (Std.TransCmp (compareLex (compareOn shape) (compareOn fun type => type.references.toList)))

instance : Std.LawfulEqOrd FieldType where
  eq_of_compare {a b} h := by
    have h : (compare a.shape b.shape).then (compare a.references.toList b.references.toList) = .eq := h
    rw [Ordering.then_eq_eq] at h
    have views : a.references = b.references := by
      ext x
      rw [SortedSet.mem_def, SortedSet.mem_def, Std.LawfulEqOrd.eq_of_compare h.2]
    exact eq_of_shape (Std.LawfulEqOrd.eq_of_compare h.1) views

end FieldType

end ViewSchema
