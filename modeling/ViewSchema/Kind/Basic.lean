import ViewSchema.ViewKey

/-! What a single JSON value tells about the type of the field that holds it. Containers carry the
kinds of what they hold as a list that stands for a set: each kind once, in ascending order. -/

namespace ViewSchema

/-- The outermost shape of a kind. -/
inductive Category where
  | boolean
  | string
  | number
  | list
  | map
  | objectReference
deriving DecidableEq

namespace Category

/-- The place of a category in the order of categories. -/
def rank : Category → Nat
  | boolean => 0
  | string => 1
  | number => 2
  | list => 3
  | map => 4
  | objectReference => 5

def name : Category → String
  | boolean => "Boolean"
  | string => "String"
  | number => "Number"
  | list => "List"
  | map => "Map"
  | objectReference => "ObjectReference"

instance : Ord Category := ⟨fun a b => compare a.rank b.rank⟩

theorem eq_of_rank {a b : Category} (same : a.rank = b.rank) : a = b := by
  cases a <;> cases b <;> simp_all [rank]

instance : Std.LawfulEqOrd Category where
  compare_self {a} := @Std.ReflCmp.compare_self Nat compare _ a.rank
  eq_of_compare {a b} h := eq_of_rank (@Std.LawfulEqOrd.eq_of_compare Nat _ _ a.rank b.rank h)

instance : Std.TransOrd Category where
  eq_swap {a b} := @Std.OrientedCmp.eq_swap Nat compare _ a.rank b.rank
  isLE_trans {a b c} := @Std.TransCmp.isLE_trans Nat compare _ a.rank b.rank c.rank

end Category

/-- The kind of one observed value. -/
inductive Kind where
  | boolean
  | string
  | number
  /-- An array, with the kinds of its items. -/
  | list (items : List Kind)
  /-- A bag of values, with the kinds of its values. -/
  | map (items : List Kind)
  /-- An instance of a view. -/
  | objectReference (view : ViewKey)

namespace Kind

instance : Inhabited Kind := ⟨.boolean⟩

def category : Kind → Category
  | boolean => .boolean
  | string => .string
  | number => .number
  | list _ => .list
  | map _ => .map
  | objectReference _ => .objectReference

/-- The kinds of what a container holds; other kinds hold nothing. -/
def items : Kind → List Kind
  | list items => items
  | map items => items
  | _ => []

def target? : Kind → Option ViewKey
  | objectReference view => some view
  | _ => none

mutual

/-- Every view that the kind refers to, at any depth. -/
def targets : Kind → List ViewKey
  | objectReference view => [view]
  | list items => targetsOf items
  | map items => targetsOf items
  | boolean => []
  | string => []
  | number => []

/-- Every view that one of the kinds refers to, at any depth. -/
def targetsOf : List Kind → List ViewKey
  | [] => []
  | kind :: rest => kind.targets ++ targetsOf rest

end

theorem targetsOf_eq_flatMap (kinds : List Kind) : targetsOf kinds = kinds.flatMap targets := by
  induction kinds with
  | nil => rfl
  | cons kind rest ih => rw [targetsOf, ih, List.flatMap_cons]

/-- The set of views that the kind refers to, at any depth. -/
def references (kind : Kind) : SortedSet ViewKey := .ofList kind.targets

end Kind

end ViewSchema
