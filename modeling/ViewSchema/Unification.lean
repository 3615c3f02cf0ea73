import ViewSchema.Config.Basic
import ViewSchema.FieldType
import ViewSchema.Kind.Name

/-! One type for all the kinds that were seen in a field. Kinds of one category agree at their outermost
shape, and what the containers among them hold is unified one level down, all of it together. A text
in the place of a view is a common mistake that may be let pass; any other mixture is a conflict. -/

namespace ViewSchema

/-- How far a mixture of kinds is tolerated. -/
structure UnifyOptions where
  strict : Bool := false
  conflictPolicy : ConflictPolicy := .reject
deriving DecidableEq

/-- Options under which no mixture of kinds is tolerated. -/
def UnifyOptions.strictest : UnifyOptions := ⟨true, .reject⟩

def Config.unifyOptions (config : Config) : UnifyOptions := ⟨config.strict, config.conflictPolicy⟩

/-- A mixture of kinds that was tolerated, with the names of the kinds. -/
inductive Loosening where
  /-- Texts stand where views are expected. -/
  | referenceOrString (kinds : List String)
  /-- The kinds have nothing in common, so that any value is allowed. -/
  | fallback (kinds : List String)
deriving DecidableEq

/-- Why some kinds have no type in common. -/
inductive UnifyError where
  /-- Nothing was seen that has a type. -/
  | noValue
  /-- The kinds with these names do not go together. -/
  | conflictingTypes (kinds : List String)
deriving DecidableEq

def UnifyError.message : UnifyError → String
  | noValue => "field must have at least one observed value"
  | conflictingTypes kinds => "field has conflicting value types [" ++ ", ".intercalate kinds ++ "]"

/-- A type for some kinds. -/
structure Unified where
  type : FieldType
  /-- The mixtures that were tolerated, at any depth. -/
  loosenings : List Loosening := []
deriving DecidableEq

namespace Unified

/-- Whether texts are let pass where views are expected. -/
def isLooselyTyped (unified : Unified) : Bool :=
  unified.loosenings.any fun
    | .referenceOrString _ => true
    | .fallback _ => false

/-- The same finding for containers of what was unified. -/
def wrap (unified : Unified) (container : FieldType → FieldType) : Unified :=
  { unified with type := container unified.type }

end Unified

/-- The categories of some kinds, in ascending order. -/
def categoriesOf (kinds : List Kind) : List Category := (SortedSet.ofList (kinds.map Kind.category)).toList

/-- The kinds of everything that the containers among some kinds hold. -/
def itemKinds (kinds : List Kind) : List Kind := kinds.flatMap Kind.items

/-- The views that the references among some kinds refer to. -/
def referenceTargets (kinds : List Kind) : SortedSet ViewKey := .ofList (kinds.filterMap Kind.target?)

/-- What becomes of kinds that do not go together. -/
def conflict (options : UnifyOptions) (kinds : List Kind) : Except UnifyError Unified :=
  if !options.strict && options.conflictPolicy == .degrade then
    .ok ⟨.anything, [.fallback (Kind.sortedNames kinds)]⟩
  else .error (.conflictingTypes (Kind.sortedNames kinds))

/-! ### Going one level down makes kinds smaller -/

mutual

def Kind.nodes : Kind → Nat
  | .list items => nodesOf items + 1
  | .map items => nodesOf items + 1
  | .objectReference _ => 1
  | .boolean => 1
  | .string => 1
  | .number => 1

def Kind.nodesOf : List Kind → Nat
  | [] => 0
  | kind :: rest => kind.nodes + nodesOf rest

end

theorem Kind.nodesOf_append (kinds more : List Kind) :
    nodesOf (kinds ++ more) = nodesOf kinds + nodesOf more := by
  induction kinds with
  | nil => simp [nodesOf]
  | cons kind rest ih => simp only [List.cons_append, nodesOf, ih]; omega

theorem Kind.nodesOf_items_lt (kind : Kind) : nodesOf kind.items < kind.nodes := by
  cases kind <;> simp [items, nodes, nodesOf]

/-- Of kinds that there are any of, the items are smaller than the kinds. -/
theorem nodesOf_itemKinds_lt {kinds : List Kind} (some : kinds ≠ []) :
    Kind.nodesOf (itemKinds kinds) < Kind.nodesOf kinds := by
  induction kinds with
  | nil => exact absurd rfl some
  | cons kind rest ih =>
    simp only [itemKinds, List.flatMap_cons, Kind.nodesOf_append, Kind.nodesOf]
    have head := kind.nodesOf_items_lt
    by_cases more : rest = []
    · subst more
      simpa [Kind.nodesOf] using head
    · have tail := ih more
      simp only [itemKinds] at tail
      omega

theorem categoriesOf_nil : categoriesOf [] = [] := rfl

/-- The type that all the kinds have in common, as far as the options tolerate mixtures. -/
def unify (options : UnifyOptions) (kinds : List Kind) : Except UnifyError Unified :=
  match _found : categoriesOf kinds with
  | [] => .error .noValue
  | [.boolean] => .ok ⟨.boolean, []⟩
  | [.string] => .ok ⟨.string, []⟩
  | [.number] => .ok ⟨.number, []⟩
  | [.list] => (unify options (itemKinds kinds)).map (·.wrap .list)
  | [.map] => (unify options (itemKinds kinds)).map (·.wrap .map)
  | [.objectReference] => .ok ⟨.objectReference (referenceTargets kinds), []⟩
  | [.string, .objectReference] =>
    if options.strict then conflict options kinds
    else .ok ⟨.objectReference (referenceTargets kinds), [.referenceOrString (Kind.sortedNames kinds)]⟩
  | _ => conflict options kinds
termination_by Kind.nodesOf kinds
decreasing_by
  all_goals
    refine nodesOf_itemKinds_lt fun none => ?_
    rw [none, categoriesOf_nil] at _found
    exact absurd _found (by simp)

end ViewSchema
