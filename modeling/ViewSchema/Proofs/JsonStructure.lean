import ViewSchema.Classification
import ViewSchema.Proofs.OrderedContainers

/-! JSON values by their parts. Walks over a document go through the items of arrays and the members of
objects; one induction over these parts serves all of them, whichever role an object plays in a walk. -/
namespace ViewSchema

/-- What holds of a container whenever it holds of its items or member values, holds of every value. -/
@[elab_as_elim]
theorem Json.induction {motive : Json → Prop} (null : motive .null) (bool : ∀ b, motive (.bool b))
    (number : ∀ n, motive (.number n)) (string : ∀ s, motive (.string s))
    (array : ∀ items, (∀ item ∈ items, motive item) → motive (.array items))
    (object : ∀ members, (∀ key value, (key, value) ∈ members → motive value) →
      motive (.object members)) : (value : Json) → motive value
  | .null => null
  | .bool b => bool b
  | .number n => number n
  | .string s => string s
  | .array items => array items fun item _ =>
    Json.induction null bool number string array object item
  | .object members => object members fun _ value _ =>
    Json.induction null bool number string array object value
termination_by value => value
decreasing_by
  · next held =>
    have smaller := List.sizeOf_lt_of_mem held
    simp only [Json.array.sizeOf_spec]
    omega
  · next held =>
    have smaller := List.sizeOf_lt_of_mem held
    simp only [Json.object.sizeOf_spec, Prod.mk.sizeOf_spec] at smaller ⊢
    omega

namespace JsonStructure

/-- A value occurs in a document: it is the document, or it occurs in an item of an array or in a member
that is no remark. -/
inductive Within (part : Json) : Json → Prop where
  | here : Within part part
  | item (held : item ∈ items) (below : Within part item) : Within part (.array items)
  | member (held : (key, value) ∈ members) (plain : isMetaKey key = false) (below : Within part value) :
      Within part (.object members)

/-! ### Kinds of parts -/

/-- Of all values, only a null has no kind. -/
theorem kindOf_eq_none_iff : kindOf config asBag value = none ↔ value = .null := by
  cases value with
  | object members =>
    simp only [kindOf, reduceCtorEq, iff_false]
    split <;> simp
  | _ => simp [kindOf]

theorem kindOf_of_ne_null (config : Config) (asBag : Bool) (observed : value ≠ .null) :
    ∃ kind, kindOf config asBag value = some kind :=
  Option.ne_none_iff_exists'.mp (mt kindOf_eq_none_iff.mp observed)

theorem kindsOfItems_eq_flatMap (config : Config) (items : List Json) :
    kindsOfItems config items = items.flatMap fun item => (kindOf config false item).toList := by
  induction items with
  | nil => rfl
  | cons item rest ih => rw [kindsOfItems, ih, List.flatMap_cons]

theorem mem_kindsOfItems :
    kind ∈ kindsOfItems config items ↔ ∃ item ∈ items, kindOf config false item = some kind := by
  simp only [kindsOfItems_eq_flatMap, List.mem_flatMap, Option.mem_toList]

/-- Every pass over the members of an object leaves out those that hold remarks. -/
theorem mem_flatMap_plain {members : List (String × Json)} (f : String → Json → List α) :
    x ∈ members.flatMap (fun member => if isMetaKey member.1 then [] else f member.1 member.2) ↔
      ∃ key value, (key, value) ∈ members ∧ isMetaKey key = false ∧ x ∈ f key value := by
  simp only [List.mem_flatMap, Prod.exists]
  constructor
  · rintro ⟨key, value, held, found⟩
    split at found
    · cases found
    · next plain => exact ⟨key, value, held, by simpa using plain, found⟩
  · rintro ⟨key, value, held, plain, found⟩
    exact ⟨key, value, held, by simpa [plain] using found⟩

theorem kindsOfMembers_eq_flatMap (config : Config) (members : List (String × Json)) :
    kindsOfMembers config members = members.flatMap fun member =>
      if isMetaKey member.1 then [] else (kindOf config (config.isMapField member.1) member.2).toList := by
  induction members with
  | nil => rfl
  | cons member rest ih => rw [kindsOfMembers, ih, List.flatMap_cons]

theorem mem_kindsOfMembers :
    kind ∈ kindsOfMembers config members ↔ ∃ key value, (key, value) ∈ members ∧
      isMetaKey key = false ∧ kindOf config (config.isMapField key) value = some kind := by
  simp only [kindsOfMembers_eq_flatMap, Option.mem_toList,
    mem_flatMap_plain fun key value => (kindOf config (config.isMapField key) value).toList]

/-- The kind of a value by the form of the value. An object is a reference only where it does not stand
as a bag. -/
inductive HasKind (config : Config) : Bool → Json → Kind → Prop where
  | boolean : HasKind config asBag (.bool b) .boolean
  | number : HasKind config asBag (.number n) .number
  | string : HasKind config asBag (.string s) .string
  | list : HasKind config asBag (.array items)
      (.list (SortedSet.ofList (kindsOfItems config items)).toList)
  | reference (named : instanceKey? config members = some view) :
      HasKind config false (.object members) (.objectReference view)
  | map : HasKind config asBag (.object members)
      (.map (SortedSet.ofList (kindsOfMembers config members)).toList)

theorem kindOf_hasKind (classified : kindOf config asBag value = some kind) :
    HasKind config asBag value kind := by
  cases value with
  | null => cases classified
  | bool b => cases classified; exact .boolean
  | number n => cases classified; exact .number
  | string s => cases classified; exact .string
  | array items => cases classified; exact .list
  | object members =>
    simp only [kindOf] at classified
    split at classified
    · next view named =>
      cases classified
      cases asBag with
      | true => cases named
      | false => exact .reference named
    · cases classified
      exact .map

/-- What the kind of an array refers to, the kind of one of its items refers to. -/
theorem item_of_target (classified : kindOf config asBag (.array items) = some kind)
    (referred : view ∈ kind.targets) :
    ∃ item ∈ items, ∃ inner, kindOf config false item = some inner ∧ view ∈ inner.targets := by
  cases kindOf_hasKind classified
  simp only [Kind.targets, Kind.targetsOf_eq_flatMap, List.mem_flatMap, SortedSet.mem_toList_ofList] at referred
  obtain ⟨inner, listed, target⟩ := referred
  obtain ⟨item, held, below⟩ := mem_kindsOfItems.mp listed
  exact ⟨item, held, inner, below, target⟩

/-- What the kind of an object refers to, the object names itself, or the kind of one of its members refers to
it. -/
theorem member_of_target (classified : kindOf config asBag (.object members) = some kind)
    (referred : view ∈ kind.targets) :
    (asBag = false ∧ instanceKey? config members = some view) ∨
      ∃ key value, (key, value) ∈ members ∧ isMetaKey key = false ∧
        ∃ inner, kindOf config (config.isMapField key) value = some inner ∧ view ∈ inner.targets := by
  cases kindOf_hasKind classified with
  | reference named =>
    cases List.mem_singleton.mp referred
    exact .inl ⟨rfl, named⟩
  | map =>
    simp only [Kind.targets, Kind.targetsOf_eq_flatMap, List.mem_flatMap, SortedSet.mem_toList_ofList]
      at referred
    obtain ⟨inner, listed, target⟩ := referred
    obtain ⟨key, value, held, plain, below⟩ := mem_kindsOfMembers.mp listed
    exact .inr ⟨key, value, held, plain, inner, below, target⟩

end JsonStructure

end ViewSchema
