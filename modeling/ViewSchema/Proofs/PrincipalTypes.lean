import Mathlib.Order.Defs.LinearOrder
import ViewSchema.Proofs.UnificationSemantics

/-! Strict unification finds the principal type of some kinds. Whether a type covers kinds is asked without the
unifier: kind by kind, down to the leaf. The type that is found covers all kinds and is the least one that
does; a conflict is reported exactly if no type covers them, and a lack of values exactly if a type does but the
kinds are nothing but containers of empty containers. -/
namespace ViewSchema.PrincipalTypes
open UnificationSemantics

/-- A type with a usable leaf that every kind belongs to, without a text in the place of a view. -/
structure Covers (type : FieldType) (kinds : List Kind) : Prop where
  usable : type.leaf ≠ .anything
  each : ∀ kind ∈ kinds, Conforms false kind type

/-- A chain of items leads from the kind to a scalar or a reference. -/
inductive Grounded : Kind → Prop where
  | leaf (noList : kind.category ≠ .list) (noMap : kind.category ≠ .map) : Grounded kind
  | item (held : item ∈ kind.items) (below : Grounded item) : Grounded kind

/-- Every type that covers the kinds has the same form, and refers to the same views or to more. -/
def Least (type : FieldType) (kinds : List Kind) : Prop :=
  ∀ other, Covers other kinds →
    type.shape = other.shape ∧ ∀ view ∈ type.references, view ∈ other.references

/-- What the outcome of a strict unification says about its kinds. -/
inductive Principal (kinds : List Kind) : Except UnifyError Unified → Prop where
  | typed (covers : Covers type kinds) (least : Least type kinds)
      (grounded : ∃ kind ∈ kinds, Grounded kind) : Principal kinds (.ok ⟨type, []⟩)
  | empty (covered : ∃ type, Covers type kinds) (hollow : ¬ ∃ kind ∈ kinds, Grounded kind) :
      Principal kinds (.error .noValue)
  | conflicting (apart : ¬ ∃ type, Covers type kinds) : Principal kinds (.error (.conflictingTypes names))

/-! ### What a covering type shows of the categories -/

/-- Kinds that belong to one usable type are of one category. -/
theorem category_unique (first : Conforms false kind type) (second : Conforms false other type)
    (usable : type.leaf ≠ .anything) : kind.category = other.category := by
  cases first with
  | anything => exact absurd rfl usable
  | text passes => cases passes
  | _ => cases second <;> first | rfl | contradiction

theorem not_covered_of_mixed (mixed : Mixed kinds) : ¬ ∃ type, Covers type kinds := by
  rintro ⟨type, usable, each⟩
  obtain ⟨first, seen, second, seenToo, apart⟩ := mixed
  obtain ⟨kind, held, rfl⟩ := mem_categoriesOf.mp seen
  obtain ⟨other, heldToo, rfl⟩ := mem_categoriesOf.mp seenToo
  exact apart (category_unique (each kind held) (each other heldToo) usable)

theorem exists_of_single (shape : categoriesOf kinds = [category]) :
    ∃ kind ∈ kinds, kind.category = category :=
  mem_categoriesOf.mp (shape ▸ List.mem_cons_self)

theorem category_of_single (shape : categoriesOf kinds = [category]) (seen : kind ∈ kinds) :
    kind.category = category :=
  List.mem_singleton.mp (category_of_shape shape seen)

/-! ### One level down -/

/-- A form of containers, among kinds and among types: what belongs to it is decided by the items alone. -/
structure ContainerForm (category : Category) (kind : List Kind → Kind) (type : FieldType → FieldType) :
    Prop where
  place : category = .list ∨ category = .map
  formed : ∀ holder : Kind, holder.category = category → holder = kind holder.items
  conforms : ∀ items other, Conforms false (kind items) other ↔
    other = .anything ∨ ∃ inner, other = type inner ∧ ∀ item ∈ items, Conforms false item inner
  inner_unique : ∀ a b, type a = type b → a = b
  leaf : ∀ inner, (type inner).leaf = inner.leaf
  shape : ∀ a b : FieldType, a.shape = b.shape → (type a).shape = (type b).shape
  references : ∀ inner, (type inner).references = inner.references

theorem list_form : ContainerForm .list .list .list where
  place := .inl rfl
  formed holder same := by
    cases holder with
    | list items => rfl
    | _ => cases same
  conforms items other := by
    constructor
    · intro conforms
      cases conforms with
      | list each => exact .inr ⟨_, rfl, each⟩
      | anything => exact .inl rfl
    · rintro (rfl | ⟨inner, rfl, each⟩)
      · exact .anything
      · exact .list each
  inner_unique _ _ := FieldType.list.inj
  leaf _ := rfl
  shape _ _ := congrArg (3 :: ·)
  references _ := rfl

theorem map_form : ContainerForm .map .map .map where
  place := .inr rfl
  formed holder same := by
    cases holder with
    | map items => rfl
    | _ => cases same
  conforms items other := by
    constructor
    · intro conforms
      cases conforms with
      | map each => exact .inr ⟨_, rfl, each⟩
      | anything => exact .inl rfl
    · rintro (rfl | ⟨inner, rfl, each⟩)
      · exact .anything
      · exact .map each
  inner_unique _ _ := FieldType.map.inj
  leaf _ := rfl
  shape _ _ := congrArg (4 :: ·)
  references _ := rfl

section Containers
variable {category : Category} {kind : List Kind → Kind} {type : FieldType → FieldType} {kinds : List Kind}

/-- Of a container that belongs to a usable type, the items belong to its item type. -/
theorem ContainerForm.split (form : ContainerForm category kind type) {holder : Kind}
    (same : holder.category = category) (conforms : Conforms false holder other)
    (usable : other.leaf ≠ .anything) :
    ∃ inner, other = type inner ∧ ∀ item ∈ holder.items, Conforms false item inner := by
  rw [form.formed holder same] at conforms
  rcases (form.conforms _ other).mp conforms with rfl | found
  · exact absurd rfl usable
  · exact found

/-- Containers of one form are covered by the containers of what covers all their items together. -/
theorem covers_containers (form : ContainerForm category kind type) (shape : categoriesOf kinds = [category])
    (other : FieldType) :
    Covers other kinds ↔ ∃ inner, other = type inner ∧ Covers inner (itemKinds kinds) := by
  constructor
  · rintro ⟨usable, each⟩
    obtain ⟨first, seen, same⟩ := exists_of_single shape
    obtain ⟨inner, rfl, _⟩ := form.split same (each first seen) usable
    refine ⟨inner, rfl, form.leaf inner ▸ usable, fun item listed => ?_⟩
    obtain ⟨holder, seenToo, held⟩ := mem_itemKinds.mp listed
    obtain ⟨again, equal, belongs⟩ :=
      form.split (category_of_single shape seenToo) (each holder seenToo) usable
    obtain rfl := form.inner_unique _ _ equal
    exact belongs item held
  · rintro ⟨inner, rfl, usable, each⟩
    refine ⟨(form.leaf inner).symm ▸ usable, fun holder seen => ?_⟩
    rw [form.formed holder (category_of_single shape seen)]
    refine (form.conforms _ _).mpr (.inr ⟨inner, rfl, fun item held => ?_⟩)
    exact each item (mem_itemKinds.mpr ⟨holder, seen, held⟩)

/-- A chain that leads somewhere from a container leads on from one of its items. -/
theorem grounded_containers (form : ContainerForm category kind type)
    (shape : categoriesOf kinds = [category]) :
    (∃ holder ∈ kinds, Grounded holder) ↔ ∃ item ∈ itemKinds kinds, Grounded item := by
  constructor
  · rintro ⟨holder, seen, grounded⟩
    cases grounded with
    | leaf noList noMap =>
      have same := category_of_single shape seen
      exact (form.place.elim (fun list => noList (same.trans list)) fun map => noMap (same.trans map)).elim
    | item held below => exact ⟨_, mem_itemKinds.mpr ⟨holder, seen, held⟩, below⟩
  · rintro ⟨item, listed, below⟩
    obtain ⟨holder, seen, held⟩ := mem_itemKinds.mp listed
    exact ⟨holder, seen, .item held below⟩

/-- What is principal for the items is principal for their containers, in a container of the same form. -/
theorem principal_containers (form : ContainerForm category kind type)
    (shape : categoriesOf kinds = [category]) (below : Principal (itemKinds kinds) outcome) :
    Principal kinds (outcome.map (·.wrap type)) := by
  have covers := covers_containers form shape
  have grounds := grounded_containers form shape
  cases below with
  | @typed item covered least grounded =>
    refine .typed ((covers _).mpr ⟨item, rfl, covered⟩) (fun other outer => ?_) (grounds.mpr grounded)
    obtain ⟨inner, rfl, coveredToo⟩ := (covers other).mp outer
    obtain ⟨same, more⟩ := least inner coveredToo
    rw [form.references, form.references]
    exact ⟨form.shape _ _ same, more⟩
  | empty covered hollow =>
    obtain ⟨item, inner⟩ := covered
    exact .empty ⟨type item, (covers _).mpr ⟨item, rfl, inner⟩⟩ (mt grounds.mp hollow)
  | conflicting apart =>
    refine .conflicting fun ⟨other, outer⟩ => ?_
    obtain ⟨inner, _, covered⟩ := (covers other).mp outer
    exact apart ⟨inner, covered⟩

end Containers

/-! ### The last level -/

/-- A kind without items belongs to usable types of one form only. -/
theorem shape_unique (noList : kind.category ≠ .list) (noMap : kind.category ≠ .map)
    (first : Conforms false kind type) (second : Conforms false kind other)
    (usable : type.leaf ≠ .anything) (usableToo : other.leaf ≠ .anything) : type.shape = other.shape := by
  cases first with
  | anything => exact absurd rfl usable
  | text passes => cases passes
  | list each => exact absurd rfl noList
  | map each => exact absurd rfl noMap
  | _ =>
    cases second with
    | anything => exact absurd rfl usableToo
    | _ => first | rfl | contradiction

/-- For kinds of one category that hold no items, a covering type is principal if it refers to none but their
views. -/
theorem principal_leaves (shape : categoriesOf kinds = [category])
    (noItems : category ≠ .list ∧ category ≠ .map) (covers : Covers type kinds)
    (refers : ∀ view ∈ type.references, Kind.objectReference view ∈ kinds) :
    Principal kinds (.ok ⟨type, []⟩) := by
  obtain ⟨kind, seen, rfl⟩ := exists_of_single shape
  refine .typed covers (fun other coveredToo => ⟨?_, fun view referred => ?_⟩) ⟨kind, seen, ?_⟩
  · exact shape_unique noItems.1 noItems.2 (covers.each kind seen) (coveredToo.each kind seen)
      covers.usable coveredToo.usable
  · cases coveredToo.each _ (refers view referred) with
    | reference listed => exact listed
    | anything => exact absurd rfl coveredToo.usable
  · exact .leaf noItems.1 noItems.2

/-- Under strictness every mixture of categories is a conflict, and no type covers one. -/
theorem principal_mixed (policy : ConflictPolicy) (mixed : Mixed kinds) :
    Principal kinds (conflict ⟨true, policy⟩ kinds) :=
  .conflicting (not_covered_of_mixed mixed)

/-- Whatever the conflict policy, the outcome of a strict unification is principal. -/
theorem unify_principal (policy : ConflictPolicy) (kinds : List Kind) :
    Principal kinds (unify ⟨true, policy⟩ kinds) := by
  have fits : ∀ {kinds : List Kind} {type : FieldType}, Unifies ⟨true, policy⟩ kinds ⟨type, []⟩ →
      ∀ kind ∈ kinds, Conforms false kind type := fun derived _ seen => derived_conforms derived seen
  fun_induction unify ⟨true, policy⟩ kinds with
  | case1 kinds shape =>
    have nothing : ∀ kind, kind ∉ kinds := fun kind seen =>
      absurd (category_of_shape shape seen) List.not_mem_nil
    refine .empty ⟨.string, by simp [FieldType.leaf], fun kind seen => absurd seen (nothing kind)⟩ ?_
    rintro ⟨kind, seen, _⟩
    exact nothing kind seen
  | case2 kinds shape =>
    exact principal_leaves shape (by simp) ⟨by simp [FieldType.leaf], fits (.boolean shape)⟩
      fun _ referred => absurd referred SortedSet.not_mem_empty
  | case3 kinds shape =>
    exact principal_leaves shape (by simp) ⟨by simp [FieldType.leaf], fits (.string shape)⟩
      fun _ referred => absurd referred SortedSet.not_mem_empty
  | case4 kinds shape =>
    exact principal_leaves shape (by simp) ⟨by simp [FieldType.leaf], fits (.number shape)⟩
      fun _ referred => absurd referred SortedSet.not_mem_empty
  | case5 kinds shape ih => exact principal_containers list_form shape ih
  | case6 kinds shape ih => exact principal_containers map_form shape ih
  | case7 kinds shape =>
    exact principal_leaves shape (by simp) ⟨by simp [FieldType.leaf], fits (.reference shape)⟩
      fun _ referred => mem_referenceTargets.mp referred
  | case8 kinds shape strict =>
    exact principal_mixed policy ⟨.string, by simp [shape], .objectReference, by simp [shape], by decide⟩
  | case9 kinds shape lenient => exact absurd rfl lenient
  | case10 kinds none boolean string number list map reference mixture =>
    refine principal_mixed policy (mixed_of_not_single none fun category => ?_)
    cases category <;> assumption

/-- What strict unification finds covers its kinds without a loosening and is the least type that does. It
reports a conflict exactly if no type covers the kinds, and no value exactly if one does but no chain of items
leads to a scalar or a reference. -/
theorem strict_type_principal (policy : ConflictPolicy) (kinds : List Kind) :
    (∀ unified, unify ⟨true, policy⟩ kinds = .ok unified →
        unified.loosenings = [] ∧ Covers unified.type kinds ∧ Least unified.type kinds) ∧
      ((∃ names, unify ⟨true, policy⟩ kinds = .error (.conflictingTypes names)) ↔
        ¬ ∃ type, Covers type kinds) ∧
      (unify ⟨true, policy⟩ kinds = .error .noValue ↔
        (∃ type, Covers type kinds) ∧ ¬ ∃ kind ∈ kinds, Grounded kind) := by
  have principal := unify_principal policy kinds
  generalize unify ⟨true, policy⟩ kinds = outcome at principal
  cases principal with
  | typed covers least grounded =>
    refine ⟨fun unified same => ?_, ?_, ?_⟩
    · cases same
      exact ⟨rfl, covers, least⟩
    · exact iff_of_false (fun ⟨names, same⟩ => nomatch same) fun apart => apart ⟨_, covers⟩
    · exact iff_of_false nofun fun ⟨_, hollow⟩ => hollow grounded
  | empty covered hollow =>
    refine ⟨nofun, ?_, ?_⟩
    · exact iff_of_false (fun ⟨names, same⟩ => nomatch same) fun apart => apart covered
    · exact iff_of_true rfl ⟨covered, hollow⟩
  | conflicting apart =>
    refine ⟨nofun, ?_, ?_⟩
    · exact iff_of_true ⟨_, rfl⟩ apart
    · exact iff_of_false nofun fun ⟨covered, _⟩ => apart covered

/-- Rows of tiles and of banners in two lists, with an empty row among them. -/
def mixedRows : List Kind :=
  [.list [.list [.objectReference ⟨"tile.hbs"⟩], .list []], .list [.list [.objectReference ⟨"banner.hbs"⟩]]]

/-- The rows are lists of lists of tiles or banners, and every type that covers them is one of such lists. Rows
that are all empty are covered as well, but nothing in them says by which type. -/
theorem strict_type_principal_rows :
    let type := FieldType.list (.list (.objectReference (.ofList [⟨"banner.hbs"⟩, ⟨"tile.hbs"⟩])))
    (Covers type mixedRows ∧ Least type mixedRows) ∧
      (∃ type, Covers type [.list [.list []]]) ∧ ¬ ∃ kind ∈ [.list [.list []]], Grounded kind := by
  intro type
  have typed : unify ⟨true, .degrade⟩ mixedRows = .ok ⟨type, []⟩ := by cbv
  have hollow : unify ⟨true, .degrade⟩ [.list [.list []]] = .error .noValue := by cbv
  obtain ⟨found, _, _⟩ := strict_type_principal .degrade mixedRows
  obtain ⟨_, _, valueless⟩ := strict_type_principal .degrade [.list [.list []]]
  exact ⟨(found _ typed).2, valueless.mp hollow⟩

end ViewSchema.PrincipalTypes
