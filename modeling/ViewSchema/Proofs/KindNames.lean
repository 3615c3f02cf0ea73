import Mathlib.Data.List.Basic
import Mathlib.Data.List.Nodup
import Mathlib.Data.List.Perm.Basic
import Mathlib.Logic.Function.Iterate
import ViewSchema.Proofs.FieldStates
import ViewSchema.Proofs.JsonStructure

/-! The names of kinds tell the kinds apart. A container is named by the names of what it holds, sorted as texts
and each given once, so its name could hide something; but a name shows where it ends, whatever text comes
after it. So a list of names can be taken apart again, and what a report lists are all the kinds that did not
go together. -/
namespace ViewSchema.KindNames
open JsonStructure UnificationSemantics FieldStates

/-! ### Kinds as documents show them -/

/-- What a kind holds is listed as a set, and so is what is held at every depth below. -/
inductive Canonical : Kind → Prop where
  | intro (ascending : kind.items.Pairwise Before) (each : ∀ item ∈ kind.items, Canonical item) :
      Canonical kind

/-- No view that the kind refers to has a closing parenthesis in its path. Of the characters that names are
punctuated with, this is the only one that could end a path early. -/
def PathsClosed (kind : Kind) : Prop := ∀ view ∈ kind.targets, ')' ∉ view.path.toList

instance : DecidablePred PathsClosed := fun kind =>
  inferInstanceAs (Decidable (∀ view ∈ kind.targets, ')' ∉ view.path.toList))

/-- A kind whose name can be read back. -/
structure Plain (kind : Kind) : Prop where
  canonical : Canonical kind
  closed : PathsClosed kind

theorem canonical_listOf (each : ∀ item ∈ items, Canonical item) : Canonical (.listOf items) :=
  ⟨SortedSet.ascending _, fun item held => each item (SortedSet.mem_toList_ofList.mp held)⟩

theorem canonical_mapOf (each : ∀ item ∈ items, Canonical item) : Canonical (.mapOf items) :=
  ⟨SortedSet.ascending _, fun item held => each item (SortedSet.mem_toList_ofList.mp held)⟩

theorem canonical_leaf (empty : kind.items = []) : Canonical kind :=
  ⟨empty ▸ .nil, fun item held => by simp [empty] at held⟩

/-- Classification makes sets of what containers hold. -/
theorem kindOf_canonical (classified : kindOf config asBag value = some kind) : Canonical kind := by
  induction value using Json.induction generalizing asBag kind with
  | array items ih =>
    cases classified
    refine canonical_listOf fun kind listed => ?_
    obtain ⟨item, held, below⟩ := mem_kindsOfItems.mp listed
    exact ih item held below
  | object members ih =>
    simp only [kindOf] at classified
    split at classified
    · cases classified
      exact canonical_leaf rfl
    · cases classified
      refine canonical_mapOf fun kind listed => ?_
      obtain ⟨key, value, held, _, below⟩ := mem_kindsOfMembers.mp listed
      exact ih key value held below
  | null => cases classified
  | _ =>
    cases classified
    exact canonical_leaf rfl

theorem Plain.of_mem_items (plain : Plain kind) (held : item ∈ kind.items) : Plain item := by
  obtain ⟨⟨_, each⟩, closed⟩ := plain
  exact ⟨each item held, fun view target => closed view (targets_of_items held target)⟩

/-- Canonical kinds that hold the same are listed in the same way. -/
theorem items_eq_of_mem_iff (canonical : Canonical a) (canonicalToo : Canonical b)
    (same : ∀ item, item ∈ a.items ↔ item ∈ b.items) : a.items = b.items := by
  obtain ⟨ascending, _⟩ := canonical
  obtain ⟨ascendingToo, _⟩ := canonicalToo
  have sets : (⟨a.items, ascending⟩ : SortedSet Kind) = ⟨b.items, ascendingToo⟩ := SortedSet.ext same
  exact congrArg SortedSet.toList sets

/-! ### Names show where they end -/

theorem mem_sortedNames : text ∈ Kind.sortedNames kinds ↔ ∃ kind ∈ kinds, kind.name = text := by
  simp [Kind.sortedNames, Kind.namesOf_eq_map]

/-- A container is named by its category and the names of what it holds. -/
theorem name_container {kind : Kind} (holds : kind.category = .list ∨ kind.category = .map) :
    kind.name = kind.category.name ++ "<" ++ " | ".intercalate (Kind.sortedNames kind.items) ++ ">" := by
  unfold Kind.name
  cases kind <;> simp [Kind.category] at holds <;> rfl

theorem name_reference (view : ViewKey) :
    (Kind.objectReference view).name = "ObjectReference(" ++ view.path ++ ")" := by
  unfold Kind.name
  rfl

/-- No name starts with a closing bracket, and none is empty. -/
theorem name_starts (kind : Kind) : ∃ first rest, kind.name.toList = first :: rest ∧ first ≠ '>' := by
  have filled : kind.category.name.toList.head? ≠ none := by cases kind.category <;> decide
  have opens : kind.category.name.toList.head? ≠ some '>' := by cases kind.category <;> decide
  rw [← head?_name] at filled opens
  cases chars : kind.name.toList with
  | nil => simp [chars] at filled
  | cons first rest => exact ⟨first, rest, rfl, by simpa [chars] using opens⟩

/-- What stands before the first closing character can be told from what stands behind it. -/
theorem append_stop_inj {stop : Char} {a b rest more : List Char} (free : stop ∉ a) (freeToo : stop ∉ b)
    (same : a ++ stop :: rest = b ++ stop :: more) : a = b ∧ rest = more := by
  induction a generalizing b with
  | nil =>
    cases b with
    | nil => exact ⟨rfl, (List.cons.inj same).2⟩
    | cons c b => exact absurd ((List.cons.inj same).1 ▸ List.mem_cons_self) freeToo
  | cons c a ih =>
    cases b with
    | nil => exact absurd ((List.cons.inj same).1 ▸ List.mem_cons_self) free
    | cons d b =>
      obtain ⟨rfl, tails⟩ := List.cons.inj same
      obtain ⟨rfl, rests⟩ := ih (fun held => free (.tail _ held)) (fun held => freeToo (.tail _ held)) tails
      exact ⟨rfl, rests⟩

/-- What comes behind the first of some listed texts. -/
def listedAfter : List String → List Char
  | [] => []
  | next :: texts => " | ".toList ++ (" | ".intercalate (next :: texts)).toList

theorem toList_listed (text : String) (texts : List String) :
    (" | ".intercalate (text :: texts)).toList = text.toList ++ listedAfter texts := by
  cases texts with
  | nil => simp [listedAfter]
  | cons next texts =>
    rw [String.intercalate_cons_cons, String.toList_append, String.toList_append, List.append_assoc,
      listedAfter]

/-- Texts that show where they end can be told apart again where they are listed, if the bracket behind the list
cannot be taken for the start of one more. -/
theorem listed_append_inj {texts others : List String}
    (starts : ∀ text ∈ texts ++ others, ∃ first rest, text.toList = first :: rest ∧ first ≠ '>')
    (ends : ∀ text ∈ texts, ∀ other ∈ others, ∀ rest more,
      text.toList ++ rest = other.toList ++ more → text = other ∧ rest = more)
    (same : (" | ".intercalate texts).toList ++ '>' :: rest =
      (" | ".intercalate others).toList ++ '>' :: more) : texts = others ∧ rest = more := by
  induction texts generalizing others with
  | nil =>
    cases others with
    | nil => exact ⟨rfl, (List.cons.inj same).2⟩
    | cons other others =>
      obtain ⟨first, tail, chars, apart⟩ := starts other (by simp)
      rw [toList_listed, chars] at same
      exact absurd (List.cons.inj same).1.symm apart
  | cons text texts ih =>
    cases others with
    | nil =>
      obtain ⟨first, tail, chars, apart⟩ := starts text (by simp)
      rw [toList_listed, chars] at same
      exact absurd (List.cons.inj same).1 apart
    | cons other others =>
      rw [toList_listed, toList_listed, List.append_assoc, List.append_assoc] at same
      obtain ⟨rfl, tails⟩ := ends text List.mem_cons_self other List.mem_cons_self _ _ same
      cases texts with
      | nil =>
        cases others with
        | nil => exact ⟨rfl, (List.cons.inj tails).2⟩
        | cons next others => simp [listedAfter] at tails
      | cons next texts =>
        cases others with
        | nil => simp [listedAfter] at tails
        | cons nextToo others =>
          simp only [listedAfter, List.append_assoc] at tails
          obtain ⟨listed, rests⟩ := ih (fun text held => starts text (by grind))
            (fun text held other heldToo => ends text (.tail _ held) other (.tail _ heldToo))
            (List.append_cancel_left tails)
          exact ⟨congrArg _ listed, rests⟩

/-! ### Names determine kinds -/

/-- Names that start alike, whatever comes behind them, are names of one category. -/
theorem category_eq_of_append {a b : Kind} (same : a.name.toList ++ rest = b.name.toList ++ more) :
    a.category = b.category := by
  apply category_eq_of_head?
  rw [← head?_name, ← head?_name]
  obtain ⟨first, tail, chars, -⟩ := name_starts a
  obtain ⟨firstToo, tailToo, charsToo, -⟩ := name_starts b
  rw [chars, charsToo] at same
  rw [chars, charsToo, List.head?_cons, List.head?_cons, (List.cons.inj same).1]

/-- The names of two containers of one category tell apart what they hold, if the names of what they hold do. -/
theorem container_append_inj {a b : Kind} (holds : a.category = .list ∨ a.category = .map)
    (category : a.category = b.category)
    (ends : ∀ item ∈ a.items, ∀ other ∈ b.items, ∀ rest more,
      item.name.toList ++ rest = other.name.toList ++ more → item = other ∧ rest = more)
    (same : a.name.toList ++ rest = b.name.toList ++ more) :
    (∀ item, item ∈ a.items ↔ item ∈ b.items) ∧ rest = more := by
  rw [name_container holds, name_container (category ▸ holds), category] at same
  simp only [String.toList_append, List.append_assoc] at same
  have listed := List.append_cancel_left (List.append_cancel_left same)
  have starts : ∀ text ∈ Kind.sortedNames a.items ++ Kind.sortedNames b.items,
      ∃ first tail, text.toList = first :: tail ∧ first ≠ '>' := by
    intro text held
    rcases List.mem_append.mp held with own | own <;>
      · obtain ⟨item, _, rfl⟩ := mem_sortedNames.mp own
        exact name_starts item
  have told : ∀ text ∈ Kind.sortedNames a.items, ∀ other ∈ Kind.sortedNames b.items, ∀ rest more,
      text.toList ++ rest = other.toList ++ more → text = other ∧ rest = more := by
    intro text held other heldToo rest more start
    obtain ⟨item, own, rfl⟩ := mem_sortedNames.mp held
    obtain ⟨_, ownToo, rfl⟩ := mem_sortedNames.mp heldToo
    obtain ⟨rfl, tails⟩ := ends item own _ ownToo rest more start
    exact ⟨rfl, tails⟩
  obtain ⟨names, rests⟩ := listed_append_inj starts told listed
  have named : ∀ item ∈ a.items, ∀ other ∈ b.items, item.name = other.name → item = other :=
    fun item held other heldToo name => (ends item held other heldToo [] [] (by rw [name])).1
  refine ⟨fun item => ⟨fun held => ?_, fun held => ?_⟩, rests⟩
  · obtain ⟨other, heldToo, name⟩ := mem_sortedNames.mp (names ▸ mem_sortedNames.mpr ⟨item, held, rfl⟩)
    exact named item held other heldToo name.symm ▸ heldToo
  · obtain ⟨other, heldToo, name⟩ := mem_sortedNames.mp (names ▸ mem_sortedNames.mpr ⟨item, held, rfl⟩)
    exact named other heldToo item held name ▸ heldToo

/-- The name of a kind is followed by what comes after it in one way only: it determines the kind, and it shows
where it ends. -/
theorem name_append_inj (plain : Plain a) (plainToo : Plain b)
    (same : a.name.toList ++ rest = b.name.toList ++ more) : a = b ∧ rest = more := by
  obtain ⟨canonical, closed⟩ := plain
  induction canonical generalizing b rest more with
  | @intro a ascending each ih =>
    have category := category_eq_of_append same
    have container : a.category = .list ∨ a.category = .map → a.items = b.items ∧ rest = more := by
      intro holds
      have ends : ∀ item ∈ a.items, ∀ other ∈ b.items, ∀ rest more,
          item.name.toList ++ rest = other.name.toList ++ more → item = other ∧ rest = more :=
        fun item held other heldToo rest more start => ih item held (plainToo.of_mem_items heldToo) start
          fun view target => closed view (targets_of_items held target)
      obtain ⟨items, rests⟩ := container_append_inj holds category ends same
      exact ⟨items_eq_of_mem_iff ⟨ascending, each⟩ plainToo.canonical items, rests⟩
    cases a with
    | boolean | string | number =>
      cases b <;> simp only [Kind.category, reduceCtorEq] at category
      exact ⟨rfl, List.append_cancel_left same⟩
    | list items =>
      cases b <;> simp only [Kind.category, reduceCtorEq] at category
      obtain ⟨held, rests⟩ := container (.inl rfl)
      exact ⟨congrArg _ held, rests⟩
    | map items =>
      cases b <;> simp only [Kind.category, reduceCtorEq] at category
      obtain ⟨held, rests⟩ := container (.inr rfl)
      exact ⟨congrArg _ held, rests⟩
    | objectReference view =>
      cases b <;> simp only [Kind.category, reduceCtorEq] at category
      case objectReference other =>
        rw [name_reference, name_reference] at same
        simp only [String.toList_append, List.append_assoc] at same
        have free : ')' ∉ view.path.toList := closed view (List.mem_singleton_self _)
        have freeToo : ')' ∉ other.path.toList := plainToo.closed other (List.mem_singleton_self _)
        obtain ⟨paths, rests⟩ := append_stop_inj free freeToo (List.append_cancel_left same)
        exact ⟨congrArg (fun path => Kind.objectReference ⟨path⟩) (String.toList_inj.mp paths), rests⟩

theorem name_injective (plain : Plain a) (plainToo : Plain b) (same : a.name = b.name) : a = b := by
  have whole : a.name.toList ++ [] = b.name.toList ++ [] := by rw [same]
  exact (name_append_inj plain plainToo whole).1

example : (Kind.list [.objectReference ⟨"a"⟩, .objectReference ⟨"b"⟩]).name =
    (Kind.list [.objectReference ⟨"a) | ObjectReference(b"⟩]).name := by
  decide

/-! ### Lists of names hide no kind -/

/-- Of plain kinds, every one has a place of its own among the sorted names. -/
theorem sortedNames_perm (plain : ∀ kind ∈ kinds, Plain kind) :
    (Kind.sortedNames kinds).Perm ((SortedSet.ofList kinds).toList.map Kind.name) := by
  have distinct : ((SortedSet.ofList kinds).toList.map Kind.name).Nodup := by
    refine (SortedSet.nodup_toList _).map_on fun a held b heldToo => ?_
    exact name_injective (plain a (SortedSet.mem_toList_ofList.mp held))
      (plain b (SortedSet.mem_toList_ofList.mp heldToo))
  have names : (Kind.sortedNames kinds).Nodup := SortedSet.nodup_toList _
  refine (List.perm_ext_iff_of_nodup names distinct).mpr fun text => ?_
  rw [mem_sortedNames, List.mem_map]
  simp only [SortedSet.mem_toList_ofList]

theorem plain_of_mem_itemKinds (plain : ∀ kind ∈ kinds, Plain kind) : ∀ item ∈ itemKinds kinds, Plain item := by
  intro item listed
  obtain ⟨kind, seen, held⟩ := mem_itemKinds.mp listed
  exact (plain kind seen).of_mem_items held

theorem plain_below (plain : ∀ kind ∈ kinds, Plain kind) (depth : Nat) :
    ∀ item ∈ itemKinds^[depth] kinds, Plain item := by
  induction depth generalizing kinds with
  | zero => exact plain
  | succ depth ih => exact ih (plain_of_mem_itemKinds plain)

/-- The mixtures that are reported, as an error or as tolerated, by the names of the kinds in each. -/
def mixtures : Except UnifyError Unified → List (List String)
  | .ok unified => unified.loosenings.map mixedNames
  | .error (.conflictingTypes names) => [names]
  | .error .noValue => []

theorem mixtures_wrap (outcome : Except UnifyError Unified) (container : FieldType → FieldType) :
    mixtures (outcome.map (·.wrap container)) = mixtures outcome := by
  rcases outcome with (_ | _) | _ <;> rfl

theorem mixtures_conflict (reported : names ∈ mixtures (conflict options kinds)) :
    names = Kind.sortedNames kinds := by
  unfold conflict at reported
  split at reported <;> exact List.mem_singleton.mp reported

/-- What is reported are the names of the kinds at the first level of containers at which they differ in
category. -/
theorem mixtures_unify (reported : names ∈ mixtures (unify options kinds)) :
    ∃ depth, Mixed (itemKinds^[depth] kinds) ∧ names = Kind.sortedNames (itemKinds^[depth] kinds) := by
  fun_induction unify options kinds with
  | case1 | case2 | case3 | case4 | case7 => cases reported
  | case5 kinds shape ih | case6 kinds shape ih =>
    rw [mixtures_wrap] at reported
    obtain ⟨depth, found⟩ := ih reported
    exact ⟨depth + 1, found⟩
  | case8 kinds shape strict =>
    exact ⟨0, ⟨.string, by simp [shape], .objectReference, by simp [shape], by decide⟩,
      mixtures_conflict reported⟩
  | case9 kinds shape lenient =>
    exact ⟨0, ⟨.string, by simp [shape], .objectReference, by simp [shape], by decide⟩,
      List.mem_singleton.mp reported⟩
  | case10 kinds none boolean string number list map reference mixture =>
    refine ⟨0, mixed_of_not_single none fun category => ?_, mixtures_conflict reported⟩
    cases category <;> assumption

/-- Classification finds canonical kinds only, and plain kinds have different names. A sorted list of names has
one entry for each kind in it, and so has every mixture that unification reports, as an error or as tolerated,
for the kinds of the level that it stands at. -/
theorem names_tell_kinds :
    (∀ config field value kind, classifyField config field value = some kind → Canonical kind) ∧
      (∀ a b, Plain a → Plain b → a.name = b.name → a = b) ∧
      (∀ kinds, (∀ kind ∈ kinds, Plain kind) →
        (Kind.sortedNames kinds).Perm ((SortedSet.ofList kinds).toList.map Kind.name)) ∧
      ∀ options kinds, (∀ kind ∈ kinds, Plain kind) → ∀ names ∈ mixtures (unify options kinds),
        ∃ depth, Mixed (itemKinds^[depth] kinds) ∧
          names.Perm ((SortedSet.ofList (itemKinds^[depth] kinds)).toList.map Kind.name) := by
  refine ⟨fun _ _ _ _ => kindOf_canonical, fun _ _ => name_injective, fun _ => sortedNames_perm, ?_⟩
  intro options kinds plain names reported
  obtain ⟨depth, mixed, rfl⟩ := mixtures_unify reported
  exact ⟨depth, mixed, sortedNames_perm (plain_below plain depth)⟩

/-- A list of a number and a card, and one of a large card and an empty list. -/
def mixedLists : List Kind :=
  [.listOf [.number, .objectReference ⟨"site/card.hbs"⟩],
    .listOf [.objectReference ⟨"site/card|<big>.hbs"⟩, .listOf []]]

/-- The conflict among the items is told with all the four kinds, though two of them are cards. -/
theorem names_tell_kinds_lists :
    let names := ["List<>", "Number", "ObjectReference(site/card.hbs)", "ObjectReference(site/card|<big>.hbs)"]
    unify {} mixedLists = .error (.conflictingTypes names) ∧
      (∃ depth, Mixed (itemKinds^[depth] mixedLists) ∧
        names.Perm ((SortedSet.ofList (itemKinds^[depth] mixedLists)).toList.map Kind.name)) ∧
      (Kind.sortedNames mixedLists).Perm ((SortedSet.ofList mixedLists).toList.map Kind.name) := by
  intro names
  have leaves : ∀ kind ∈ [Kind.number, .objectReference ⟨"site/card.hbs"⟩,
      .objectReference ⟨"site/card|<big>.hbs"⟩, .listOf []], kind.items = [] := by decide
  have plain : ∀ kind ∈ mixedLists, Plain kind := by
    have paths : ∀ kind ∈ mixedLists, PathsClosed kind := by decide
    refine fun kind listed => ⟨?_, paths kind listed⟩
    simp only [mixedLists, List.mem_cons, List.not_mem_nil, or_false] at listed
    rcases listed with rfl | rfl
    · exact canonical_listOf fun item held => canonical_leaf (leaves item (by grind))
    · exact canonical_listOf fun item held => canonical_leaf (leaves item (by grind))
  have outcome : unify {} mixedLists = .error (.conflictingTypes names) := by decide +kernel
  obtain ⟨_, _, listed, reported⟩ := names_tell_kinds
  exact ⟨outcome, reported {} mixedLists plain names (by rw [outcome]; exact List.mem_singleton_self _),
    listed mixedLists plain⟩

end ViewSchema.KindNames
