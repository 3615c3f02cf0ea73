import ViewSchema.Kind.Basic

/-! The order of kinds: by category first, containers of one category by their lists of kinds, references
by their keys. It is total and only equal kinds are level in it, so a set of kinds has exactly one
listing, and containers built from the same set are equal. -/

namespace ViewSchema.Kind

mutual

/-- Kinds are compared by category, then by what they hold. -/
protected def compare (a b : Kind) : Ordering :=
  (compare a.category b.category).then <|
    match a, b with
    | list xs, list ys => compareItems xs ys
    | map xs, map ys => compareItems xs ys
    | objectReference v, objectReference w => compare v w
    | _, _ => .eq

/-- Lists of kinds are compared at the first place where they differ; a shorter one comes first. -/
def compareItems : List Kind → List Kind → Ordering
  | [], [] => .eq
  | [], _ :: _ => .lt
  | _ :: _, [] => .gt
  | x :: xs, y :: ys => (x.compare y).then (compareItems xs ys)

end

instance : Ord Kind := ⟨Kind.compare⟩

/-! ### The order is total, and equal only for the same kind -/

/-- The comparison of what two kinds of one category hold. -/
private def compareWithin (a b : Kind) : Ordering :=
  match a, b with
  | list xs, list ys => compareItems xs ys
  | map xs, map ys => compareItems xs ys
  | objectReference v, objectReference w => compare v w
  | _, _ => .eq

private theorem compare_eq (a b : Kind) :
    a.compare b = (compare a.category b.category).then (compareWithin a b) := by
  cases a <;> cases b <;> rfl

mutual

private theorem compare_swap (a b : Kind) : a.compare b = (b.compare a).swap := by
  cases a <;> cases b <;> simp only [Kind.compare, category, Ordering.swap_then]
  case list.list xs ys => rw [compareItems_swap xs ys]; rfl
  case map.map xs ys => rw [compareItems_swap xs ys]; rfl
  case objectReference.objectReference v w =>
    rw [show compare v w = (compare w v).swap from Std.OrientedCmp.eq_swap]; rfl
  all_goals rfl

private theorem compareItems_swap : (xs ys : List Kind) → compareItems xs ys = (compareItems ys xs).swap
  | [], [] => rfl
  | [], _ :: _ => rfl
  | _ :: _, [] => rfl
  | x :: xs, y :: ys => by
    simp only [compareItems, Ordering.swap_then]
    rw [compare_swap x y, compareItems_swap xs ys]

end

mutual

private theorem eq_of_compare (a b : Kind) (h : a.compare b = .eq) : a = b := by
  rw [compare_eq, Ordering.then_eq_eq] at h
  have same : a.category = b.category := Std.LawfulEqOrd.eq_of_compare h.1
  cases a <;> cases b <;> simp only [category, reduceCtorEq] at same
  case list.list xs ys => rw [eq_of_compareItems xs ys h.2]
  case map.map xs ys => rw [eq_of_compareItems xs ys h.2]
  case objectReference.objectReference v w => exact congrArg _ (Std.LawfulEqOrd.eq_of_compare h.2)
  all_goals rfl

private theorem eq_of_compareItems : (xs ys : List Kind) → compareItems xs ys = .eq → xs = ys
  | [], [], _ => rfl
  | x :: xs, y :: ys, h => by
    simp only [compareItems, Ordering.then_eq_eq] at h
    rw [eq_of_compare x y h.1, eq_of_compareItems xs ys h.2]

end

mutual

private theorem compare_self (a : Kind) : a.compare a = .eq := by
  cases a with
  | list xs => simp [Kind.compare, compareItems_self xs]
  | map xs => simp [Kind.compare, compareItems_self xs]
  | objectReference v => simp [Kind.compare]
  | _ => rfl

private theorem compareItems_self : (xs : List Kind) → compareItems xs xs = .eq
  | [] => rfl
  | x :: xs => by simp [compareItems, compare_self x, compareItems_self xs]

end

/-- A comparison that is settled by a first one, or else by a second one, is transitive if the first is
and, among those that the first one ties, so is the second. -/
private theorem isLE_then_trans {p q r s t u : Ordering} (first : p.isLE → q.isLE → r.isLE)
    (tied : r = .eq → p.isLE → q.isLE → p = .eq ∧ q = .eq)
    (second : p = .eq → q = .eq → s.isLE → t.isLE → u.isLE)
    (h : (p.then s).isLE) (h' : (q.then t).isLE) : (r.then u).isLE := by
  rw [Ordering.isLE_then_iff_and] at h h' ⊢
  have below := first h.1 h'.1
  refine ⟨below, ?_⟩
  by_cases tie : r = .eq
  · obtain ⟨left, right⟩ := tied tie h.1 h'.1
    exact .inr (second left right (h.2.resolve_left (by simp [left])) (h'.2.resolve_left (by simp [right])))
  · cases r <;> simp_all

/-- What stands between two equal things is equal to both. -/
private theorem tied_of_between {cmp : α → α → Ordering} (swap : ∀ a b, cmp a b = (cmp b a).swap)
    (eq_of : ∀ a b, cmp a b = .eq → a = b) {a b c : α}
    (tie : cmp a c = .eq) (h : (cmp a b).isLE) (h' : (cmp b c).isLE) : cmp a b = .eq ∧ cmp b c = .eq := by
  have same := eq_of a c tie
  subst same
  rw [swap b a] at h' ⊢
  clear swap eq_of
  cases e : cmp a b <;> simp_all

mutual

private theorem compare_trans (a b c : Kind) (h : (a.compare b).isLE) (h' : (b.compare c).isLE) :
    (a.compare c).isLE := by
  rw [compare_eq] at h h' ⊢
  refine isLE_then_trans Std.TransCmp.isLE_trans
    (tied_of_between (fun _ _ => Std.OrientedCmp.eq_swap) fun _ _ => Std.LawfulEqOrd.eq_of_compare)
    (fun left right => ?_) h h'
  have sameL : a.category = b.category := Std.LawfulEqOrd.eq_of_compare left
  have sameR : b.category = c.category := Std.LawfulEqOrd.eq_of_compare right
  cases a with
  | list xs =>
    cases b <;> simp only [category, reduceCtorEq] at sameL
    cases c <;> simp only [category, reduceCtorEq] at sameR
    exact compareItems_trans xs _ _
  | map xs =>
    cases b <;> simp only [category, reduceCtorEq] at sameL
    cases c <;> simp only [category, reduceCtorEq] at sameR
    exact compareItems_trans xs _ _
  | objectReference v =>
    cases b <;> simp only [category, reduceCtorEq] at sameL
    cases c <;> simp only [category, reduceCtorEq] at sameR
    exact @Std.TransCmp.isLE_trans ViewKey compare _ v _ _
  | _ => exact fun _ _ => by cases c <;> rfl

private theorem compareItems_trans : (xs ys zs : List Kind) → (compareItems xs ys).isLE →
    (compareItems ys zs).isLE → (compareItems xs zs).isLE
  | [], _, [], _, _ => rfl
  | [], _, _ :: _, _, _ => rfl
  | _ :: _, [], _, h, _ => by simp [compareItems] at h
  | _ :: _, _ :: _, [], _, h' => by simp [compareItems] at h'
  | x :: xs, y :: ys, z :: zs, h, h' =>
    isLE_then_trans (compare_trans x y z) (tied_of_between compare_swap eq_of_compare)
      (fun _ _ => compareItems_trans xs ys zs) h h'

end

instance : Std.LawfulEqOrd Kind where
  compare_self {a} := compare_self a
  eq_of_compare {a b} := eq_of_compare a b

instance : Std.TransOrd Kind where
  eq_swap {a b} := compare_swap a b
  isLE_trans {a b c} := compare_trans a b c

instance : DecidableEq Kind := fun a b =>
  if h : compare a b = .eq then .isTrue (Std.LawfulEqOrd.eq_of_compare h)
  else .isFalse fun e => h (e ▸ Std.ReflCmp.compare_self)

/-- The kind of an array whose items have the given kinds. -/
def listOf (items : List Kind) : Kind := list (SortedSet.ofList items).toList

/-- The kind of a bag whose values have the given kinds. -/
def mapOf (items : List Kind) : Kind := map (SortedSet.ofList items).toList

end ViewSchema.Kind
