/-! Finite sets kept as strictly ascending lists. Every set that a report shows is shown in ascending
order without repetition, so the ordering is part of the representation: two sets with the same
members are the same value, and the list of a set is the text that will be printed. -/

namespace ViewSchema

abbrev Before [Ord α] (a b : α) : Prop := compare a b = .lt

/-- Puts an element at its place in an ascending list; an element that is there already stays. -/
def insertAscending [Ord α] (a : α) : List α → List α
  | [] => [a]
  | b :: rest =>
    match compare a b with
    | .lt => a :: b :: rest
    | .eq => b :: rest
    | .gt => b :: insertAscending a rest

theorem mem_insertAscending [Ord α] [Std.LawfulEqOrd α] {a x : α} {l : List α} :
    x ∈ insertAscending a l ↔ x = a ∨ x ∈ l := by
  induction l with
  | nil => simp [insertAscending]
  | cons b rest ih =>
    unfold insertAscending
    split
    · simp
    · next h =>
      have : a = b := Std.LawfulEqOrd.eq_of_compare h
      subst this
      simp
    · simp only [List.mem_cons, ih]
      grind

theorem pairwise_insertAscending [Ord α] [Std.TransOrd α] [Std.LawfulEqOrd α] {a : α} {l : List α}
    (ascending : l.Pairwise Before) : (insertAscending a l).Pairwise Before := by
  induction l with
  | nil => simp [insertAscending]
  | cons b rest ih =>
    obtain ⟨first, later⟩ := List.pairwise_cons.1 ascending
    unfold insertAscending
    split
    · next h =>
      refine List.pairwise_cons.2 ⟨fun x hx => ?_, ascending⟩
      rcases List.mem_cons.1 hx with rfl | hx
      · exact h
      · exact Std.TransCmp.lt_trans h (first x hx)
    · exact ascending
    · next h =>
      refine List.pairwise_cons.2 ⟨fun x hx => ?_, ih later⟩
      rcases mem_insertAscending.1 hx with rfl | hx
      · exact Std.OrientedCmp.lt_of_gt h
      · exact first x hx

theorem pairwise_before_nil [Ord α] : ([] : List α).Pairwise Before := .nil

/-- A finite set, listed in strictly ascending order. -/
structure SortedSet (α : Type u) [Ord α] where
  /-- The members in ascending order. -/
  toList : List α
  ascending : toList.Pairwise Before

namespace SortedSet

variable {α : Type u} [Ord α]

instance [DecidableEq α] : DecidableEq (SortedSet α) := fun s t =>
  if h : s.toList = t.toList then .isTrue (by cases s; cases t; simp_all)
  else .isFalse fun e => h (e ▸ rfl)

instance : Membership α (SortedSet α) where
  mem s a := a ∈ s.toList

theorem mem_def {a : α} {s : SortedSet α} : a ∈ s ↔ a ∈ s.toList := .rfl

instance [DecidableEq α] (a : α) (s : SortedSet α) : Decidable (a ∈ s) :=
  inferInstanceAs (Decidable (a ∈ s.toList))

def empty : SortedSet α := ⟨[], pairwise_before_nil⟩

instance : EmptyCollection (SortedSet α) := ⟨empty⟩

instance : Inhabited (SortedSet α) := ⟨empty⟩

@[simp] theorem not_mem_empty {a : α} : a ∉ (∅ : SortedSet α) := List.not_mem_nil

def isEmpty (s : SortedSet α) : Bool := s.toList.isEmpty

section Lawful

variable [Std.TransOrd α] [Std.LawfulEqOrd α]

def insert (s : SortedSet α) (a : α) : SortedSet α :=
  ⟨insertAscending a s.toList, pairwise_insertAscending s.ascending⟩

@[simp] theorem mem_insert {a x : α} {s : SortedSet α} : x ∈ s.insert a ↔ x = a ∨ x ∈ s :=
  mem_insertAscending

def ofList (l : List α) : SortedSet α := l.foldr (fun a s => s.insert a) empty

@[simp] theorem mem_ofList {x : α} {l : List α} : x ∈ ofList l ↔ x ∈ l := by
  induction l with
  | nil => simp [ofList, mem_def, empty]
  | cons a rest ih =>
    have : x ∈ (ofList rest).insert a ↔ x = a ∨ x ∈ rest := by rw [mem_insert, ih]
    simpa [ofList] using this

def union (s t : SortedSet α) : SortedSet α := ofList (s.toList ++ t.toList)

instance : Union (SortedSet α) := ⟨union⟩

@[simp] theorem mem_union {x : α} {s t : SortedSet α} : x ∈ s ∪ t ↔ x ∈ s ∨ x ∈ t := by
  exact mem_ofList.trans List.mem_append

omit [Std.LawfulEqOrd α] in
private theorem eq_of_mem_iff : {l m : List α} → l.Pairwise Before → m.Pairwise Before →
    (∀ x, x ∈ l ↔ x ∈ m) → l = m
  | [], [], _, _, _ => rfl
  | [], b :: _, _, _, same => absurd ((same b).2 (by simp)) (by simp)
  | a :: _, [], _, _, same => absurd ((same a).1 (by simp)) (by simp)
  | a :: l, b :: m, hl, hm, same => by
    obtain ⟨firstL, laterL⟩ := List.pairwise_cons.1 hl
    obtain ⟨firstM, laterM⟩ := List.pairwise_cons.1 hm
    have irrefl (x : α) : ¬ Before x x := by simp [Before]
    have asymm {x y : α} (h : Before x y) (h' : Before y x) : False :=
      irrefl x (Std.TransCmp.lt_trans h h')
    have heads : a = b := by
      rcases List.mem_cons.1 ((same a).1 (by simp)) with h | h
      · exact h
      · rcases List.mem_cons.1 ((same b).2 (by simp)) with h' | h'
        · exact h'.symm
        · exact (asymm (firstM a h) (firstL b h')).elim
    subst heads
    congr 1
    refine eq_of_mem_iff laterL laterM fun x => ?_
    have hx := same x
    simp only [List.mem_cons] at hx
    constructor
    · intro h
      rcases hx.1 (.inr h) with rfl | h'
      · exact (irrefl _ (firstL _ h)).elim
      · exact h'
    · intro h
      rcases hx.2 (.inr h) with rfl | h'
      · exact (irrefl _ (firstM _ h)).elim
      · exact h'

omit [Std.LawfulEqOrd α] in
/-- Sets with the same members are the same set. -/
@[ext] theorem ext {s t : SortedSet α} (same : ∀ x, x ∈ s ↔ x ∈ t) : s = t := by
  cases s with | mk l hl =>
  cases t with | mk m hm =>
  congr
  exact eq_of_mem_iff hl hm same

end Lawful

end SortedSet

end ViewSchema
