import ViewSchema.Order.SortedSet

/-! Finite maps kept as lists of entries with strictly ascending keys. A map is looked up, replaced
and merged by key, and it is always read out in key order, so two maps with equal look-ups are the
same value. -/

namespace ViewSchema

/-- The entry with a given key replaced by what `change` makes of the value found there, at the
place where the order wants it. -/
def alterAscending [Ord κ] (k : κ) (change : Option β → β) : List (κ × β) → List (κ × β)
  | [] => [(k, change none)]
  | (k', v) :: rest =>
    match compare k k' with
    | .lt => (k, change none) :: (k', v) :: rest
    | .eq => (k', change (some v)) :: rest
    | .gt => (k', v) :: alterAscending k change rest

def lookupAscending [Ord κ] (k : κ) : List (κ × β) → Option β
  | [] => none
  | (k', v) :: rest => if compare k k' = .eq then some v else lookupAscending k rest

/-- The keys of an ascending entry list, with the changed key among them, are ascending. -/
theorem map_fst_alterAscending [Ord κ] (k : κ) (change : Option β → β) (l : List (κ × β)) :
    (alterAscending k change l).map Prod.fst = insertAscending k (l.map Prod.fst) := by
  induction l with
  | nil => rfl
  | cons e rest ih =>
    obtain ⟨k', v⟩ := e
    simp only [alterAscending, List.map_cons, insertAscending]
    split <;> simp_all

theorem lookupAscending_alterAscending [Ord κ] [Std.TransOrd κ] [Std.LawfulEqOrd κ] [DecidableEq κ]
    (k x : κ) (change : Option β → β) {l : List (κ × β)} (ascending : (l.map Prod.fst).Pairwise Before) :
    lookupAscending x (alterAscending k change l) =
      if x = k then some (change (lookupAscending k l)) else lookupAscending x l := by
  induction l with
  | nil =>
    by_cases h : x = k
    · simp [alterAscending, lookupAscending, h]
    · simp [alterAscending, lookupAscending, h]
  | cons e rest ih =>
    obtain ⟨k', v⟩ := e
    rw [List.map_cons, List.pairwise_cons] at ascending
    have absent (h : compare k k' = .lt) : lookupAscending k rest = none := by
      have beyond : ∀ y ∈ rest.map Prod.fst, compare k y = .lt := fun y hy =>
        Std.TransCmp.lt_trans h (ascending.1 y hy)
      clear ih ascending
      induction rest with
      | nil => rfl
      | cons e' rest ih' =>
        have := beyond e'.1 (by simp)
        simp only [lookupAscending, this]
        simpa using ih' fun y hy => beyond y (by simp_all)
    simp only [alterAscending]
    split
    · next h =>
      have : k ≠ k' := fun e => by simp [e] at h
      by_cases hx : x = k
      · subst hx
        simp [lookupAscending, absent h, this]
      · simp [lookupAscending, hx]
    · next h =>
      have : k = k' := Std.LawfulEqOrd.eq_of_compare h
      subst this
      by_cases hx : x = k
      · simp [lookupAscending, hx]
      · simp [lookupAscending, hx]
    · next h =>
      have : k ≠ k' := fun e => by simp [e] at h
      simp only [lookupAscending, ih ascending.2]
      by_cases hx : x = k
      · subst hx
        simp [this]
      · simp [hx]

/-- A finite map, listed with strictly ascending keys. -/
structure SortedMap (κ : Type u) (β : Type v) [Ord κ] where
  /-- The entries in ascending order of their keys. -/
  entries : List (κ × β)
  ascending : (entries.map Prod.fst).Pairwise Before

namespace SortedMap

variable {κ : Type u} {β : Type v} [Ord κ]

instance [DecidableEq κ] [DecidableEq β] : DecidableEq (SortedMap κ β) := fun s t =>
  if h : s.entries = t.entries then .isTrue (by cases s; cases t; simp_all)
  else .isFalse fun e => h (e ▸ rfl)

def empty : SortedMap κ β := ⟨[], pairwise_before_nil⟩

instance : EmptyCollection (SortedMap κ β) := ⟨empty⟩

instance : Inhabited (SortedMap κ β) := ⟨empty⟩

def get? (m : SortedMap κ β) (k : κ) : Option β := lookupAscending k m.entries

def keys (m : SortedMap κ β) : SortedSet κ := ⟨m.entries.map Prod.fst, m.ascending⟩

def values (m : SortedMap κ β) : List β := m.entries.map Prod.snd

def size (m : SortedMap κ β) : Nat := m.entries.length

def isEmpty (m : SortedMap κ β) : Bool := m.entries.isEmpty

/-- Every value replaced by what `f` makes of it and its key. -/
def map (f : κ → β → γ) (m : SortedMap κ β) : SortedMap κ γ :=
  ⟨m.entries.map fun e => (e.1, f e.1 e.2), by
    simpa [List.map_map, Function.comp_def] using m.ascending⟩

section Lawful

variable [Std.TransOrd κ] [Std.LawfulEqOrd κ]

/-- The value under `k`, or its absence, replaced by what `change` makes of it. -/
def alter (m : SortedMap κ β) (k : κ) (change : Option β → β) : SortedMap κ β :=
  ⟨alterAscending k change m.entries, by
    rw [map_fst_alterAscending]; exact pairwise_insertAscending m.ascending⟩

/-- The map with `v` under `k`, whatever was there before. -/
def insert (m : SortedMap κ β) (k : κ) (v : β) : SortedMap κ β := m.alter k fun _ => v

/-- The map of a list of entries; a later entry replaces an earlier one with its key. -/
def ofList (l : List (κ × β)) : SortedMap κ β := l.foldl (fun m e => m.insert e.1 e.2) empty

/-- The map that gives every key of a set its value under `f`. -/
def ofKeys (keys : SortedSet κ) (f : κ → β) : SortedMap κ β :=
  ⟨keys.toList.map fun k => (k, f k), by
    simpa [List.map_map, Function.comp_def] using keys.ascending⟩

/-- The entries of both maps, two values of one key joined by `join`. -/
def merge (join : β → β → β) (m n : SortedMap κ β) : SortedMap κ β :=
  n.entries.foldl (fun acc e => acc.alter e.1 fun | none => e.2 | some v => join v e.2) m

theorem get?_alter [DecidableEq κ] (m : SortedMap κ β) (k x : κ) (change : Option β → β) :
    (m.alter k change).get? x = if x = k then some (change (m.get? k)) else m.get? x :=
  lookupAscending_alterAscending k x change m.ascending

theorem get?_insert [DecidableEq κ] (m : SortedMap κ β) (k x : κ) (v : β) :
    (m.insert k v).get? x = if x = k then some v else m.get? x :=
  get?_alter m k x _

@[simp] theorem mem_keys_alter {m : SortedMap κ β} {k x : κ} {change : Option β → β} :
    x ∈ (m.alter k change).keys ↔ x = k ∨ x ∈ m.keys := by
  change x ∈ (alterAscending k change m.entries).map Prod.fst ↔ _
  rw [map_fst_alterAscending]
  exact mem_insertAscending

end Lawful

end SortedMap

end ViewSchema
