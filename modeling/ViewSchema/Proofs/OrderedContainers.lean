import ViewSchema.Order.SortedMap

/-! Sets and maps that are built from lists. What a set is built from matters by membership alone, and a
map that is filled in ascending key order lists its entries exactly as they were put in, so every
later pass over a run's views and fields can be read as a pass over an ascending list of keys. -/

namespace ViewSchema

namespace SortedSet

variable {α : Type u} [Ord α] [Std.TransOrd α] [Std.LawfulEqOrd α]

omit [Std.TransOrd α] in
theorem nodup_toList (s : SortedSet α) : s.toList.Nodup :=
  s.ascending.imp fun before same => by simp [Before, same] at before

omit [Std.TransOrd α] in
/-- A pass over a set repeats nothing if no two elements of the set give the same. -/
theorem nodup_flatMap {s : SortedSet α} {f : α → List β} (each : ∀ x ∈ s, (f x).Nodup)
    (apart : ∀ x y b, b ∈ f x → b ∈ f y → x = y) : (s.toList.flatMap f).Nodup := by
  refine List.pairwise_flatMap.mpr ⟨each, (nodup_toList s).imp ?_⟩
  intro x y distinct b given other givenAgain same
  exact distinct (apart x y b given (same ▸ givenAgain))

theorem pairwise_lt (names : SortedSet String) : names.toList.Pairwise (· < ·) :=
  names.ascending.imp compareOfLessAndEq_eq_lt.mp

@[simp] theorem mem_toList_ofList {x : α} {l : List α} : x ∈ (ofList l).toList ↔ x ∈ l := mem_ofList

/-- Order and repetition in the list leave no trace in the set. -/
theorem ofList_congr {l m : List α} (same : ∀ x, x ∈ l ↔ x ∈ m) : ofList l = ofList m := by
  ext x
  rw [mem_ofList, mem_ofList, same]

omit [Std.LawfulEqOrd α] in
/-- A subset is listed as part of the list of the set. -/
theorem sublist_of_subset {s t : SortedSet α} (included : ∀ x ∈ s, x ∈ t) : s.toList.Sublist t.toList := by
  classical
  let kept : SortedSet α := ⟨t.toList.filter (· ∈ s), t.ascending.filter _⟩
  have same : s = kept := by
    ext x
    have listed : x ∈ kept ↔ x ∈ t ∧ x ∈ s := List.mem_filter.trans (and_congr_right' decide_eq_true_iff)
    rw [listed]
    exact ⟨fun member => ⟨included x member, member⟩, And.right⟩
  have listed := congrArg SortedSet.toList same
  rw [listed]
  exact List.filter_sublist

end SortedSet

namespace SortedMap

variable {κ : Type u} {β : Type v} {γ : Type w} [Ord κ]

theorem eq_of_entries {m n : SortedMap κ β} (same : m.entries = n.entries) : m = n := by
  cases m
  cases n
  cases same
  rfl

private theorem mem_keys_of_lookup [Std.LawfulEqOrd κ] {k : κ} {entries : List (κ × β)}
    (found : lookupAscending k entries = some v) : k ∈ entries.map Prod.fst := by
  induction entries with
  | nil => cases found
  | cons e rest ih =>
    simp only [lookupAscending] at found
    split at found
    · next level => simp [Std.LawfulEqOrd.eq_of_compare level]
    · exact List.mem_cons_of_mem _ (ih found)

theorem mem_entries [Std.LawfulEqOrd κ] {m : SortedMap κ β} : (k, v) ∈ m.entries ↔ m.get? k = some v := by
  suffices look : ∀ entries : List (κ × β), (entries.map Prod.fst).Pairwise Before →
      ((k, v) ∈ entries ↔ lookupAscending k entries = some v) from look m.entries m.ascending
  intro entries ascending
  induction entries with
  | nil => simp [lookupAscending]
  | cons e rest ih =>
    rw [List.map_cons, List.pairwise_cons] at ascending
    rw [List.mem_cons, ih ascending.2]
    by_cases level : compare k e.1 = .eq
    · obtain rfl := Std.LawfulEqOrd.eq_of_compare level
      have absent : lookupAscending e.1 rest ≠ some v := fun found => by
        have before := ascending.1 e.1 (mem_keys_of_lookup found)
        simp [Before] at before
      simp [lookupAscending, absent, Prod.ext_iff, eq_comm]
    · have other : (k, v) ≠ e := fun same => level (by simp [← same])
      simp [lookupAscending, level, other]

theorem mem_keys [Std.LawfulEqOrd κ] {m : SortedMap κ β} : k ∈ m.keys ↔ ∃ v, m.get? k = some v := by
  simp [SortedSet.mem_def, keys, ← mem_entries]

/-- The values of a map are those that its keys look up. -/
theorem mem_values [Std.LawfulEqOrd κ] {m : SortedMap κ β} : v ∈ m.values ↔ ∃ k, m.get? k = some v := by
  simp [values, mem_entries]

@[simp] theorem keys_map (m : SortedMap κ β) (f : κ → β → γ) : (m.map f).keys = m.keys := by
  simp [SortedMap.keys, map, Function.comp_def]

theorem map_map (m : SortedMap κ β) (f : κ → β → γ) (g : κ → γ → δ) :
    (m.map f).map g = m.map fun k v => g k (f k v) :=
  eq_of_entries (by simp [map, Function.comp_def])

theorem get?_map [Std.LawfulEqOrd κ] (m : SortedMap κ β) (f : κ → β → γ) (k : κ) :
    (m.map f).get? k = (m.get? k).map (f k) := by
  suffices look : ∀ entries : List (κ × β),
      lookupAscending k (entries.map fun e => (e.1, f e.1 e.2)) = (lookupAscending k entries).map (f k) from
    look m.entries
  intro entries
  induction entries with
  | nil => rfl
  | cons e rest ih =>
    simp only [List.map_cons, lookupAscending, ih]
    by_cases level : compare k e.1 = .eq
    · obtain rfl := Std.LawfulEqOrd.eq_of_compare level
      simp
    · simp [level]

section Filled

variable [Std.TransOrd κ] [Std.LawfulEqOrd κ]

omit [Std.LawfulEqOrd κ] in
/-- A key beyond all others is put at the end. -/
private theorem alterAscending_beyond {k : κ} {change : Option β → β} {l : List (κ × β)}
    (beyond : ∀ e ∈ l, Before e.1 k) : alterAscending k change l = l ++ [(k, change none)] := by
  induction l with
  | nil => rfl
  | cons e rest ih =>
    have after : compare k e.1 = .gt := Std.OrientedCmp.gt_of_lt (beyond e (by simp))
    have tail := ih fun e' member => beyond e' (by simp [member])
    simp only [alterAscending, after, tail, List.cons_append]

/-- Entries that go on in ascending key order are kept as they come. -/
theorem entries_foldl_insert (l : List (κ × β)) (m : SortedMap κ β)
    (ascending : ((m.entries ++ l).map Prod.fst).Pairwise Before) :
    (l.foldl (fun m e => m.insert e.1 e.2) m).entries = m.entries ++ l := by
  induction l generalizing m with
  | nil => simp
  | cons e rest ih =>
    have beyond : ∀ e' ∈ m.entries, Before e'.1 e.1 := by
      intro e' member
      rw [List.map_append, List.pairwise_append] at ascending
      exact ascending.2.2 e'.1 (List.mem_map_of_mem member) e.1 (by simp)
    have first : (m.insert e.1 e.2).entries = m.entries ++ [e] := alterAscending_beyond beyond
    have later := ih (m.insert e.1 e.2) (by rw [first]; simpa using ascending)
    rw [List.foldl_cons, later, first, List.append_assoc, List.singleton_append]

/-- A map made of an ascending list of entries has these entries. -/
theorem entries_ofList {l : List (κ × β)} (ascending : (l.map Prod.fst).Pairwise Before) :
    (ofList l).entries = l :=
  entries_foldl_insert l empty (by simpa [empty] using ascending)

end Filled

/-- The entries of a map are what its keys look up, key by key. -/
private theorem entries_eq_filterMap [Std.LawfulEqOrd κ] (m : SortedMap κ β) :
    m.entries = m.keys.toList.filterMap fun k => (m.get? k).map (k, ·) := by
  suffices each : ∀ l : List (κ × β), (∀ e ∈ l, m.get? e.1 = some e.2) →
      l = (l.map Prod.fst).filterMap fun k => (m.get? k).map (k, ·) from
    each m.entries fun _ held => mem_entries.mp held
  intro l
  induction l with
  | nil => exact fun _ => rfl
  | cons e rest ih =>
    intro found
    have tail := ih fun e' held => found e' (List.mem_cons_of_mem _ held)
    simp only [List.map_cons, List.filterMap_cons, found e List.mem_cons_self, Option.map_some, ← tail]

/-- A map made of a list of entries has no others. -/
theorem mem_of_get?_ofList [Std.TransOrd κ] [Std.LawfulEqOrd κ] {l : List (κ × β)}
    (found : (ofList l).get? k = some v) : (k, v) ∈ l := by
  classical
  suffices onto : ∀ (l : List (κ × β)) (m : SortedMap κ β),
      (l.foldl (fun m e => m.insert e.1 e.2) m).get? k = some v → m.get? k = some v ∨ (k, v) ∈ l from
    (onto l empty found).resolve_left nofun
  intro l
  induction l with
  | nil => exact fun _ => .inl
  | cons e rest ih =>
    intro m found
    rcases ih _ found with first | later
    · rw [get?_insert] at first
      split at first
      · next same =>
        cases first
        exact .inr (same ▸ List.mem_cons_self)
      · exact .inl first
    · exact .inr (List.mem_cons_of_mem _ later)

/-- Maps in which every key looks up the same are the same map. -/
theorem ext_get? [Std.TransOrd κ] [Std.LawfulEqOrd κ] {m n : SortedMap κ β}
    (same : ∀ k, m.get? k = n.get? k) : m = n := by
  have keys : m.keys = n.keys := by
    ext k
    rw [mem_keys, mem_keys, same]
  apply eq_of_entries
  rw [entries_eq_filterMap m, entries_eq_filterMap n, keys]
  simp only [same]

/-- Entries with ascending keys change what is under their keys once each. -/
private theorem get?_foldl_alter [Std.TransOrd κ] [Std.LawfulEqOrd κ] {join : β → β → β}
    {change : κ × β → Option β → β} (alone : ∀ e, change e none = e.2)
    (joined : ∀ e v, change e (some v) = join v e.2) (l : List (κ × β)) (m : SortedMap κ β) (k : κ)
    (ascending : (l.map Prod.fst).Pairwise Before) :
    (l.foldl (fun acc e => acc.alter e.1 (change e)) m).get? k =
      Option.merge join (m.get? k) (lookupAscending k l) := by
  classical
  induction l generalizing m with
  | nil => simp [lookupAscending]
  | cons e rest ih =>
    rw [List.map_cons, List.pairwise_cons] at ascending
    rw [List.foldl_cons, ih _ ascending.2, get?_alter, lookupAscending]
    by_cases level : k = e.1
    · subst level
      have absent : lookupAscending e.1 rest = none := by
        cases found : lookupAscending e.1 rest with
        | none => rfl
        | some v =>
          have before := ascending.1 e.1 (mem_keys_of_lookup found)
          simp [Before] at before
      cases m.get? e.1 <;> simp [absent, alone, joined]
    · have apart : compare k e.1 ≠ .eq := fun same => level (Std.LawfulEqOrd.eq_of_compare same)
      simp [level, apart]

/-- A merged map looks a key up in both maps. -/
theorem get?_merge [Std.TransOrd κ] [Std.LawfulEqOrd κ] (join : β → β → β) (m n : SortedMap κ β) (k : κ) :
    (m.merge join n).get? k = Option.merge join (m.get? k) (n.get? k) :=
  get?_foldl_alter (fun _ => rfl) (fun _ _ => rfl) n.entries m k n.ascending

@[simp] theorem entries_ofKeys (keys : SortedSet κ) (f : κ → β) :
    (ofKeys keys f).entries = keys.toList.map fun k => (k, f k) := rfl

@[simp] theorem keys_ofKeys (keys : SortedSet κ) (f : κ → β) : (ofKeys keys f).keys = keys := by
  simp [SortedMap.keys, Function.comp_def]

@[simp] theorem values_ofKeys (keys : SortedSet κ) (f : κ → β) :
    (ofKeys keys f).values = keys.toList.map f := by
  simp [values, Function.comp_def]

@[simp] theorem size_ofKeys (keys : SortedSet κ) (f : κ → β) :
    (ofKeys keys f).size = keys.toList.length := by
  simp [size]

theorem map_ofKeys (keys : SortedSet κ) (f : κ → β) (g : κ → β → γ) :
    (ofKeys keys f).map g = ofKeys keys fun k => g k (f k) :=
  eq_of_entries (by simp [map, Function.comp_def])

theorem ofKeys_congr {keys : SortedSet κ} {f g : κ → β} (same : ∀ k ∈ keys, f k = g k) :
    ofKeys keys f = ofKeys keys g :=
  eq_of_entries (List.map_congr_left fun k member => by rw [same k member])

theorem get?_ofKeys [Std.LawfulEqOrd κ] [DecidableEq κ] (keys : SortedSet κ) (f : κ → β) (k : κ) :
    (ofKeys keys f).get? k = if k ∈ keys then some (f k) else none := by
  suffices look : ∀ l : List κ,
      lookupAscending k (l.map fun k => (k, f k)) = if k ∈ l then some (f k) else none from
    look keys.toList
  intro l
  induction l with
  | nil => rfl
  | cons k' rest ih =>
    simp only [List.map_cons, lookupAscending, ih]
    by_cases same : k = k'
    · simp [same]
    · have apart : compare k k' ≠ .eq := fun level => same (Std.LawfulEqOrd.eq_of_compare level)
      simp [same, apart]

end SortedMap

end ViewSchema
