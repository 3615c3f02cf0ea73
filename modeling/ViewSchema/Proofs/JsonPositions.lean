import ViewSchema.Json.Reader
import ViewSchema.Proofs.JsonStructure
import ViewSchema.Proofs.OrderedContainers

/-! Places in a JSON document, told by the steps that lead to them. Where no object has a key twice, a member
is the value at its position; every document that is read is so. -/
namespace ViewSchema.JsonPositions
open JsonStructure

/-- One step into a value. -/
inductive Step where
  | item (index : Nat)
  | member (key : String)
deriving DecidableEq

/-- The steps from a document to a value in it, the outermost first. -/
abbrev Position := List Step

/-- The value at a position, if there is one. -/
def at? : Json → Position → Option Json
  | value, [] => some value
  | .array items, .item index :: rest => items[index]?.bind (at? · rest)
  | .object members, .member key :: rest => (Json.member? members key).bind (at? · rest)
  | _, _ :: _ => none

/-- A position that leads through no remark. -/
def Plain (position : Position) : Prop := ∀ key, .member key ∈ position → isMetaKey key = false

theorem plain_nil : Plain [] := nofun

theorem plain_cons_item : Plain (.item index :: rest) ↔ Plain rest := by
  simp [Plain]

theorem plain_cons_member : Plain (.member key :: rest) ↔ isMetaKey key = false ∧ Plain rest := by
  simp [Plain]

/-- No object of the document has a key twice, those inside remarks left aside. -/
def DistinctKeys (document : Json) : Prop :=
  ∀ members, Within (.object members) document → (members.map Prod.fst).Nodup

namespace DistinctKeys

theorem keys (distinct : DistinctKeys (.object members)) : (members.map Prod.fst).Nodup :=
  distinct members .here

theorem item {part : Json} (distinct : DistinctKeys (.array items)) (held : part ∈ items) : DistinctKeys part :=
  fun members below => distinct members (.item held below)

theorem member (distinct : DistinctKeys (.object members)) (held : (key, value) ∈ members)
    (plain : isMetaKey key = false) : DistinctKeys value :=
  fun members below => distinct members (.member held plain below)

end DistinctKeys

theorem mem_of_member? (found : Json.member? members key = some value) : (key, value) ∈ members := by
  obtain ⟨earlier, later, rfl, _⟩ := List.lookup_eq_some_iff.mp found
  exact List.mem_append_right _ List.mem_cons_self

/-- In an object that has no key twice, every member is found under its key. -/
theorem member?_of_mem (distinct : (members.map Prod.fst).Nodup) (held : (key, value) ∈ members) :
    Json.member? members key = some value := by
  obtain ⟨earlier, later, rfl⟩ := List.append_of_mem held
  refine List.lookup_eq_some_iff.mpr ⟨earlier, later, rfl, fun other before => ?_⟩
  rw [List.map_append, List.nodup_append] at distinct
  have apart := distinct.2.2 other.1 (List.mem_map_of_mem before) key (by simp)
  exact bne_iff_ne.mpr (Ne.symm apart)

/-! ### Documents in canonical form -/

theorem canonicalItems_eq_map (items : List Json) : Json.canonicalItems items = items.map Json.canonical := by
  induction items with
  | nil => rfl
  | cons item rest ih => rw [Json.canonicalItems, ih, List.map_cons]

theorem canonicalMembers_eq_map (members : List (String × Json)) :
    Json.canonicalMembers members = members.map fun member => (member.1, member.2.canonical) := by
  induction members with
  | nil => rfl
  | cons member rest ih => rw [Json.canonicalMembers, ih, List.map_cons]

/-- Documents in canonical form have each key once. -/
theorem canonical_distinctKeys (document : Json) : DistinctKeys document.canonical := by
  induction document using Json.induction with
  | array items ih =>
    rintro members (_ | ⟨held, below⟩)
    rw [canonicalItems_eq_map] at held
    obtain ⟨source, listed, rfl⟩ := List.mem_map.mp held
    exact ih source listed members below
  | object members ih =>
    intro inner occurs
    rw [Json.canonical, Json.record] at occurs
    cases occurs with
    | here => exact SortedSet.nodup_toList (SortedMap.keys _)
    | member held plain below =>
      have listed := SortedMap.mem_of_get?_ofList (SortedMap.mem_entries.mp held)
      rw [canonicalMembers_eq_map] at listed
      obtain ⟨⟨key, source⟩, member, ⟨⟩⟩ := List.mem_map.mp listed
      exact ih key source member inner below
  | _ => rintro members ⟨⟩

/-- Whatever an object of a text repeats, the document that is read has each key once. -/
theorem document?_distinctKeys (read : Json.document? text = some document) : DistinctKeys document := by
  obtain ⟨value, _, rfl⟩ := Option.map_eq_some_iff.mp read
  exact canonical_distinctKeys value

end ViewSchema.JsonPositions
