import ViewSchema.Diagnostic

/-! Which classes can be written. The grammar of identifiers is stated on characters, apart from the test
that a run applies, and a class has no fault exactly if every part of its name is in the grammar. -/
namespace ViewSchema.IdentifierGrammar

/-- What an identifier starts with. -/
def Opens (c : Char) : Prop := ('A' ≤ c ∧ c ≤ 'Z') ∨ ('a' ≤ c ∧ c ≤ 'z') ∨ c = '_'

/-- What an identifier goes on with. -/
def Continues (c : Char) : Prop := Opens c ∨ ('0' ≤ c ∧ c ≤ '9')

/-- A text that generated code takes for a name. -/
def Identifier (s : String) : Prop :=
  ∃ first rest, s.toList = first :: rest ∧ Opens first ∧ ∀ c ∈ rest, Continues c

theorem isNameStart_iff : Text.isNameStart c = true ↔ Opens c := by
  have ranges : Text.isNameStart c =
      ((decide ('A' ≤ c ∧ c ≤ 'Z') || decide ('a' ≤ c) && decide (c ≤ 'z')) || c == '_') := rfl
  rw [ranges, Opens]
  simp only [Bool.or_eq_true, Bool.and_eq_true, decide_eq_true_eq, beq_iff_eq, or_assoc]

theorem isNameChar_iff : Text.isNameChar c = true ↔ Continues c := by
  have ranges : Text.isNameChar c = (Text.isNameStart c || decide ('0' ≤ c) && decide (c ≤ '9')) :=
    Bool.or_right_comm _ _ _
  rw [ranges, Continues, ← isNameStart_iff]
  simp only [Bool.or_eq_true, Bool.and_eq_true, decide_eq_true_eq]

/-- The test accepts the grammar and nothing else. -/
theorem isIdentifier_iff : Text.isIdentifier s = true ↔ Identifier s := by
  unfold Text.isIdentifier Identifier
  cases s.toList with
  | nil => simp
  | cons first rest =>
    simp only [Bool.and_eq_true, List.all_eq_true, isNameStart_iff, isNameChar_iff]
    constructor
    · rintro ⟨opens, continues⟩
      exact ⟨first, rest, rfl, opens, continues⟩
    · rintro ⟨_, _, ⟨⟩, opens, continues⟩
      exact ⟨opens, continues⟩

theorem Identifier.continues (name : Identifier s) : ∀ c ∈ s.toList, Continues c := by
  obtain ⟨first, rest, chars, opens, continues⟩ := name
  intro c held
  rw [chars] at held
  rcases List.mem_cons.mp held with rfl | later
  · exact .inl opens
  · exact continues c later

/-- An identifier may go on. -/
theorem Identifier.append (name : Identifier s) (more : ∀ c ∈ t.toList, Continues c) : Identifier (s ++ t) := by
  obtain ⟨first, rest, chars, opens, continues⟩ := name
  refine ⟨first, rest ++ t.toList, by simp [chars], opens, fun c held => ?_⟩
  exact (List.mem_append.mp held).elim (continues c) (more c)

instance : DecidablePred Opens := fun _ => decidable_of_iff _ isNameStart_iff

instance : DecidablePred Continues := fun _ => decidable_of_iff _ isNameChar_iff

instance : DecidablePred Identifier := fun _ => decidable_of_iff _ isIdentifier_iff

/-- A class without a fault is one whose name is made of identifiers, step by step. -/
theorem identity_errors_eq_nil {identity : Identity} : identity.errors = [] ↔
    (∀ segment ∈ identity.namespaceSegments, Identifier segment) ∧ Identifier identity.localName := by
  simp only [Identity.errors, Identity.faults, List.map_eq_nil_iff, List.append_eq_nil_iff,
    Option.toList_eq_nil_iff, Option.map_eq_none_iff, List.find?_eq_none, Bool.not_eq_true',
    Bool.not_eq_false, isIdentifier_iff, ite_eq_left_iff]
  simp

end ViewSchema.IdentifierGrammar
