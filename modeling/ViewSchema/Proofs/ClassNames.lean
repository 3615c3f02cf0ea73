import Mathlib.Data.List.Basic
import ViewSchema.Naming.Resolver
import ViewSchema.Reference.Basic

/-! A full name names one class. It is text like any other, and a namespace may hold dots anywhere, so a full
name alone does not tell where its namespace ends. But the local names of one run differ only in the part
that comes from the file name, and that part is free of dots: two views of one run with the same full name
have the same namespace and the same local name. -/
namespace ViewSchema.ClassNames

/-! ### Words hold no separator -/

/-- A piece of a list that is cut at some elements has none of these. -/
theorem not_separator_of_mem_splitOnP {p : α → Bool} {cs piece : List α} (cut : piece ∈ cs.splitOnP p)
    (held : x ∈ piece) : p x = false := by
  induction cs generalizing piece with
  | nil =>
    rw [List.splitOnP_nil, List.mem_singleton] at cut
    subst cut
    cases held
  | cons c rest ih =>
    rw [List.splitOnP_cons_eq_if_modifyHead] at cut
    split at cut
    · rcases List.mem_cons.mp cut with rfl | later
      · cases held
      · exact ih later held
    · next inside =>
      obtain ⟨first, others, pieces⟩ := List.exists_cons_of_ne_nil (List.splitOnP_ne_nil p rest)
      rw [pieces, List.modifyHead_cons] at cut
      rcases List.mem_cons.mp cut with rfl | later
      · rcases List.mem_cons.mp held with rfl | held
        · simpa using inside
        · exact ih (pieces ▸ List.mem_cons_self) held
      · exact ih (pieces ▸ List.mem_cons_of_mem _ later) held

/-- The code points of word separators: hyphen and dot, underscore, and the blanks. -/
def separatorRanges : List (Nat × Nat) :=
  [(0x2D, 0x2E), (0x5F, 0x5F), (9, 13), (0x20, 0x20), (0x85, 0x85), (0xA0, 0xA0), (0x1680, 0x1680),
   (0x2000, 0x200A), (0x2028, 0x2029), (0x202F, 0x202F), (0x205F, 0x205F), (0x3000, 0x3000)]

/-- No separator has a code point from `first` to `last`. -/
def ClearOfSeparators (first last : Nat) : Prop := ∀ range ∈ separatorRanges, last < range.1 ∨ range.2 < first

instance (first last : Nat) : Decidable (ClearOfSeparators first last) :=
  inferInstanceAs (Decidable (∀ range ∈ separatorRanges, last < range.1 ∨ range.2 < first))

private theorem range_of_separator (separates : Naming.isWordSeparator c = true) :
    ∃ range ∈ separatorRanges, range.1 ≤ c.toNat ∧ c.toNat ≤ range.2 := by
  simp only [Naming.isWordSeparator, Text.isBlank, Bool.or_eq_true, Bool.and_eq_true, beq_iff_eq,
    decide_eq_true_eq] at separates
  simp only [separatorRanges, List.mem_cons, exists_eq_or_imp, List.not_mem_nil, false_and, exists_false]
  rcases separates with ((rfl | rfl) | rfl) | blank
  · decide
  · decide
  · decide
  · omega

theorem toNat_ofNat_of_valid (valid : code.isValidChar) : (Char.ofNat code).toNat = code := by
  have char : Char.ofNat code = Char.ofNatAux code valid := dif_pos valid
  exact char ▸ rfl

/-- A number that is no code point stands for the character zero. -/
theorem toNat_ofNat_or (code : Nat) : (Char.ofNat code).toNat = code ∨ (Char.ofNat code).toNat = 0 := by
  by_cases valid : code.isValidChar
  · exact .inl (toNat_ofNat_of_valid valid)
  · have char : Char.ofNat code = Char.ofNatAux 0 (.inl (by decide)) := dif_neg valid
    exact .inr (char ▸ rfl)

theorem not_separator_of_clear (clear : ClearOfSeparators first last) (lower : first ≤ code)
    (upper : code ≤ last) : Naming.isWordSeparator (Char.ofNat code) = false := by
  by_contra separates
  obtain ⟨range, listed, least, most⟩ := range_of_separator (Bool.not_eq_false _ ▸ separates)
  have positive : ∀ range ∈ separatorRanges, 0 < range.1 := by decide
  have beyond := positive range listed
  have apart := clear range listed
  rcases toNat_ofNat_or code with same | none <;> omega

private theorem expansions_clear :
    ∀ entry ∈ Text.caseExpansions, ∀ code ∈ entry.2, ClearOfSeparators code code := by
  decide +kernel

private theorem runs_clear :
    ∀ run ∈ Text.caseRuns, ClearOfSeparators run.upper (run.upper + (run.last - run.first)) := by
  decide +kernel

/-- The upper case of a character is its expansion, what a run moves it to, or the character itself. -/
theorem upper_cases (c : Char) :
    (∃ codes, (c.toNat, codes) ∈ Text.caseExpansions ∧ Text.upper c = codes.map Char.ofNat) ∨
      (∃ run ∈ Text.caseRuns, run.first ≤ c.toNat ∧ c.toNat ≤ run.last ∧
        Text.upper c = [Char.ofNat (run.upper + (c.toNat - run.first))]) ∨
      Text.upper c = [c] := by
  unfold Text.upper
  cases expanded : Text.caseExpansions.lookup c.toNat with
  | some codes =>
    obtain ⟨earlier, later, table, -⟩ := List.lookup_eq_some_iff.mp expanded
    exact .inl ⟨codes, by simp [table], rfl⟩
  | none =>
    cases found : Text.caseRuns.find? (·.moves c.toNat) with
    | some run =>
      have moves := List.find?_some found
      simp only [Text.CaseRun.moves, Bool.and_eq_true, decide_eq_true_eq] at moves
      exact .inr (.inl ⟨run, List.mem_of_find?_eq_some found, moves.1.1, moves.1.2, rfl⟩)
    | none => exact .inr (.inr rfl)

/-- Upper case makes no separator of a character that is none. -/
theorem upper_separator (upper : x ∈ Text.upper c) (separates : Naming.isWordSeparator x = true) : x = c := by
  rcases upper_cases c with ⟨codes, expanded, same⟩ | ⟨run, listed, first, last, same⟩ | same
  · rw [same] at upper
    obtain ⟨code, listed, rfl⟩ := List.mem_map.mp upper
    have clear := expansions_clear _ expanded code listed
    simp [not_separator_of_clear clear (Nat.le_refl _) (Nat.le_refl _)] at separates
  · rw [same, List.mem_singleton] at upper
    have clear := runs_clear run listed
    rw [upper, not_separator_of_clear clear (by omega) (by omega)] at separates
    cases separates
  · rw [same] at upper
    exact List.mem_singleton.mp upper

theorem pascalChars_not_separator (held : x ∈ Naming.pascalChars cs) : Naming.isWordSeparator x = false := by
  obtain ⟨word, cut, inside⟩ := List.mem_flatMap.mp held
  have plain : ∀ y ∈ word, Naming.isWordSeparator y = false := fun y held =>
    not_separator_of_mem_splitOnP cut held
  by_contra separates
  rw [Bool.not_eq_false] at separates
  cases word with
  | nil => cases inside
  | cons c rest =>
    rcases List.mem_append.mp inside with ofFirst | later
    · rw [upper_separator ofFirst separates, plain c List.mem_cons_self] at separates
      cases separates
    · rw [plain x (List.mem_cons_of_mem _ later)] at separates
      cases separates

theorem dot_not_mem_pascalCase (name : String) : '.' ∉ (Naming.pascalCase name).toList := by
  intro held
  have plain := pascalChars_not_separator (by simpa [Naming.pascalCase] using held)
  exact absurd plain (by decide)

/-! ### Full names -/

/-- The characters of a full name. -/
def dotted (nameSpace localName : List Char) : List Char :=
  if nameSpace = [] then localName else nameSpace ++ '.' :: localName

theorem toList_qualify (nameSpace localName : String) :
    (qualify nameSpace localName).toList = dotted nameSpace.toList localName.toList := by
  unfold qualify dotted
  by_cases root : nameSpace = "" <;> simp [root]

theorem dotted_append (nameSpace localName more : List Char) :
    dotted nameSpace (localName ++ more) = dotted nameSpace localName ++ more := by
  unfold dotted
  split <;> simp

private theorem takeWhile_append_stop {p : α → Bool} (stops : p c = false) (l rest : List α) :
    (l ++ c :: rest).takeWhile p = l.takeWhile p := by
  induction l with
  | nil => simp [stops]
  | cons x l ih => simp only [List.cons_append, List.takeWhile_cons, ih]

/-- What stands after the last dot of a full name is the same in every namespace. -/
private theorem afterLastDot_dotted (nameSpace localName : List Char) :
    (dotted nameSpace localName).reverse.takeWhile (· ≠ '.') =
      localName.reverse.takeWhile (· ≠ '.') := by
  unfold dotted
  split
  · rfl
  · rw [List.reverse_append, List.reverse_cons, List.append_assoc, List.singleton_append]
    exact takeWhile_append_stop (by simp) _ _

theorem nameSpace_eq_of_dotted (same : dotted nameSpace localName = dotted other localName) :
    nameSpace = other := by
  have lengths := congrArg List.length same
  by_cases root : nameSpace = [] <;> by_cases otherRoot : other = []
  · rw [root, otherRoot]
  · simp only [dotted, root, otherRoot, ↓reduceIte, List.length_append, List.length_cons] at lengths
    omega
  · simp only [dotted, root, otherRoot, ↓reduceIte, List.length_append, List.length_cons] at lengths
    omega
  · simp only [dotted, root, otherRoot, ↓reduceIte] at same
    exact List.append_cancel_right same

/-- A full name tells its namespace and its local name, if it is known what surrounds the part of the local
name that has no dot. -/
theorem eq_of_dotted {before after own otherOwn : List Char} (plain : '.' ∉ own) (otherPlain : '.' ∉ otherOwn)
    (same : dotted nameSpace (before ++ own ++ after) = dotted other (before ++ otherOwn ++ after)) :
    nameSpace = other ∧ own = otherOwn := by
  have uncovered : dotted nameSpace (before ++ own) = dotted other (before ++ otherOwn) := by
    rw [dotted_append nameSpace (before ++ own), dotted_append other (before ++ otherOwn)] at same
    exact List.append_cancel_right same
  have ends := congrArg (fun name => name.reverse.takeWhile (· ≠ '.')) uncovered
  have whole : ∀ part : List Char, '.' ∉ part →
      (before ++ part).reverse.takeWhile (· ≠ '.') =
        part.reverse ++ before.reverse.takeWhile (· ≠ '.') := by
    intro part plain
    rw [List.reverse_append, List.takeWhile_append_of_pos]
    intro c held
    have : c ≠ '.' := fun dot => plain (dot ▸ List.mem_reverse.mp held)
    simpa using this
  simp only [afterLastDot_dotted, whole own plain, whole otherOwn otherPlain] at ends
  have parts : own = otherOwn := List.reverse_injective (List.append_cancel_right ends)
  exact ⟨nameSpace_eq_of_dotted (parts ▸ uncovered), parts⟩

theorem fullName_ofIdentity (identity : Identity) :
    (TypeReference.ofIdentity identity).fullName = identity.fullName := rfl

/-- Two views of one run with the same full name have the same class. -/
theorem reference_eq_of_fullName {naming : Naming} {a b : ViewKey}
    (same : (naming.identify a).fullName = (naming.identify b).fullName) :
    TypeReference.ofIdentity (naming.identify a) = TypeReference.ofIdentity (naming.identify b) := by
  have names := congrArg String.toList same
  simp only [Identity.fullName, toList_qualify, Naming.identify, Naming.localNameOf, String.toList_append]
    at names
  obtain ⟨nameSpaces, parts⟩ := eq_of_dotted (dot_not_mem_pascalCase _) (dot_not_mem_pascalCase _) names
  simp only [TypeReference.ofIdentity, Naming.identify, Naming.localNameOf, String.toList_inj.mp nameSpaces,
    String.toList_inj.mp parts]

/-- Two classes are one class: they have the namespace and the local name in common. -/
def SameClass (a b : Identity) : Prop := a.nameSpace = b.nameSpace ∧ a.localName = b.localName

instance (a b : Identity) : Decidable (SameClass a b) :=
  inferInstanceAs (Decidable (a.nameSpace = b.nameSpace ∧ a.localName = b.localName))

/-- A run can group views by full name as well as by class. -/
theorem fullName_eq_iff {naming : Naming} {a b : ViewKey} :
    (naming.identify a).fullName = (naming.identify b).fullName ↔
      SameClass (naming.identify a) (naming.identify b) := by
  constructor
  · intro same
    have references := reference_eq_of_fullName same
    exact ⟨congrArg TypeReference.nameSpace references, congrArg TypeReference.localName references⟩
  · rintro ⟨nameSpaces, localNames⟩
    rw [Identity.fullName, Identity.fullName, nameSpaces, localNames]

end ViewSchema.ClassNames
