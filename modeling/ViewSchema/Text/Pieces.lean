/-! Texts cut at separators. A cut keeps every piece, empty ones included; dropping the empty pieces is
left to the caller, because a path, a dotted name and a file name differ in what an empty piece means. -/

namespace ViewSchema.Text

/-- The pieces between the characters that satisfy `isSeparator`, one more than there are of these. -/
def cutAt (isSeparator : Char → Bool) (s : String) : List String :=
  (s.toList.splitOnP isSeparator).map .ofList

/-- What stands before and after the last occurrence of a character. -/
def splitAtLast (c : Char) : List Char → Option (List Char × List Char)
  | [] => none
  | x :: rest =>
    match splitAtLast c rest with
    | some (before, after) => some (x :: before, after)
    | none => if x = c then some ([], rest) else none

theorem splitAtLast_eq_none_iff {c : Char} {cs : List Char} : splitAtLast c cs = none ↔ c ∉ cs := by
  induction cs with
  | nil => simp [splitAtLast]
  | cons x rest ih =>
    rw [List.mem_cons, not_or, ← ih, splitAtLast]
    cases splitAtLast c rest with
    | some pieces => simp
    | none => simp [eq_comm]

theorem splitAtLast_append {c : Char} {after : List Char} (absent : c ∉ after) (before : List Char) :
    splitAtLast c (before ++ c :: after) = some (before, after) := by
  induction before with
  | nil => simp [splitAtLast, splitAtLast_eq_none_iff.mpr absent]
  | cons x before ih => rw [List.cons_append, splitAtLast, ih]

theorem eq_of_splitAtLast {c : Char} {cs before after : List Char}
    (h : splitAtLast c cs = some (before, after)) : cs = before ++ c :: after ∧ c ∉ after := by
  induction cs generalizing before with
  | nil => simp [splitAtLast] at h
  | cons x rest ih =>
    simp only [splitAtLast] at h
    split at h
    · next found =>
      simp only [Option.some.injEq, Prod.mk.injEq] at h
      obtain ⟨rfl, rfl⟩ := h
      obtain ⟨rfl, absent⟩ := ih found
      exact ⟨rfl, absent⟩
    · next missing =>
      split at h
      · next same =>
        simp only [Option.some.injEq, Prod.mk.injEq] at h
        obtain ⟨rfl, rfl⟩ := h
        exact ⟨by simp [same], splitAtLast_eq_none_iff.mp missing⟩
      · simp at h

/-- What stands before and after the last occurrence of a character in a text. -/
def cutAtLast (c : Char) (s : String) : Option (String × String) :=
  (splitAtLast c s.toList).map fun (before, after) => (.ofList before, .ofList after)

theorem cutAtLast_eq_none_iff {c : Char} {s : String} : cutAtLast c s = none ↔ c ∉ s.toList := by
  rw [cutAtLast, Option.map_eq_none_iff, splitAtLast_eq_none_iff]

/-- A cut at the last occurrence gives back what was joined by the character, if the second part is free of
it. -/
theorem cutAtLast_append {c : Char} {after : String} (absent : c ∉ after.toList) (before : String) :
    cutAtLast c (before ++ String.singleton c ++ after) = some (before, after) := by
  have joined : (before ++ String.singleton c ++ after).toList = before.toList ++ c :: after.toList := by simp
  rw [cutAtLast, joined, splitAtLast_append absent]
  simp

theorem eq_of_cutAtLast {c : Char} {s before after : String} (cut : cutAtLast c s = some (before, after)) :
    s = before ++ String.singleton c ++ after ∧ c ∉ after.toList := by
  obtain ⟨pieces, found, same⟩ := Option.map_eq_some_iff.mp cut
  obtain ⟨rfl, rfl⟩ := Prod.mk.inj same
  obtain ⟨whole, absent⟩ := eq_of_splitAtLast found
  refine ⟨String.toList_inj.mp ?_, by simpa using absent⟩
  simp [whole]

example : cutAt (· == '.') "a..b" = ["a", "", "b"] ∧ cutAt (· == '.') "" = [""] := by decide

example : cutAtLast '.' "a.b.c" = some ("a.b", "c") ∧ cutAtLast '.' "abc" = none := by decide

end ViewSchema.Text
