import Mathlib.Data.List.DropRight
import ViewSchema.Config.Basic

/-! When the shared spelling of a path is its own shared spelling. Blanks are dropped once, before the root of the
path is; a blank that stood right behind the root comes to the front after that and is dropped only by the
next reading. Nothing else makes a second reading differ from the first. So a key that is written out and
read back is the same key, and a configured view is recognized by its own key, for exactly the paths that
have no blank there. -/
namespace ViewSchema.KeyNormalization

/-! ### Blanks at the ends -/

/-- The text starts with a blank. -/
def OpensBlank (cs : List Char) : Prop := ∃ c rest, cs = c :: rest ∧ Text.isBlank c = true

/-- The text ends with a blank. -/
def EndsBlank (cs : List Char) : Prop := ∃ before c, cs = before ++ [c] ∧ Text.isBlank c = true

theorem endsBlank_of_suffix (part : tail <:+ cs) (ends : EndsBlank tail) : EndsBlank cs := by
  obtain ⟨start, rfl⟩ := part
  obtain ⟨before, c, rfl, blank⟩ := ends
  exact ⟨start ++ before, c, (List.append_assoc _ _ _).symm, blank⟩

/-- Trimming takes the blanks off the end of what is left after taking them off the start. -/
theorem trimChars_eq (cs : List Char) :
    Text.trimChars cs = (cs.dropWhile Text.isBlank).rdropWhile Text.isBlank := rfl

theorem trimChars_not_endsBlank (cs : List Char) : ¬ EndsBlank (Text.trimChars cs) := by
  rintro ⟨before, c, trimmed, blank⟩
  rw [trimChars_eq] at trimmed
  have filled : (cs.dropWhile Text.isBlank).rdropWhile Text.isBlank ≠ [] := by simp [trimmed]
  have last := List.rdropWhile_last_not Text.isBlank _ filled
  simp only [trimmed, List.getLast_append_singleton] at last
  exact last blank

/-- Nothing is taken off a text that neither starts nor ends with a character to be taken off. -/
theorem trimmed_eq_self {p : Char → Bool} (front : ∀ c rest, cs = c :: rest → p c = false)
    (back : ∀ before c, cs = before ++ [c] → p c = false) : (cs.dropWhile p).rdropWhile p = cs := by
  have start : cs.dropWhile p = cs := by
    cases cs with
    | nil => rfl
    | cons c rest => exact List.dropWhile_cons_of_neg (Bool.eq_false_iff.mp (front c rest rfl))
  rw [start, List.rdropWhile_eq_self_iff]
  intro filled
  have last := back cs.dropLast (cs.getLast filled) (List.dropLast_append_getLast filled).symm
  exact Bool.eq_false_iff.mp last

/-- A text without blanks at its ends is trimmed already. -/
theorem trimChars_eq_self (opens : ¬ OpensBlank cs) (ends : ¬ EndsBlank cs) : Text.trimChars cs = cs := by
  rw [trimChars_eq]
  apply trimmed_eq_self
  · intro c rest chars
    exact Bool.eq_false_iff.mpr fun blank => opens ⟨c, rest, chars, blank⟩
  · intro before c chars
    exact Bool.eq_false_iff.mpr fun blank => ends ⟨before, c, chars, blank⟩

/-- Trimming a text that starts with a blank makes it shorter. -/
theorem trimChars_shorter (opens : OpensBlank cs) : (Text.trimChars cs).length < cs.length := by
  obtain ⟨c, rest, rfl, blank⟩ := opens
  have start : (c :: rest).dropWhile Text.isBlank = rest.dropWhile Text.isBlank :=
    List.dropWhile_cons_of_pos blank
  have left := (List.rdropWhile_prefix Text.isBlank (rest.dropWhile Text.isBlank)).length_le
  have dropped := List.length_dropWhile_le Text.isBlank rest
  rw [trimChars_eq, start, List.length_cons]
  omega

/-! ### The root of a path -/

/-- Separators and steps to the directory itself, which a path may start with and which say nothing. -/
inductive RootSteps : List Char → Prop where
  | none : RootSteps []
  | separator (steps : RootSteps rest) : RootSteps ('/' :: rest)
  | here (steps : RootSteps rest) : RootSteps ('.' :: '/' :: rest)

/-- A path that starts with none of these. -/
structure Rooted (path : List Char) : Prop where
  no_separator : ∀ rest, path ≠ '/' :: rest
  no_here : ∀ rest, path ≠ '.' :: '/' :: rest

/-- Only root steps are dropped, and as many as there are. -/
theorem dropRoot_drops (path : List Char) :
    (∃ steps, RootSteps steps ∧ path = steps ++ ViewKey.dropRoot path) ∧ Rooted (ViewKey.dropRoot path) := by
  fun_induction ViewKey.dropRoot path with
  | case1 rest ih =>
    obtain ⟨⟨steps, root, same⟩, rooted⟩ := ih
    exact ⟨⟨'.' :: '/' :: steps, .here root, congrArg ('.' :: '/' :: ·) same⟩, rooted⟩
  | case2 rest ih =>
    obtain ⟨⟨steps, root, same⟩, rooted⟩ := ih
    exact ⟨⟨'/' :: steps, .separator root, congrArg ('/' :: ·) same⟩, rooted⟩
  | case3 path noHere noSeparator => exact ⟨⟨[], .none, rfl⟩, ⟨noSeparator, noHere⟩⟩

/-- What stands behind the root steps is left, whatever they are. -/
theorem dropRoot_append (root : RootSteps steps) (rooted : Rooted path) :
    ViewKey.dropRoot (steps ++ path) = path := by
  induction root with
  | none =>
    rw [List.nil_append]
    fun_cases ViewKey.dropRoot path with
    | case1 rest => exact absurd rfl (rooted.no_here rest)
    | case2 rest => exact absurd rfl (rooted.no_separator rest)
    | case3 => rfl
  | separator _ ih => exact ih
  | here _ ih => exact ih

theorem dropRoot_suffix (path : List Char) : ViewKey.dropRoot path <:+ path := by
  obtain ⟨steps, _, same⟩ := (dropRoot_drops path).1
  exact ⟨steps, same.symm⟩

theorem rooted_of_opensBlank (opens : OpensBlank path) : Rooted path := by
  obtain ⟨c, rest, rfl, blank⟩ := opens
  constructor
  · rintro other same
    obtain rfl := List.head_eq_of_cons_eq same
    exact absurd blank (by decide)
  · rintro other same
    obtain rfl := List.head_eq_of_cons_eq same
    exact absurd blank (by decide)

/-! ### Reading a spelling a second time -/

/-- A path without the blanks around it and with all separators spelled alike. -/
def spelledAlike (path : List Char) : List Char :=
  (Text.trimChars path).map fun c => if c = '\\' then '/' else c

theorem normalize_eq (path : List Char) : ViewKey.normalize path = ViewKey.dropRoot (spelledAlike path) := rfl

theorem backslash_not_mem_spelledAlike (path : List Char) : '\\' ∉ spelledAlike path := by
  intro held
  obtain ⟨c, _, spelled⟩ := List.mem_map.mp held
  by_cases backslash : c = '\\'
  · simp [backslash] at spelled
  · simp [backslash] at spelled

theorem spelledAlike_not_endsBlank (path : List Char) : ¬ EndsBlank (spelledAlike path) := by
  rintro ⟨before, c, spelled, blank⟩
  obtain ⟨start, last, trimmed, -, ends⟩ := List.map_eq_append_iff.mp spelled
  obtain ⟨own, rfl, same⟩ := List.map_eq_singleton_iff.mp ends
  by_cases backslash : own = '\\'
  · simp only [backslash, ↓reduceIte] at same
    subst same
    exact absurd blank (by decide)
  · simp only [backslash, ↓reduceIte] at same
    exact trimChars_not_endsBlank path ⟨start, own, trimmed, same ▸ blank⟩

/-- A shared spelling can only still be read differently for a blank at its start. -/
theorem normalize_normalize (path : List Char) :
    ViewKey.normalize (ViewKey.normalize path) = ViewKey.normalize path ↔
      ¬ OpensBlank (ViewKey.normalize path) := by
  have suffix : ViewKey.normalize path <:+ spelledAlike path := dropRoot_suffix _
  constructor
  · intro settled opens
    have trimmed := trimChars_shorter opens
    have rest := (dropRoot_suffix (spelledAlike (ViewKey.normalize path))).length_le
    have spelled : (spelledAlike (ViewKey.normalize path)).length =
        (Text.trimChars (ViewKey.normalize path)).length := List.length_map _
    have lengths := congrArg List.length settled
    rw [normalize_eq (ViewKey.normalize path)] at lengths
    omega
  · intro opens
    have ends : ¬ EndsBlank (ViewKey.normalize path) := fun ends =>
      spelledAlike_not_endsBlank path (endsBlank_of_suffix suffix ends)
    have spelled : spelledAlike (ViewKey.normalize path) = ViewKey.normalize path := by
      rw [spelledAlike, trimChars_eq_self opens ends]
      refine (List.map_congr_left fun c held => ?_).trans (List.map_id _)
      have plain : c ≠ '\\' := fun same =>
        backslash_not_mem_spelledAlike path (suffix.subset (same ▸ held))
      exact if_neg plain
    have rooted : Rooted (ViewKey.normalize path) := (dropRoot_drops (spelledAlike path)).2
    rw [normalize_eq (ViewKey.normalize path), spelled]
    exact dropRoot_append .none rooted

/-- Right behind the root steps of the path stands a blank. -/
def BlankBehindRoot (path : String) : Prop :=
  ∃ steps c rest, RootSteps steps ∧ spelledAlike path.toList = steps ++ c :: rest ∧ Text.isBlank c = true

theorem opensBlank_normalize_iff (path : String) :
    OpensBlank (ViewKey.normalize path.toList) ↔ BlankBehindRoot path := by
  rw [normalize_eq]
  constructor
  · rintro ⟨c, rest, left, blank⟩
    obtain ⟨steps, root, same⟩ := (dropRoot_drops (spelledAlike path.toList)).1
    exact ⟨steps, c, rest, root, left ▸ same, blank⟩
  · rintro ⟨steps, c, rest, root, spelled, blank⟩
    have opens : OpensBlank (c :: rest) := ⟨c, rest, rfl, blank⟩
    rw [spelled, dropRoot_append root (rooted_of_opensBlank opens)]
    exact opens

theorem ofPath_path_iff (path : String) :
    ViewKey.ofPath (ViewKey.ofPath path).path = ViewKey.ofPath path ↔ ¬ BlankBehindRoot path := by
  rw [← opensBlank_normalize_iff, ← normalize_normalize]
  simp only [ViewKey.ofPath, String.toList_ofList, ViewKey.mk.injEq, String.ofList_inj]

theorem isMapTemplate_withMapTemplate (config : Config) (path : String) (key : ViewKey) :
    (config.withMapTemplate path).isMapTemplate key = true ↔
      ViewKey.ofPath (ViewKey.ofPath path).path = key ∨ config.isMapTemplate key = true := by
  have listed : ∀ template, template ∈ (config.withMapTemplate path).mapTemplates.toList ↔
      template = (ViewKey.ofPath path).path ∨ template ∈ config.mapTemplates.toList := fun _ =>
    SortedSet.mem_insert
  simp only [Config.isMapTemplate, List.any_eq_true, listed, or_and_right, exists_or, exists_eq_left,
    beq_iff_eq]

/-- A key that is read back from its own spelling is the same key exactly if no blank stands behind the root of
the path that it was made of. Under the same condition a view whose instances are configured to be bags is
recognized by its key, if no other setting names it. -/
theorem key_settled_iff (path : String) :
    (ViewKey.ofPath (ViewKey.ofPath path).path = ViewKey.ofPath path ↔ ¬ BlankBehindRoot path) ∧
      ∀ config : Config, (config.withMapTemplate path).isMapTemplate (ViewKey.ofPath path) = true ↔
        ¬ BlankBehindRoot path ∨ config.isMapTemplate (ViewKey.ofPath path) = true := by
  refine ⟨ofPath_path_iff path, fun config => ?_⟩
  rw [isMapTemplate_withMapTemplate, ofPath_path_iff]

/-- A blank behind the separator that a path starts with is kept at first, and lost when the key is read back. -/
theorem blank_behind_separator_lost :
    (ViewKey.ofPath "/ card.hbs").path = " card.hbs" ∧
      ViewKey.ofPath (ViewKey.ofPath "/ card.hbs").path ≠ ViewKey.ofPath "/ card.hbs" ∧
      (Config.withMapTemplate {} "/ card.hbs").isMapTemplate (ViewKey.ofPath "/ card.hbs") = false := by
  decide +kernel

end ViewSchema.KeyNormalization
