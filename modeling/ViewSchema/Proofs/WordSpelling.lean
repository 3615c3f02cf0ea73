import ViewSchema.Proofs.ClassNames
import ViewSchema.Proofs.IdentifierGrammar

/-! A class name told character by character. Cutting a file name into words and joining them again comes to one
pass over it: separators are dropped, a character that begins a word is put in upper case, and every other
one is copied. So each character of a class name has one place in the file name that it comes from. -/
namespace ViewSchema.WordSpelling
open IdentifierGrammar

/-- What the pass makes of a name. The flag says whether the next character begins a word. -/
def spell (front : Bool) : List Char → List Char
  | [] => []
  | c :: rest =>
    (if Naming.isWordSeparator c then [] else if front then Text.upper c else [c]) ++
      spell (Naming.isWordSeparator c) rest

/-- The pass is half way through a word or at its front, and the words behind it are whole. -/
private theorem spell_eq_pieces (cs : List Char) :
    ∃ word words, cs.splitOnP Naming.isWordSeparator = word :: words ∧
      spell false cs = word ++ words.flatMap Naming.capitalize ∧
      spell true cs = Naming.capitalize word ++ words.flatMap Naming.capitalize := by
  induction cs with
  | nil => exact ⟨[], [], List.splitOnP_nil, rfl, rfl⟩
  | cons c rest ih =>
    obtain ⟨word, words, pieces, inside, front⟩ := ih
    rw [List.splitOnP_cons_eq_if_modifyHead, pieces]
    by_cases separates : Naming.isWordSeparator c = true
    · refine ⟨[], word :: words, if_pos separates, ?_, ?_⟩ <;>
        simp [spell, separates, front, Naming.capitalize]
    · refine ⟨c :: word, words, if_neg separates, ?_, ?_⟩ <;>
        simp [spell, separates, inside, Naming.capitalize]

theorem pascalChars_eq_spell (cs : List Char) : Naming.pascalChars cs = spell true cs := by
  obtain ⟨word, words, pieces, -, front⟩ := spell_eq_pieces cs
  rw [Naming.pascalChars, pieces, List.flatMap_cons, front]

/-- Whether a word begins behind this start of a name. -/
def beginsWord (before : List Char) (front : Bool) : Bool :=
  (before.getLast?.map Naming.isWordSeparator).getD front

theorem beginsWord_cons (c : Char) (before : List Char) (front : Bool) :
    beginsWord (c :: before) front = beginsWord before (Naming.isWordSeparator c) := by
  cases ends : before.getLast? <;> simp [beginsWord, List.getLast?_cons, ends]

/-- What stands in a class name comes from a character that is no separator, by way of upper case if that
character begins a word. -/
theorem mem_spell {cs : List Char} {front : Bool} : x ∈ spell front cs ↔
    ∃ before c after, cs = before ++ c :: after ∧ Naming.isWordSeparator c = false ∧
      x ∈ if beginsWord before front then Text.upper c else [c] := by
  induction cs generalizing front with
  | nil => simp [spell]
  | cons first rest ih =>
    rw [spell, List.mem_append, ih]
    constructor
    · rintro (own | ⟨before, c, after, same, plain, comes⟩)
      · by_cases separates : Naming.isWordSeparator first = true
        · simp [separates] at own
        · rw [if_neg separates] at own
          exact ⟨[], first, rest, rfl, Bool.eq_false_iff.mpr separates, own⟩
      · rw [← beginsWord_cons] at comes
        exact ⟨first :: before, c, after, congrArg (first :: ·) same, plain, comes⟩
    · rintro ⟨before, c, after, same, plain, comes⟩
      cases before with
      | nil =>
        obtain ⟨rfl, rfl⟩ := List.cons.inj same
        refine .inl ?_
        rw [if_neg (Bool.eq_false_iff.mp plain)]
        exact comes
      | cons _ before =>
        obtain ⟨rfl, rfl⟩ := List.cons.inj same
        rw [beginsWord_cons] at comes
        exact .inr ⟨before, c, after, rfl, plain, comes⟩

/-! ### Separators cut a class name -/

/-- The pass goes on behind a start of a name as the last character of that start leaves it. -/
theorem spell_append (front : Bool) (before after : List Char) :
    spell front (before ++ after) = spell front before ++ spell (beginsWord before front) after := by
  induction before generalizing front with
  | nil => rfl
  | cons c rest ih => rw [List.cons_append, spell, spell, ih, beginsWord_cons, List.append_assoc]

/-- Behind a separator a name is spelled as if it began there. -/
theorem spell_append_separator (separates : Naming.isWordSeparator c = true) (before after : List Char) :
    spell true (before ++ c :: after) = spell true before ++ spell true after := by
  rw [spell_append, spell, if_pos separates, separates, List.nil_append]

/-- The characters of a name, each with the one before it. -/
def withPrevious (cs : List Char) : List (Option Char × Char) := (none :: cs.map some).zip cs

/-- What a character of a name leaves in the class name. A separator leaves nothing; the first character of a run
without separators, which stands at the start or behind a separator, leaves its upper case; and every other one
leaves itself. -/
def imprint (previous : Option Char) (c : Char) : List Char :=
  if Naming.isWordSeparator c then [] else if previous.all Naming.isWordSeparator then Text.upper c else [c]

theorem spell_eq_imprints (previous : Option Char) (cs : List Char) :
    spell (previous.all Naming.isWordSeparator) cs =
      ((previous :: cs.map some).zip cs).flatMap fun place => imprint place.1 place.2 := by
  induction cs generalizing previous with
  | nil => rfl
  | cons c rest ih => rw [spell, List.map_cons, List.zip_cons_cons, List.flatMap_cons, ← ih]; rfl

/-- The class name of a file name is that of what stands before a separator and that of what stands behind it,
joined. No separator is left in it, and all others of its characters are there, in their order, the first of each
run in upper case. -/
theorem pascalCase_word_by_word :
    (∀ (s t : String) (c : Char), Naming.isWordSeparator c = true →
        Naming.pascalCase (s.push c ++ t) = Naming.pascalCase s ++ Naming.pascalCase t) ∧
      (∀ s, ∀ x ∈ (Naming.pascalCase s).toList, Naming.isWordSeparator x = false) ∧
      ∀ s, (Naming.pascalCase s).toList =
        (withPrevious s.toList).flatMap fun place => imprint place.1 place.2 := by
  refine ⟨fun s t c separates => ?_, fun s x held => ?_, fun s => ?_⟩
  · have cut := spell_append_separator separates s.toList t.toList
    simp only [Naming.pascalCase, pascalChars_eq_spell, String.toList_append, String.toList_push,
      List.append_assoc, List.singleton_append, cut, String.ofList_append]
  · rw [Naming.pascalCase, String.toList_ofList] at held
    exact ClassNames.pascalChars_not_separator held
  · rw [Naming.pascalCase, String.toList_ofList, pascalChars_eq_spell]
    exact spell_eq_imprints none s.toList

/-- One separator of several is the cut, and the first letter behind them takes two letters in upper case. -/
theorem pascalCase_word_by_word_dashed :
    Naming.pascalCase ("my-big".push '_' ++ "- ßcard.v2") = "MyBig" ++ "SScardV2" := by
  have cut := pascalCase_word_by_word.1 "my-big" "- ßcard.v2" '_' (by decide)
  exact cut.trans (by decide)

/-! ### Upper case of plain characters -/

/-- The code points of plain characters lie between those of `0` and `z`. -/
theorem toNat_of_continues (continues : Continues c) : 0x30 ≤ c.toNat ∧ c.toNat ≤ 0x7A := by
  have between : ∀ first last : Char, 0x30 ≤ first.toNat → last.toNat ≤ 0x7A → first ≤ c ∧ c ≤ last →
      0x30 ≤ c.toNat ∧ c.toNat ≤ 0x7A := by
    intro first last least most bounds
    exact ⟨Nat.le_trans least bounds.1, Nat.le_trans bounds.2 most⟩
  rcases continues with (upper | lower | rfl) | digit
  · exact between 'A' 'Z' (by decide) (by decide) upper
  · exact between 'a' 'z' (by decide) (by decide) lower
  · decide
  · exact between '0' '9' (by decide) (by decide) digit

private theorem expansions_beyond : ∀ entry ∈ Text.caseExpansions, 0x7A < entry.1 := by decide +kernel

private theorem runs_beyond : ∀ run ∈ Text.caseRuns, 0x7A < run.first ∨
    (run.first = 0x61 ∧ run.last = 0x7A ∧ run.upper = 0x41) := by
  decide +kernel

/-- A plain character has one upper case, which is plain again: small letters become capital letters, and
every other plain character stays what it is. -/
theorem upper_of_continues (continues : Continues c) :
    ∃ x, Text.upper c = [x] ∧ Continues x ∧ (Opens c → Opens x) := by
  have small := (toNat_of_continues continues).2
  rcases ClassNames.upper_cases c with ⟨codes, expanded, -⟩ | ⟨run, listed, first, last, same⟩ | same
  · have beyond := expansions_beyond _ expanded
    omega
  · rcases runs_beyond run listed with beyond | ⟨start, stop, capital⟩
    · omega
    · have valid : (run.upper + (c.toNat - run.first)).isValidChar := .inl (by omega)
      have moved := ClassNames.toNat_ofNat_of_valid valid
      have least : 0x41 ≤ (Char.ofNat (run.upper + (c.toNat - run.first))).toNat := by omega
      have most : (Char.ofNat (run.upper + (c.toNat - run.first))).toNat ≤ 0x5A := by omega
      have opens : Opens (Char.ofNat (run.upper + (c.toNat - run.first))) := .inl ⟨least, most⟩
      exact ⟨_, same, .inl opens, fun _ => opens⟩
  · exact ⟨c, same, continues, id⟩

/-- Nothing foreign comes of a plain character, in front of a word or inside it. -/
theorem continues_of_spelled {front : Bool} (continues : Continues c)
    (comes : x ∈ if front then Text.upper c else [c]) : Continues x := by
  split at comes
  · obtain ⟨y, single, plain, -⟩ := upper_of_continues continues
    rw [single, List.mem_singleton] at comes
    exact comes ▸ plain
  · exact List.mem_singleton.mp comes ▸ continues

end ViewSchema.WordSpelling
