import ViewSchema.Proofs.WordSpelling

/-! Which file names are reported for a character that no class name may hold. Such a character is copied into
the class name and reported there, with one exception: at the front of a word it is put in upper case, and
the upper case of ten characters, ligatures and letters close to Latin ones, is made of plain letters only. A
file name that holds foreign characters in no other place gives a class name without any. -/
namespace ViewSchema.ForeignCharacters
open IdentifierGrammar WordSpelling

/-- A character that no identifier holds and that does not separate words either. -/
def Foreign (c : Char) : Prop := ¬ Continues c ∧ Naming.isWordSeparator c = false

instance : DecidablePred Foreign := fun c =>
  inferInstanceAs (Decidable (¬ Continues c ∧ Naming.isWordSeparator c = false))

/-- The foreign characters with an upper case of plain letters. -/
def absorbed : List Char := ['ß', 'ı', 'ſ', 'ﬀ', 'ﬁ', 'ﬂ', 'ﬃ', 'ﬄ', 'ﬅ', 'ﬆ']

/-- The name has a foreign character where it stays foreign: inside a word, or in front of one if its upper
case is foreign too. -/
def ShowsForeign (name : List Char) : Prop :=
  ∃ before c after, name = before ++ c :: after ∧ Foreign c ∧ (beginsWord before true = true → c ∉ absorbed)

/-! ### Upper case of foreign characters -/

private theorem absorbed_table : absorbed.all (fun c => (Text.upper c).all Text.isNameChar) = true := by
  decide +kernel

private theorem expansions_table : ∀ entry ∈ Text.caseExpansions,
    (∀ code ∈ entry.2, Text.isNameChar (Char.ofNat code) = true) → Char.ofNat entry.1 ∈ absorbed := by
  decide +kernel

/-- A run goes to foreign characters, moves the plain letters, or moves one character alone. -/
private theorem runs_table : ∀ run ∈ Text.caseRuns,
    0x7A < run.upper ∨ (0x61 ≤ run.first ∧ run.last ≤ 0x7A) ∨
      (run.first = run.last ∧ Char.ofNat run.first ∈ absorbed) := by
  decide +kernel

theorem continues_of_lowercase (least : 0x61 ≤ c.toNat) (most : c.toNat ≤ 0x7A) : Continues c :=
  .inl (.inr (.inl ⟨least, most⟩))

/-- A foreign character becomes plain in upper case exactly if it is one of the ten. -/
theorem upper_continues_iff (foreign : Foreign c) :
    (∀ x ∈ Text.upper c, Continues x) ↔ c ∈ absorbed := by
  have becomes : c ∈ absorbed → ∀ x ∈ Text.upper c, Continues x := by
    intro listed x comes
    have upper := List.all_eq_true.mp absorbed_table c listed
    exact isNameChar_iff.mp (List.all_eq_true.mp upper x comes)
  refine ⟨fun plain => ?_, becomes⟩
  rcases ClassNames.upper_cases c with ⟨codes, expanded, same⟩ | ⟨run, listed, first, last, same⟩ | same
  · rw [← Char.ofNat_toNat c]
    refine expansions_table _ expanded fun code listed => ?_
    exact isNameChar_iff.mpr (plain _ (same ▸ List.mem_map_of_mem listed))
  · have moved := toNat_of_continues (plain _ (same ▸ List.mem_cons_self))
    rcases runs_table run listed with beyond | letters | ⟨single, absorbs⟩
    · rcases ClassNames.toNat_ofNat_or (run.upper + (c.toNat - run.first)) with kept | none <;> omega
    · exact absurd (continues_of_lowercase (by omega) (by omega)) foreign.1
    · have own : run.first = c.toNat := by omega
      rwa [own, Char.ofNat_toNat] at absorbs
  · exact absurd (plain c (same ▸ List.mem_cons_self)) foreign.1

/-! ### Class names with a foreign character -/

/-- A class name has a character outside the grammar exactly if the file name shows one. -/
theorem pascalChars_foreign_iff (name : List Char) :
    (∃ x ∈ Naming.pascalChars name, ¬ Continues x) ↔ ShowsForeign name := by
  rw [pascalChars_eq_spell]
  constructor
  · rintro ⟨x, spelled, outside⟩
    obtain ⟨before, c, after, same, plain, comes⟩ := mem_spell.mp spelled
    have foreign : ¬ Continues c := fun continues => outside (continues_of_spelled continues comes)
    refine ⟨before, c, after, same, ⟨foreign, plain⟩, fun front listed => ?_⟩
    rw [if_pos front] at comes
    exact outside ((upper_continues_iff ⟨foreign, plain⟩).mpr listed x comes)
  · rintro ⟨before, c, after, same, foreign, kept⟩
    have comes : ∃ x ∈ if beginsWord before true then Text.upper c else [c], ¬ Continues x := by
      split
      · next front =>
        by_contra allPlain
        push Not at allPlain
        exact kept front ((upper_continues_iff foreign).mp allPlain)
      · exact ⟨c, List.mem_cons_self, foreign.1⟩
    obtain ⟨x, comes, outside⟩ := comes
    exact ⟨x, mem_spell.mpr ⟨before, c, after, same, foreign.2, comes⟩, outside⟩

/-- The class of the view is reported for its local name. -/
def Reported (config : Config) (views : List ViewKey) (key : ViewKey) : Prop :=
  let identity := (Naming.ofViews config views).identify key
  .invalidIdentity key identity.fullName (.localName identity.localName) ∈ identity.errors

instance (config : Config) (views : List ViewKey) (key : ViewKey) : Decidable (Reported config views key) :=
  inferInstanceAs (Decidable (_ ∈ _))

theorem reported_iff {config : Config} {views : List ViewKey} {key : ViewKey} :
    Reported config views key ↔ ¬ Identifier ((Naming.ofViews config views).localNameOf key) := by
  rw [← isIdentifier_iff]
  by_cases writable : Text.isIdentifier ((Naming.ofViews config views).localNameOf key) = true <;>
    simp [Reported, Identity.errors, Identity.faults, writable, Naming.identify]

/-- Whatever the settings are, what the file name shows is reported. -/
theorem reported_of_showsForeign {key : ViewKey} (shows : ShowsForeign (Naming.fileStem key.fileName).toList)
    (config : Config) (views : List ViewKey) : Reported config views key := by
  rw [reported_iff]
  intro name
  obtain ⟨x, inside, outside⟩ := (pascalChars_foreign_iff _).mpr shows
  have held : x ∈ ((Naming.ofViews config views).localNameOf key).toList := by
    simp [Naming.localNameOf, Naming.pascalCase, inside]
  exact outside (name.continues x held)

/-- Under settings that add only what a name may hold, nothing else in a file name is reported. -/
theorem reported_iff_showsForeign (config : Config) {key : ViewKey}
    (before : Identifier (config.namePrefix.getD "")) (after : ∀ c ∈ config.nameSuffix.toList, Continues c)
    (views : List ViewKey) :
    Reported config views key ↔ ShowsForeign (Naming.fileStem key.fileName).toList := by
  refine ⟨fun reported => ?_, fun shows => reported_of_showsForeign shows config views⟩
  by_contra hides
  have plain : ∀ x ∈ (Naming.pascalCase (Naming.fileStem key.fileName)).toList, Continues x := by
    intro x inside
    rw [Naming.pascalCase, String.toList_ofList] at inside
    by_contra outside
    exact hides ((pascalChars_foreign_iff _).mp ⟨x, inside, outside⟩)
  exact reported_iff.mp reported ((before.append plain).append after)

/-- A file name is reported in every run exactly if it shows a foreign character. -/
theorem foreign_reported_iff (key : ViewKey) :
    (∀ config views, key ∈ views → Reported config views key) ↔
      ShowsForeign (Naming.fileStem key.fileName).toList := by
  constructor
  · intro always
    have before : Identifier "Site" := by decide
    have after : Identifier "View" := by decide
    exact (reported_iff_showsForeign { namePrefix := some "Site" } before after.continues [key]).mp
      (always _ [key] List.mem_cons_self)
  · intro shows config views _
    exact reported_of_showsForeign shows config views

/-- A dotless letter at the front of a file name becomes a plain one, and nothing is reported. -/
theorem dotless_letter_absorbed :
    let key := ViewKey.ofPath "ıcon.hbs"
    let identity := (Naming.ofViews {} [key]).identify key
    Foreign 'ı' ∧ 'ı' ∈ (Naming.fileStem key.fileName).toList ∧ identity.localName = "IconView" ∧
      identity.errors = [] ∧ ¬ Reported {} [key] key := by
  decide +kernel

end ViewSchema.ForeignCharacters
