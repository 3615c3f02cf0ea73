import ViewSchema.Proofs.KeyNormalization
import ViewSchema.Proofs.NamespaceElision
import ViewSchema.Proofs.WordSpelling

/-! What the settings of a run have to do with the classes that it writes. The check of the settings looks at
characters only: it lets a step of the namespace and the start of class names begin with a digit, and it does
not look at the end of class names. For views with plain paths nothing else can go wrong, so every class of
an accepted run can be written exactly if none of the three settings does that. -/
namespace ViewSchema.NamingSettings
open IdentifierGrammar WordSpelling

def Digit (c : Char) : Prop := '0' ≤ c ∧ c ≤ '9'

def Letter (c : Char) : Prop := ('A' ≤ c ∧ c ≤ 'Z') ∨ ('a' ≤ c ∧ c ≤ 'z')

def StartsWithDigit (s : String) : Prop := ∃ c rest, s.toList = c :: rest ∧ Digit c

instance : DecidablePred Digit := fun c => inferInstanceAs (Decidable ('0' ≤ c ∧ c ≤ '9'))

instance : DecidablePred Letter := fun c =>
  inferInstanceAs (Decidable (('A' ≤ c ∧ c ≤ 'Z') ∨ ('a' ≤ c ∧ c ≤ 'z')))

instance : DecidablePred StartsWithDigit := fun s =>
  match chars : s.toList with
  | [] => isFalse fun ⟨_, _, start, _⟩ => by simp [chars] at start
  | c :: rest => decidable_of_iff (Digit c) (by simp [StartsWithDigit, chars])

/-- Settings that only add what an identifier may hold, each in its place. -/
structure Fit (config : Config) : Prop where
  steps : ∀ step ∈ Text.cutAt (· == '.') config.namespacePrefix, ¬ StartsWithDigit step
  before : ¬ StartsWithDigit (config.namePrefix.getD "")
  after : ∀ c ∈ config.nameSuffix.toList, Continues c

instance : DecidablePred Fit := fun config =>
  decidable_of_iff ((∀ step ∈ Text.cutAt (· == '.') config.namespacePrefix, ¬ StartsWithDigit step) ∧
      ¬ StartsWithDigit (config.namePrefix.getD "") ∧ config.nameSuffix.toList.all Text.isNameChar = true) <| by
    simp only [List.all_eq_true, isNameChar_iff]
    exact ⟨fun ⟨steps, before, after⟩ => ⟨steps, before, after⟩, fun fit => ⟨fit.steps, fit.before, fit.after⟩⟩

/-- A letter, and behind it letters, digits, underscores and hyphens. -/
def PlainName (name : List Char) : Prop :=
  ∃ first rest, name = first :: rest ∧ Letter first ∧ ∀ c ∈ rest, c = '-' ∨ Continues c

instance : DecidablePred PlainName
  | [] => isFalse fun ⟨_, _, start, _⟩ => by cases start
  | first :: rest =>
    decidable_of_iff (Letter first ∧ rest.all (fun c => c == '-' || Text.isNameChar c) = true) <| by
      simp [PlainName, isNameChar_iff]

/-- A path of identifiers to a file with a plain name, its last extension apart. -/
structure PlainPath (key : ViewKey) : Prop where
  directories : ∀ name ∈ key.directories, Identifier name
  stem : PlainName (Naming.fileStem key.fileName).toList

instance : DecidablePred PlainPath := fun key =>
  decidable_of_iff ((∀ name ∈ key.directories, Identifier name) ∧
      PlainName (Naming.fileStem key.fileName).toList)
    ⟨fun ⟨directories, stem⟩ => ⟨directories, stem⟩, fun plain => ⟨plain.directories, plain.stem⟩⟩

/-! ### Identifiers and digits -/

theorem not_digit_of_opens (opens : Opens c) : ¬ Digit c := by
  rintro ⟨-, most⟩
  have most : c.toNat ≤ 0x39 := most
  rcases opens with upper | lower | rfl
  · have least : 0x41 ≤ c.toNat := upper.1
    omega
  · have least : 0x61 ≤ c.toNat := lower.1
    omega
  · exact absurd most (by decide)

/-- An identifier is a text of name characters that does not start with a digit. -/
theorem identifier_iff : Identifier s ↔ s ≠ "" ∧ (∀ c ∈ s.toList, Continues c) ∧ ¬ StartsWithDigit s := by
  constructor
  · intro name
    refine ⟨?_, name.continues, ?_⟩
    · rintro rfl
      obtain ⟨_, _, filled, -⟩ := name
      cases filled
    · rintro ⟨c, others, start, digit⟩
      obtain ⟨first, rest, chars, opens, -⟩ := name
      obtain ⟨rfl, -⟩ := List.cons.inj (chars.symm.trans start)
      exact not_digit_of_opens opens digit
  · rintro ⟨filled, continues, start⟩
    obtain ⟨first, rest, chars⟩ := List.exists_cons_of_ne_nil (String.toList_eq_nil_iff.not.mpr filled)
    rw [chars] at continues
    refine ⟨first, rest, chars, ?_, fun c held => continues c (List.mem_cons_of_mem _ held)⟩
    exact (continues first List.mem_cons_self).resolve_right fun digit => start ⟨first, rest, chars, digit⟩

/-! ### Local names -/

theorem not_separator_of_letter (letter : Letter c) : Naming.isWordSeparator c = false := by
  rw [← Char.ofNat_toNat c]
  rcases letter with upper | lower
  · have clear : ClassNames.ClearOfSeparators 0x41 0x5A := by decide
    exact ClassNames.not_separator_of_clear clear upper.1 upper.2
  · have clear : ClassNames.ClearOfSeparators 0x61 0x7A := by decide
    exact ClassNames.not_separator_of_clear clear lower.1 lower.2

/-- The words of a plain file name make an identifier. -/
theorem identifier_pascalCase {name : String} (plain : PlainName name.toList) :
    Identifier (Naming.pascalCase name) := by
  obtain ⟨first, rest, chars, letter, others⟩ := plain
  have opens : Opens first := letter.elim .inl fun small => .inr (.inl small)
  obtain ⟨capital, single, -, capitalOpens⟩ := upper_of_continues (.inl opens)
  refine ⟨capital, spell false rest, ?_, capitalOpens opens, ?_⟩
  · rw [Naming.pascalCase, String.toList_ofList, pascalChars_eq_spell, chars, spell,
      not_separator_of_letter letter, single]
    rfl
  · intro x spelled
    obtain ⟨before, c, after, same, inside, comes⟩ := mem_spell.mp spelled
    have continues : Continues c := by
      refine (others c (by simp [same])).resolve_left ?_
      rintro rfl
      exact absurd inside (by decide)
    exact continues_of_spelled continues comes

/-- A name inside two others makes an identifier of them exactly if the one in front does not bring a digit to
the front and the one behind holds nothing foreign. -/
theorem identifier_surrounded_iff (plain : ∀ c ∈ before.toList, Continues c) (own : Identifier name) :
    Identifier (before ++ name ++ after) ↔
      ¬ StartsWithDigit before ∧ ∀ c ∈ after.toList, Continues c := by
  constructor
  · intro whole
    refine ⟨?_, fun c held => whole.continues c (by simp [held])⟩
    rintro ⟨c, rest, start, digit⟩
    refine (identifier_iff.mp whole).2.2 ⟨c, rest ++ name.toList ++ after.toList, ?_, digit⟩
    simp [start]
  · rintro ⟨start, continues⟩
    by_cases empty : before = ""
    · rw [empty, String.empty_append]
      exact own.append continues
    · have front : Identifier before := identifier_iff.mpr ⟨empty, plain, start⟩
      exact (front.append own.continues).append continues

/-! ### Namespaces -/

theorem cutAt_append_dot (s t : String) :
    Text.cutAt (· == '.') (s ++ "." ++ t) = Text.cutAt (· == '.') s ++ Text.cutAt (· == '.') t := by
  have chars : (s ++ "." ++ t).toList = s.toList ++ '.' :: t.toList := by simp
  have cut : (s.toList ++ '.' :: t.toList).splitOnP (· == '.') =
      s.toList.splitOnP (· == '.') ++ t.toList.splitOnP (· == '.') := List.splitOnP_append_cons _ _ rfl
  rw [Text.cutAt, chars, cut, List.map_append]
  rfl

/-- The steps of a dotted name are those of its parts, one part after the other. -/
theorem cutAt_intercalate (filled : parts ≠ []) :
    Text.cutAt (· == '.') (".".intercalate parts) = parts.flatMap (Text.cutAt (· == '.')) := by
  induction parts with
  | nil => exact absurd rfl filled
  | cons first rest ih =>
    cases rest with
    | nil => simp
    | cons second rest =>
      rw [String.intercalate_cons_cons, cutAt_append_dot, ih (List.cons_ne_nil _ _), ← List.flatMap_cons]

/-- The parts that a namespace is joined from. -/
def namespaceParts (naming : Naming) (key : ViewKey) : List String :=
  (naming.root :: key.directories.drop naming.elided.length).filter (!·.isEmpty)

theorem namespaceSegments_identify (naming : Naming) (key : ViewKey) :
    (naming.identify key).namespaceSegments =
      (namespaceParts naming key).flatMap (Text.cutAt (· == '.')) := by
  have named : ∀ part ∈ namespaceParts naming key, part ≠ "" := by
    intro part listed
    simpa using (List.mem_filter.mp listed).2
  have joined : (naming.identify key).nameSpace = ".".intercalate (namespaceParts naming key) := rfl
  rw [Identity.namespaceSegments, joined]
  by_cases root : namespaceParts naming key = []
  · simp [root]
  · have filled := (NamespaceElision.intercalate_eq_empty named).not.mpr root
    rw [if_neg (by simpa using filled), cutAt_intercalate root]

theorem cutAt_identifier (name : Identifier s) : Text.cutAt (· == '.') s = [s] := by
  have plain : ∀ c ∈ s.toList, (c == '.') = false := by
    intro c held
    have continues := name.continues c held
    refine beq_eq_false_iff_ne.mpr ?_
    rintro rfl
    exact absurd continues (by decide)
  rw [Text.cutAt, List.splitOnP_eq_singleton plain, List.map_singleton, String.ofList_toList]

/-- What the check of the settings is for: the steps of the namespace and the start of class names are made of
name characters, and no step is empty unless there is none. -/
structure Checked (config : Config) : Prop where
  steps : config.namespacePrefix ≠ "" → ∀ step ∈ Text.cutAt (· == '.') config.namespacePrefix,
    step ≠ "" ∧ ∀ c ∈ step.toList, Continues c
  before : ∀ c ∈ (config.namePrefix.getD "").toList, Continues c

theorem fault?_eq_none_iff {config : Config} : config.fault? = none ↔ Checked config := by
  have dotted : Text.isDottedWords config.namespacePrefix = true ↔
      ∀ step ∈ Text.cutAt (· == '.') config.namespacePrefix,
        step ≠ "" ∧ ∀ c ∈ step.toList, Continues c := by
    simp [Text.cutAt, Text.isDottedWords, List.splitOn, isNameChar_iff]
  have refused : (!config.namespacePrefix.isEmpty && !Text.isDottedWords config.namespacePrefix) = true ↔
      ¬ (config.namespacePrefix ≠ "" → Text.isDottedWords config.namespacePrefix = true) := by simp
  rw [Config.fault?]
  by_cases steps : config.namespacePrefix ≠ "" → Text.isDottedWords config.namespacePrefix = true
  · rw [if_neg fun no => refused.mp no steps]
    constructor
    · intro passes
      refine ⟨fun filled => dotted.mp (steps filled), ?_⟩
      cases start : config.namePrefix with
      | none => simp
      | some name => simpa [start, isNameChar_iff] using passes
    · intro checked
      have before := checked.before
      cases start : config.namePrefix with
      | none => rfl
      | some name => simpa [start, isNameChar_iff] using before
  · rw [if_pos (refused.mpr steps)]
    constructor
    · intro passes
      cases passes
    · intro checked
      exact absurd (fun filled => dotted.mpr (checked.steps filled)) steps

/-- The dots that are trimmed off the namespace are none that the check lets pass. -/
theorem trimDots_checked {config : Config} (checked : Checked config) :
    Naming.trimDots config.namespacePrefix = config.namespacePrefix := by
  by_cases empty : config.namespacePrefix = ""
  · rw [empty]
    rfl
  · have inner : ∀ before after, config.namespacePrefix.toList = before ++ '.' :: after →
        before ≠ [] ∧ after ≠ [] := by
      intro before after chars
      have cut : config.namespacePrefix = String.ofList before ++ "." ++ String.ofList after := by
        rw [← String.toList_inj]
        simp [chars]
      have steps := checked.steps empty
      rw [cut, cutAt_append_dot] at steps
      constructor
      · rintro rfl
        exact (steps "" (by simp [Text.cutAt])).1 rfl
      · rintro rfl
        exact (steps "" (by simp [Text.cutAt])).1 rfl
    have kept : (config.namespacePrefix.toList.dropWhile (· == '.')).rdropWhile (· == '.') =
        config.namespacePrefix.toList := by
      apply KeyNormalization.trimmed_eq_self
      · intro c rest chars
        refine beq_eq_false_iff_ne.mpr ?_
        rintro rfl
        exact (inner [] rest chars).1 rfl
      · intro before c chars
        refine beq_eq_false_iff_ne.mpr ?_
        rintro rfl
        exact (inner before [] chars).2 rfl
    have trimmed : Naming.trimDots config.namespacePrefix =
        .ofList ((config.namespacePrefix.toList.dropWhile (· == '.')).rdropWhile (· == '.')) := rfl
    rw [trimmed, kept, String.ofList_toList]

/-- A namespace without a digit at the start of a step is all that a plain path asks for. -/
theorem segments_identifiers_iff {config : Config} {key : ViewKey} (checked : Checked config)
    (directories : ∀ name ∈ key.directories, Identifier name) (views : List ViewKey) :
    (∀ segment ∈ ((Naming.ofViews config views).identify key).namespaceSegments, Identifier segment) ↔
      ∀ step ∈ Text.cutAt (· == '.') config.namespacePrefix, ¬ StartsWithDigit step := by
  have root : (Naming.ofViews config views).root = config.namespacePrefix := trimDots_checked checked
  rw [namespaceSegments_identify]
  constructor
  · intro plain step listed
    by_cases empty : config.namespacePrefix = ""
    · rw [empty] at listed
      obtain rfl : step = "" := List.mem_singleton.mp listed
      rintro ⟨_, _, chars, -⟩
      cases chars
    · have part : config.namespacePrefix ∈ namespaceParts (Naming.ofViews config views) key :=
        List.mem_filter.mpr ⟨root ▸ List.mem_cons_self, by simpa using empty⟩
      exact (identifier_iff.mp (plain step (List.mem_flatMap.mpr ⟨_, part, listed⟩))).2.2
  · intro steps segment held
    obtain ⟨part, listed, cut⟩ := List.mem_flatMap.mp held
    obtain ⟨listed, filled⟩ := List.mem_filter.mp listed
    rcases List.mem_cons.mp listed with rfl | directory
    · rw [root] at cut filled
      obtain ⟨named, continues⟩ := checked.steps (by simpa using filled) segment cut
      exact identifier_iff.mpr ⟨named, continues, steps segment cut⟩
    · have name := directories part (List.mem_of_mem_drop directory)
      rw [cutAt_identifier name, List.mem_singleton] at cut
      exact cut ▸ name

/-- Under settings that pass the check, the class of a view with a plain path can be written exactly if the
settings fit. -/
theorem plain_class_writable_iff {config : Config} {key : ViewKey} (accepted : config.fault? = none)
    (plain : PlainPath key) (views : List ViewKey) :
    ((Naming.ofViews config views).identify key).errors = [] ↔ Fit config := by
  have checked := fault?_eq_none_iff.mp accepted
  have own := identifier_pascalCase plain.stem
  have localName : Identifier ((Naming.ofViews config views).identify key).localName ↔
      ¬ StartsWithDigit (config.namePrefix.getD "") ∧ ∀ c ∈ config.nameSuffix.toList, Continues c :=
    identifier_surrounded_iff checked.before own
  rw [identity_errors_eq_nil, segments_identifiers_iff checked plain.directories views, localName]
  exact ⟨fun ⟨steps, before, after⟩ => ⟨steps, before, after⟩, fun fit => ⟨fit.steps, fit.before, fit.after⟩⟩

theorem big_card_writable :
    let config : Config := { namespacePrefix := "com.example", namePrefix := some "Sg" }
    let key := ViewKey.ofPath "site/cards/big-card.hbs"
    config.fault? = none ∧ PlainPath key ∧ Fit config ∧
      ((Naming.ofViews config [key]).identify key).errors = [] := by
  intro config key
  have accepted : config.fault? = none := by decide +kernel
  have plain : PlainPath key := by decide +kernel
  have fit : Fit config := by decide +kernel
  exact ⟨accepted, plain, fit, (plain_class_writable_iff accepted plain [key]).mpr fit⟩

/-- Each of the three settings can pass the check and still keep the class of a plain path from being written. -/
theorem accepted_settings_unwritable :
    let key := ViewKey.ofPath "card.hbs"
    PlainPath key ∧
      ∀ config ∈ ([{ namespacePrefix := "9" }, { namePrefix := some "9" }, { nameSuffix := "-" }] : List Config),
        config.fault? = none ∧ ((Naming.ofViews config [key]).identify key).errors ≠ [] := by
  decide +kernel

end ViewSchema.NamingSettings
