import ViewSchema.Json.Basic
import ViewSchema.Kind.Order

/-! Everything that was seen of the views in one run. A document is turned into observations, each of a
view being used or of a value in one of its fields, and a corpus is what a sequence of observations
leaves behind: the samples in the order seen, and for every view the documents and notes it was seen
with. -/

namespace ViewSchema

/-- One value that was seen in a field of a view. -/
structure Sample where
  view : ViewKey
  field : String
  kind : Kind
  /-- The value itself. -/
  payload : Json := .null
  /-- The document that it was seen in, empty if unknown. -/
  origin : String := ""
  /-- What the document says about the field at this place. -/
  note : Option String := none

/-- What is known of a view apart from its fields. -/
structure ViewUsage where
  /-- The documents that use the view. -/
  origins : SortedSet String := .empty
  /-- What these documents say about the view. -/
  notes : SortedSet String := .empty
deriving DecidableEq

/-- One thing seen while walking through a document. -/
inductive Observation where
  /-- A view was used, in a document and with a note. -/
  | usage (view : ViewKey) (origin : String) (note : Option String)
  /-- A field of a view had a value. -/
  | sample (sample : Sample)

namespace ViewUsage

/-- The usage with one more document, unless the document is unknown. -/
def withOrigin (usage : ViewUsage) (origin : String) : ViewUsage :=
  if origin.isEmpty then usage else { usage with origins := usage.origins.insert origin }

/-- The usage with one more note, if there is one. -/
def withNote (usage : ViewUsage) : Option String → ViewUsage
  | none => usage
  | some note => { usage with notes := usage.notes.insert note }

def join (a b : ViewUsage) : ViewUsage := ⟨a.origins ∪ b.origins, a.notes ∪ b.notes⟩

end ViewUsage

/-- Everything that was seen of the views in one run. -/
structure Corpus where
  /-- The samples in the order in which they were seen. -/
  samples : List Sample := []
  /-- Every view that was used. -/
  views : SortedMap ViewKey ViewUsage := .empty

namespace Corpus

instance : EmptyCollection Corpus := ⟨⟨[], .empty⟩⟩

instance : Inhabited Corpus := ⟨∅⟩

/-- The usage of a view after its use in a document, with or without a note. -/
def recordUsage (corpus : Corpus) (view : ViewKey) (origin : String) (note : Option String) : Corpus :=
  { corpus with
    views := corpus.views.alter view fun usage =>
      ((usage.getD {}).withOrigin origin).withNote note }

/-- The corpus with one more sample. The view of a sample counts as used. -/
def push (corpus : Corpus) (sample : Sample) : Corpus :=
  let used := corpus.recordUsage sample.view sample.origin none
  { used with samples := used.samples ++ [sample] }

/-- The corpus after one more observation. -/
def record (corpus : Corpus) : Observation → Corpus
  | .usage view origin note => corpus.recordUsage view origin note
  | .sample sample => corpus.push sample

/-- The corpus after more observations, one after the other. -/
def recordAll (corpus : Corpus) (observations : List Observation) : Corpus :=
  observations.foldl record corpus

/-- What two corpora tell together: the samples of the second come after those of the first. -/
def extend (corpus other : Corpus) : Corpus :=
  ⟨corpus.samples ++ other.samples, corpus.views.merge .join other.views⟩

/-- The corpus that knows nothing but some samples. -/
def ofSamples (samples : List Sample) : Corpus := samples.foldl push ∅

/-- Whether neither a sample nor a view is known. -/
def isEmpty (corpus : Corpus) : Bool := corpus.samples.isEmpty && corpus.views.isEmpty

/-- What is known of a view apart from its fields. -/
def usage? (corpus : Corpus) (view : ViewKey) : Option ViewUsage := corpus.views.get? view

end Corpus

end ViewSchema
