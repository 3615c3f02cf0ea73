import ViewSchema.Extraction
import ViewSchema.Naming.Resolver
import ViewSchema.Registry.Basic

/-! From a corpus to a registry. Every view that is used, sampled or referred to gets a definition, unless
its instances are configured to be bags; each of its fields gets the samples that name the field, and
the views together decide what their classes are called. -/

namespace ViewSchema

/-- The views of a corpus that get a definition. -/
def viewKeys (config : Config) (corpus : Corpus) : SortedSet ViewKey :=
  .ofList <|
    (corpus.views.keys.toList ++ corpus.samples.map Sample.view ++
      corpus.samples.flatMap fun sample => sample.kind.targets).filter (!config.isMapTemplate ·)

def fieldSamples (corpus : Corpus) (key : ViewKey) (field : String) : List Sample :=
  corpus.samples.filter fun sample => sample.view == key && sample.field == field

/-- The names of the fields that a view has samples of. -/
def fieldNames (corpus : Corpus) (key : ViewKey) : SortedSet String :=
  .ofList ((corpus.samples.filter (·.view == key)).map Sample.field)

def fieldDefinitions (config : Config) (corpus : Corpus) (key : ViewKey) : List FieldDefinition :=
  (fieldNames corpus key).toList.filterMap fun name =>
    FieldDefinition.ofSamples? config.unifyOptions key name (fieldSamples corpus key name)

/-- The definition of a view, with the findings against its class and its fields. -/
def defineView (config : Config) (corpus : Corpus) (naming : Naming) (key : ViewKey) : ViewDefinition :=
  (ViewDefinition.ofFields (naming.identify key) (fieldDefinitions config corpus key)
    (corpus.usage? key)).validate

/-- The definitions of all views of a corpus in the order of their keys. -/
def defineViews (config : Config) (corpus : Corpus) (naming : Naming) : List ViewDefinition :=
  (viewKeys config corpus).toList.map (defineView config corpus naming)

/-- The registry of a corpus, with all the findings against its views. -/
def Registry.build (config : Config) (corpus : Corpus) : Registry :=
  let naming := Naming.ofViews config (viewKeys config corpus).toList
  let start : Registry := { implicitNamespaces := config.implicitNamespaces }
  ((defineViews config corpus naming).foldl register start).recordCollisions

end ViewSchema
