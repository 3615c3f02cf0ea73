import ViewSchema.Order.SortedSet
import ViewSchema.Order.SortedMap
import ViewSchema.Text.Blank
import ViewSchema.Text.Uppercase
import ViewSchema.Text.Pieces
import ViewSchema.Text.Grammar
import ViewSchema.Text.Hexadecimal
import ViewSchema.Json.Binary64
import ViewSchema.Json.Basic
import ViewSchema.Json.Printer
import ViewSchema.Json.Reader
import ViewSchema.Yaml.Glyph
import ViewSchema.Yaml.Token
import ViewSchema.Yaml.Scalar.Folding
import ViewSchema.Yaml.Scalar.Plain
import ViewSchema.Yaml.Scalar.Quoted
import ViewSchema.Yaml.Scalar.Block
import ViewSchema.Yaml.Property
import ViewSchema.Yaml.Directive
import ViewSchema.Yaml.Lexer
import ViewSchema.Yaml.Node
import ViewSchema.Yaml.Document
import ViewSchema.ViewKey
import ViewSchema.LogLevel
import ViewSchema.Failure
import ViewSchema.Config.Basic
import ViewSchema.Config.Decode
import ViewSchema.Config.Yaml
import ViewSchema.Config.Load
import ViewSchema.Kind.Basic
import ViewSchema.Kind.Order
import ViewSchema.Kind.Name
import ViewSchema.Corpus
import ViewSchema.Classification
import ViewSchema.Extraction
import ViewSchema.FieldType
import ViewSchema.Unification
import ViewSchema.Naming.PascalCase
import ViewSchema.Naming.Identity
import ViewSchema.Naming.Resolver
import ViewSchema.Diagnostic
import ViewSchema.Field
import ViewSchema.View
import ViewSchema.Reference.Basic
import ViewSchema.Reference.ImportSet
import ViewSchema.Registry.Basic
import ViewSchema.Registry.Assembly
import ViewSchema.Registry.Report
import ViewSchema.Encoding
import ViewSchema.CommandLine.Arguments
import ViewSchema.CommandLine.Usage
import ViewSchema.CommandLine.FileSet
import ViewSchema.CommandLine.Run
import ViewSchema.Main
import ViewSchema.Proofs.OrderedContainers
import ViewSchema.Proofs.UnificationSemantics
import ViewSchema.Proofs.JsonStructure
import ViewSchema.Proofs.IdentifierGrammar
import ViewSchema.Proofs.RegistryContents
import ViewSchema.Proofs.ExtractionProvenance
import ViewSchema.Proofs.InferenceSoundness
import ViewSchema.Proofs.RecordedViews
import ViewSchema.Proofs.ReferenceClosure
import ViewSchema.Proofs.ReportExactness
import ViewSchema.Proofs.HandOffGate
import ViewSchema.Proofs.RunIndependence
import ViewSchema.Proofs.ClassNames
import ViewSchema.Proofs.CommonDirectories
import ViewSchema.Proofs.NameResolution
import ViewSchema.Proofs.StrictnessTrade
import ViewSchema.Proofs.NamespaceElision
import ViewSchema.Proofs.NameCollisions
import ViewSchema.Proofs.ImportRuns
import ViewSchema.Proofs.JsonPositions
import ViewSchema.Proofs.LocatedObservations
import ViewSchema.Proofs.CorpusMerging
import ViewSchema.Proofs.ExtractionAccount
import ViewSchema.Proofs.PrincipalTypes
import ViewSchema.Proofs.TypeWidening
import ViewSchema.Proofs.SampleFiling
import ViewSchema.Proofs.ForeignCharacters
import ViewSchema.Proofs.KeyNormalization
import ViewSchema.Proofs.NamingSettings
import ViewSchema.Proofs.CollisionHistory
import ViewSchema.Proofs.FieldStates
import ViewSchema.Proofs.ViewMarkers
import ViewSchema.Proofs.KindNames
import ViewSchema.Proofs.SetwiseReading
import ViewSchema.Proofs.UsageRecords
import ViewSchema.Proofs.FullNameDecoding
