import EventContracts.Alias
import EventContracts.Artifacts
import EventContracts.CommandLine.Arguments
import EventContracts.CommandLine.Run
import EventContracts.Config.Basic
import EventContracts.Config.Codec
import EventContracts.Contract
import EventContracts.Decimal.Double
import EventContracts.Decimal.Notation
import EventContracts.Decimal.Reading
import EventContracts.Decimal.Shortest
import EventContracts.Depiction
import EventContracts.Digest
import EventContracts.Direction
import EventContracts.Document.Assembly
import EventContracts.Document.Basic
import EventContracts.Document.Depiction
import EventContracts.Document.SchemaObject
import EventContracts.Error
import EventContracts.Event
import EventContracts.Fields
import EventContracts.Files.Path
import EventContracts.Files.Tree
import EventContracts.Instant
import EventContracts.Json.Merge
import EventContracts.Json.Numeral
import EventContracts.Json.Reader
import EventContracts.Json.Value
import EventContracts.Json.Writer
import EventContracts.Json.Written
import EventContracts.Main
import EventContracts.Manifest.Basic
import EventContracts.Manifest.Loading
import EventContracts.Manifest.Spec
import EventContracts.Pattern.CharSet
import EventContracts.Pattern.Reader
import EventContracts.Pattern.Regex
import EventContracts.Proofs.AcceptedNulls
import EventContracts.Proofs.AliasGrowth
import EventContracts.Proofs.AliasPrograms
import EventContracts.Proofs.AlikeWalks
import EventContracts.Proofs.AssemblyCalls
import EventContracts.Proofs.CalendarDates
import EventContracts.Proofs.CanonicalForms
import EventContracts.Proofs.CanonicalReading
import EventContracts.Proofs.ChangedFiles
import EventContracts.Proofs.ClosedComments
import EventContracts.Proofs.ComposedWalks
import EventContracts.Proofs.ContractClosure
import EventContracts.Proofs.CycleBreaking
import EventContracts.Proofs.DecimalDigits
import EventContracts.Proofs.DeclaredNames
import EventContracts.Proofs.DeepMerges
import EventContracts.Proofs.DeliveredEvents
import EventContracts.Proofs.DepictionReplay
import EventContracts.Proofs.DepictionRuns
import EventContracts.Proofs.DocumentedLayers
import EventContracts.Proofs.DocumentedWalks
import EventContracts.Proofs.EscapedCrashes
import EventContracts.Proofs.EventOverloads
import EventContracts.Proofs.FailedRuns
import EventContracts.Proofs.FaithfulAliases
import EventContracts.Proofs.FallibleSteps
import EventContracts.Proofs.FlattenedObjects
import EventContracts.Proofs.FormedJson
import EventContracts.Proofs.FormedReading
import EventContracts.Proofs.FormedSchemas
import EventContracts.Proofs.GuardedWalks
import EventContracts.Proofs.IdentifierTexts
import EventContracts.Proofs.InferredOutputs
import EventContracts.Proofs.InheritedExamples
import EventContracts.Proofs.InputSoundness
import EventContracts.Proofs.IntersectedObjects
import EventContracts.Proofs.JsonTexts
import EventContracts.Proofs.KeptRequirements
import EventContracts.Proofs.KeyedJson
import EventContracts.Proofs.KeyedSchemas
import EventContracts.Proofs.KeyedValues
import EventContracts.Proofs.ListedKeys
import EventContracts.Proofs.MemoTransparency
import EventContracts.Proofs.MergedFields
import EventContracts.Proofs.MergedManifests
import EventContracts.Proofs.MetKinds
import EventContracts.Proofs.NormalTypes
import EventContracts.Proofs.OpenedKeys
import EventContracts.Proofs.OrderedFields
import EventContracts.Proofs.OutputSoundness
import EventContracts.Proofs.PlainOutputs
import EventContracts.Proofs.PresentValues
import EventContracts.Proofs.PrintedTypes
import EventContracts.Proofs.QuotedTexts
import EventContracts.Proofs.ReferenceClosure
import EventContracts.Proofs.RegularForms
import EventContracts.Proofs.RenamedJson
import EventContracts.Proofs.RepeatedFailures
import EventContracts.Proofs.RequiredFields
import EventContracts.Proofs.RereadSchemas
import EventContracts.Proofs.SchemaFits
import EventContracts.Proofs.SchemaRenaming
import EventContracts.Proofs.SettledTimestamps
import EventContracts.Proofs.SettledValues
import EventContracts.Proofs.ShortestDoubles
import EventContracts.Proofs.ShownArguments
import EventContracts.Proofs.SpecConversion
import EventContracts.Proofs.TransparentLabels
import EventContracts.Proofs.TypeRenaming
import EventContracts.Proofs.TypedWalks
import EventContracts.Proofs.UnambiguousTypes
import EventContracts.Proofs.UnbrokenValidations
import EventContracts.Proofs.UnsupportedKinds
import EventContracts.Proofs.ValidatedLayers
import EventContracts.Proofs.ValidationDepth
import EventContracts.Proofs.ViewedParts
import EventContracts.Reading
import EventContracts.Schema.Canonical
import EventContracts.Schema.Issue
import EventContracts.Schema.Node
import EventContracts.Schema.Probe
import EventContracts.Schema.Transform
import EventContracts.Schema.Validation
import EventContracts.Text.Blank
import EventContracts.Text.Digit
import EventContracts.Text.Identifier
import EventContracts.Text.Printable
import EventContracts.Text.Quoted
import EventContracts.Text.Ranges
import EventContracts.Text.UpperCase
import EventContracts.Text.Word
import EventContracts.TextFormat
import EventContracts.TypeScript.Assembly
import EventContracts.TypeScript.Depiction
import EventContracts.TypeScript.Printer
import EventContracts.TypeScript.Type
import EventContracts.Yaml.Part
import EventContracts.Yaml.Plain
import EventContracts.Yaml.Scalar
import EventContracts.Yaml.Tag
import EventContracts.Yaml.Token
import EventContracts.Yaml.Tree
import EventContracts.Yaml.Writer
