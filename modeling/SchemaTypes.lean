import SchemaTypes.Main
import SchemaTypes.Files.Store
import SchemaTypes.Proofs.Additivity
import SchemaTypes.Proofs.Descriptions
import SchemaTypes.Proofs.Faults
import SchemaTypes.Proofs.Soundness
import SchemaTypes.Proofs.DecimalImport
import SchemaTypes.Proofs.Batches
import SchemaTypes.Proofs.ModuleReading
import SchemaTypes.Proofs.Exactness
import SchemaTypes.Proofs.Precedence
import SchemaTypes.Proofs.Payloads
import SchemaTypes.Proofs.Prefixes
import SchemaTypes.Proofs.Layers
import SchemaTypes.Proofs.MarkerTypes
import SchemaTypes.Proofs.NameCapture
import SchemaTypes.Proofs.IndexTypes
import SchemaTypes.Proofs.TitledFiles
import SchemaTypes.Proofs.RecognisedKeywords
import SchemaTypes.Proofs.FirstFault
import SchemaTypes.Proofs.Discovery
import SchemaTypes.Proofs.ArrayLengths
import SchemaTypes.Proofs.DetectedMarkers
import SchemaTypes.Proofs.FieldNames
import SchemaTypes.Proofs.Reachability
import SchemaTypes.Proofs.ListBounds
import SchemaTypes.Proofs.LayerFields
import SchemaTypes.Proofs.SettledHints
import SchemaTypes.Proofs.HintUnions
import SchemaTypes.Proofs.MemberKeys
import SchemaTypes.Proofs.NormalForms
import SchemaTypes.Proofs.Grouping
import SchemaTypes.Proofs.Documents
import SchemaTypes.Proofs.Merging
import SchemaTypes.Proofs.SettledNames
