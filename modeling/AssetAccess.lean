import AssetAccess.Calendar.Clock
import AssetAccess.Calendar.Date
import AssetAccess.Calendar.TimeOfDay
import AssetAccess.Calendar.Timestamp
import AssetAccess.CommandLine.Arguments
import AssetAccess.CommandLine.Run
import AssetAccess.Decision.Attributes
import AssetAccess.Decision.Claims
import AssetAccess.Decision.Decide
import AssetAccess.Decision.Evaluate
import AssetAccess.Document.Basic
import AssetAccess.Document.Load
import AssetAccess.Document.Resolve
import AssetAccess.Document.Wire
import AssetAccess.Field
import AssetAccess.File
import AssetAccess.Formula.Basic
import AssetAccess.Formula.Literal
import AssetAccess.Formula.References
import AssetAccess.Formula.Wire
import AssetAccess.Json.Basic
import AssetAccess.Json.Reader
import AssetAccess.Json.Shape
import AssetAccess.Json.Token
import AssetAccess.Json.Writer
import AssetAccess.Main
import AssetAccess.Number.Binary64
import AssetAccess.Number.Decimal
import AssetAccess.Number.Hexadecimal
import AssetAccess.Number.Notation
import AssetAccess.Number.Scaled
import AssetAccess.Number.Word
import AssetAccess.Proofs.Decision.Granting
import AssetAccess.Proofs.Decision.Meaning
import AssetAccess.Proofs.Decision.Resolution
import AssetAccess.Proofs.Decision.Undetermined
import AssetAccess.Proofs.Formula.Leaves
import AssetAccess.Proofs.Search.Agreement
import AssetAccess.Proofs.Search.Matching
import AssetAccess.Proofs.Text.ByteOrder
import AssetAccess.Rule.Basic
import AssetAccess.Rule.Wire
import AssetAccess.Search.Clause
import AssetAccess.Search.Compile
import AssetAccess.Search.Request
import AssetAccess.Search.Script
import AssetAccess.Search.Wildcard
import AssetAccess.Service
import AssetAccess.Settings.Basic
import AssetAccess.Settings.Value
import AssetAccess.Table
import AssetAccess.Text.Blank
import AssetAccess.Text.Digits
import AssetAccess.Text.Order
import AssetAccess.Text.Pieces
import AssetAccess.Text.Quotation
import AssetAccess.Text.Unprintable
import AssetAccess.Proofs.Search.Occurrence
import AssetAccess.Proofs.Search.Quoting
import AssetAccess.Proofs.Document.Tables
import AssetAccess.Proofs.Search.Conditions
import AssetAccess.Proofs.Document.Outcome
import AssetAccess.Proofs.Document.Inlining
import AssetAccess.Proofs.Document.References
import AssetAccess.Proofs.Document.Report
import AssetAccess.Proofs.Json.Reading
import AssetAccess.Proofs.Calendar.RoundTrip
import AssetAccess.Proofs.Formula.RoundTrip
import AssetAccess.Proofs.Formula.Respelling
import AssetAccess.Proofs.Rule.RoundTrip
import AssetAccess.Proofs.Document.Respelling
import AssetAccess.Proofs.Document.WireFormat
import AssetAccess.Proofs.Service.Runs
import AssetAccess.Proofs.Document.Export
import AssetAccess.Proofs.Decision.Noninterference
import AssetAccess.Proofs.Decision.Coherence
import AssetAccess.Proofs.Decision.Monotonicity
import AssetAccess.Proofs.Search.Wildcards
import AssetAccess.Proofs.Search.Anchors
import AssetAccess.Proofs.Search.Fallback
import AssetAccess.Proofs.Calendar.Chronology
import AssetAccess.Proofs.Search.TimestampRanges
import AssetAccess.Proofs.Decision.TimeWindows
import AssetAccess.Proofs.Decision.ClaimPaths
import AssetAccess.Proofs.Formula.Casts
import AssetAccess.Proofs.Number.Integers
import AssetAccess.Proofs.Search.WellFormed
import AssetAccess.Proofs.Search.Faithful
import AssetAccess.Proofs.Text.Fields
import AssetAccess.Proofs.Calendar.TimesOfDay
import AssetAccess.Proofs.Formula.HexCasts
import AssetAccess.Proofs.Calendar.Succession
import AssetAccess.Proofs.Formula.DateParts
import AssetAccess.Proofs.Search.FieldNames
import AssetAccess.Proofs.Search.Patterns
