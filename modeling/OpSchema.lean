import OpSchema.Alias.Aliasing
import OpSchema.Alias.SymbolSet
import OpSchema.Command
import OpSchema.Conformance.CaseLog
import OpSchema.Conformance.CaseReport
import OpSchema.Conformance.Fixture
import OpSchema.Conformance.Suite
import OpSchema.Decimal.Magnitude
import OpSchema.Decimal.Shortest
import OpSchema.Decimal.Writing
import OpSchema.Files.FileSystem
import OpSchema.Files.Host
import OpSchema.Files.Path
import OpSchema.Guard.Context
import OpSchema.Guard.Ledger
import OpSchema.Json.Document
import OpSchema.Json.Fault
import OpSchema.Json.Reader
import OpSchema.Json.Scanner
import OpSchema.Json.Shape
import OpSchema.Json.Writer
import OpSchema.Locator
import OpSchema.Main
import OpSchema.Operator.Basic
import OpSchema.Operator.Mutation
import OpSchema.Operator.Overlap
import OpSchema.Order
import OpSchema.Proofs.Alias.Reach
import OpSchema.Proofs.Alias.Renaming
import OpSchema.Proofs.Command.Arguments
import OpSchema.Proofs.Command.ExitStatus
import OpSchema.Proofs.Conformance.AliasQueries
import OpSchema.Proofs.Conformance.CaseRun
import OpSchema.Proofs.Conformance.ExtraMembers
import OpSchema.Proofs.Conformance.Loading
import OpSchema.Proofs.Conformance.Machine
import OpSchema.Proofs.Conformance.Records
import OpSchema.Proofs.Conformance.ReportFile
import OpSchema.Proofs.Decimal.Range
import OpSchema.Proofs.Files.Frame
import OpSchema.Proofs.Guard.History
import OpSchema.Proofs.Guard.Modes
import OpSchema.Proofs.Guard.Outcome
import OpSchema.Proofs.Guard.Overlap
import OpSchema.Proofs.Guard.Reports
import OpSchema.Proofs.Guard.Scan
import OpSchema.Proofs.Guard.Wording
import OpSchema.Proofs.Json.Canonical
import OpSchema.Proofs.Json.Compact
import OpSchema.Proofs.Json.Completeness
import OpSchema.Proofs.Json.Faults
import OpSchema.Proofs.Json.Lines
import OpSchema.Proofs.Json.Matching
import OpSchema.Proofs.Json.Numerals
import OpSchema.Proofs.Json.Places
import OpSchema.Proofs.Json.Refusal
import OpSchema.Proofs.Json.Scanning
import OpSchema.Proofs.Json.Soundness
import OpSchema.Proofs.Json.Spelling
import OpSchema.Proofs.Json.Steps
import OpSchema.Proofs.Json.Unambiguous
import OpSchema.Proofs.Json.Undeclared
import OpSchema.Proofs.Operator.Overlap
import OpSchema.Proofs.Operator.Positions
import OpSchema.Proofs.Operator.Renaming
import OpSchema.Proofs.Operator.TopSets
import OpSchema.Proofs.Signature.Defects
import OpSchema.Proofs.Signature.Description
import OpSchema.Proofs.Signature.Diagnostics
import OpSchema.Proofs.Signature.Documents
import OpSchema.Proofs.Signature.Nesting
import OpSchema.Proofs.Signature.RoundTrip
import OpSchema.Proofs.Signature.UnknownFields
import OpSchema.Proofs.Signature.WellFormed
import OpSchema.Proofs.Text.ByteOrder
import OpSchema.Signature.Basic
import OpSchema.Signature.Codec
import OpSchema.Signature.Error
import OpSchema.Signature.Validation
import OpSchema.Slot
import OpSchema.Text.CodeRanges
import OpSchema.Text.Cut
import OpSchema.Text.DefaultIgnorable
import OpSchema.Text.ExtendingMark
import OpSchema.Text.Position
import OpSchema.Text.Printable
import OpSchema.Text.Quoted
import OpSchema.Text.Search
import OpSchema.Text.WhiteSpace
import OpSchema.Proofs.Alias.Levels
import OpSchema.Proofs.Json.LongNumbers
import OpSchema.Proofs.Signature.DiagnosticSize
import OpSchema.Proofs.Slot.Rendering
import OpSchema.Proofs.Locator.Reading
