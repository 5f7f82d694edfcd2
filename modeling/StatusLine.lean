import StatusLine.Action
import StatusLine.Audit.Quotes
import StatusLine.Audit.Report
import StatusLine.Audit.Savings
import StatusLine.Command.Refresh
import StatusLine.CommandLine.Arguments
import StatusLine.CommandLine.Program
import StatusLine.CommandLine.Table
import StatusLine.Compiler.Basic
import StatusLine.Compiler.Compilation
import StatusLine.Compiler.Generation
import StatusLine.Configuration.Basic
import StatusLine.Configuration.Issue
import StatusLine.Configuration.Loading
import StatusLine.Configuration.Reading
import StatusLine.Configuration.Record
import StatusLine.Datum.Arithmetic
import StatusLine.Datum.Basic
import StatusLine.Datum.Failure
import StatusLine.Datum.Key
import StatusLine.Datum.Listing
import StatusLine.Datum.Record
import StatusLine.Decimal.Layout
import StatusLine.Decimal.Reading
import StatusLine.Decimal.Shortest
import StatusLine.Document.Cursor
import StatusLine.Document.Node
import StatusLine.Document.Scalar
import StatusLine.Document.ScalarText
import StatusLine.Document.Scan
import StatusLine.Document.Source
import StatusLine.Document.Token
import StatusLine.Document.Value
import StatusLine.Failure
import StatusLine.Feature.Context
import StatusLine.Feature.Directory
import StatusLine.Feature.Encoder
import StatusLine.Feature.Git
import StatusLine.Feature.Metrics
import StatusLine.Feature.Model
import StatusLine.Feature.Usage
import StatusLine.Fingerprint.Canonical
import StatusLine.Fingerprint.Decoding
import StatusLine.Fingerprint.Encoding
import StatusLine.Fingerprint.Fields
import StatusLine.Fingerprint.Key
import StatusLine.Fingerprint.Sha256
import StatusLine.Fingerprint.Tagged
import StatusLine.Fragment
import StatusLine.Main
import StatusLine.Names
import StatusLine.Palette
import StatusLine.PathName
import StatusLine.Proofs.Action
import StatusLine.Proofs.Audit.Acceptance
import StatusLine.Proofs.Audit.BlankLines
import StatusLine.Proofs.Audit.DocumentBodies
import StatusLine.Proofs.Audit.DocumentLines
import StatusLine.Proofs.Audit.ExitCalls
import StatusLine.Proofs.Audit.Growth
import StatusLine.Proofs.Audit.HereStrings
import StatusLine.Proofs.Audit.QuoteReading
import StatusLine.Proofs.Audit.QuoteRewriting
import StatusLine.Proofs.Audit.QuoteSimulation
import StatusLine.Proofs.Audit.QuoteSoundness
import StatusLine.Proofs.Audit.ScanInvariant
import StatusLine.Proofs.Audit.ScanSteps
import StatusLine.Proofs.Audit.Sizes
import StatusLine.Proofs.Audit.Spacing
import StatusLine.Proofs.Audit.Validity
import StatusLine.Proofs.Audit.Words
import StatusLine.Proofs.Compiler.Agreement
import StatusLine.Proofs.Compiler.Anew
import StatusLine.Proofs.Compiler.CachePaths
import StatusLine.Proofs.Compiler.CompilingAgain
import StatusLine.Proofs.Compiler.FailingSteps
import StatusLine.Proofs.Compiler.Fields
import StatusLine.Proofs.Compiler.HeaderComment
import StatusLine.Proofs.Compiler.HomeDirectory
import StatusLine.Proofs.Compiler.KeptFragments
import StatusLine.Proofs.Compiler.KeptScripts
import StatusLine.Proofs.Compiler.KeySoundness
import StatusLine.Proofs.Compiler.KnownFeatures
import StatusLine.Proofs.Compiler.LookupTimes
import StatusLine.Proofs.Compiler.PrecomputedTables
import StatusLine.Proofs.Compiler.Runs
import StatusLine.Proofs.Compiler.ScriptSizes
import StatusLine.Proofs.Compiler.SharedShelves
import StatusLine.Proofs.Compiler.ShelfPlaces
import StatusLine.Proofs.Compiler.ShelfReading
import StatusLine.Proofs.Compiler.ShippedFormats
import StatusLine.Proofs.Compiler.ShippedScripts
import StatusLine.Proofs.Compiler.ShownFields
import StatusLine.Proofs.Compiler.ShownScripts
import StatusLine.Proofs.Configuration.Loading
import StatusLine.Proofs.Decimal.Layouts
import StatusLine.Proofs.Decimal.Rounding
import StatusLine.Proofs.Decimal.Shortest
import StatusLine.Proofs.Document.Building
import StatusLine.Proofs.Document.NodeReading
import StatusLine.Proofs.Document.Scanning
import StatusLine.Proofs.Fingerprint.CanonicalForm
import StatusLine.Proofs.Fingerprint.Failing
import StatusLine.Proofs.Fingerprint.Keyable
import StatusLine.Proofs.Fingerprint.Legibility
import StatusLine.Proofs.Fingerprint.Rearrangement
import StatusLine.Proofs.Fingerprint.SameTexts
import StatusLine.Proofs.Results
import StatusLine.Proofs.Script.CallReading
import StatusLine.Proofs.Script.Closing
import StatusLine.Proofs.Script.DirectoryNote
import StatusLine.Proofs.Script.Fillings
import StatusLine.Proofs.Script.FixedParts
import StatusLine.Proofs.Script.FormatReading
import StatusLine.Proofs.Script.FragmentOrder
import StatusLine.Proofs.Script.Fragments
import StatusLine.Proofs.Script.FurtherRoutines
import StatusLine.Proofs.Script.InputFields
import StatusLine.Proofs.Script.InputParts
import StatusLine.Proofs.Script.Lookups
import StatusLine.Proofs.Script.Outline
import StatusLine.Proofs.Script.RoutineClosure
import StatusLine.Proofs.Script.ShownFragments
import StatusLine.Proofs.Script.ShownHeader
import StatusLine.Proofs.Script.ShownParts
import StatusLine.Proofs.Script.Soundness
import StatusLine.Proofs.Script.Tracers
import StatusLine.Proofs.Script.UsageFragment
import StatusLine.Proofs.Shortening.AllOrNothing
import StatusLine.Proofs.Shortening.Assignments
import StatusLine.Proofs.Shortening.BlankRuns
import StatusLine.Proofs.Shortening.Brackets
import StatusLine.Proofs.Shortening.Chain
import StatusLine.Proofs.Shortening.Clock
import StatusLine.Proofs.Shortening.Finding
import StatusLine.Proofs.Shortening.Formats
import StatusLine.Proofs.Shortening.IdiomSwaps
import StatusLine.Proofs.Shortening.KeptDocuments
import StatusLine.Proofs.Shortening.Lengthening
import StatusLine.Proofs.Shortening.NamesInUse
import StatusLine.Proofs.Shortening.RenamedLookups
import StatusLine.Proofs.Shortening.Renaming
import StatusLine.Proofs.Shortening.Repetition
import StatusLine.Proofs.Shortening.Rewriting
import StatusLine.Proofs.Shortening.SecondRun
import StatusLine.Proofs.Shortening.Substitution
import StatusLine.Proofs.Shortening.Swaps
import StatusLine.Proofs.Store.Atomicity
import StatusLine.Proofs.Store.Degradation
import StatusLine.Proofs.Store.FileText
import StatusLine.Proofs.Store.GraceWindow
import StatusLine.Proofs.Store.Interleaving
import StatusLine.Proofs.Store.Policy
import StatusLine.Proofs.Store.ReadBack
import StatusLine.Proofs.Store.Readiness
import StatusLine.Proofs.Store.Saving
import StatusLine.Proofs.Store.Sharing
import StatusLine.Proofs.Store.Speakable
import StatusLine.Proofs.Template.GapChecking
import StatusLine.Proofs.Text.Diverging
import StatusLine.Proofs.Text.Escaping
import StatusLine.Proofs.Text.HereDocument
import StatusLine.Proofs.Text.LineReader
import StatusLine.Proofs.Text.NormalPath
import StatusLine.Proofs.Text.Numerals
import StatusLine.Proofs.Text.Occurrences
import StatusLine.Proofs.Text.QuotedPath
import StatusLine.Proofs.Text.Separators
import StatusLine.Proofs.Text.Substring
import StatusLine.Routine
import StatusLine.Script.Assembly
import StatusLine.Script.Parts
import StatusLine.Script.Templates
import StatusLine.Segment
import StatusLine.Settings
import StatusLine.Shelf
import StatusLine.Shortening.BlankRuns
import StatusLine.Shortening.Identifiers
import StatusLine.Shortening.Idioms
import StatusLine.Shortening.Passes
import StatusLine.Shortening.Pattern
import StatusLine.Shortening.Rule
import StatusLine.Store.Cache
import StatusLine.Store.Disk
import StatusLine.Style
import StatusLine.Template.Attribute
import StatusLine.Template.Rendering
import StatusLine.Template.Source
import StatusLine.Template.Syntax
import StatusLine.Text.Case
import StatusLine.Text.Classes
import StatusLine.Text.HereDocument
import StatusLine.Text.Lines
import StatusLine.Text.Naming
import StatusLine.Text.Quoting
import StatusLine.Text.Ranges
import StatusLine.Text.Substring
