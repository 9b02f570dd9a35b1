import LessonPress.Binary64.Basic
import LessonPress.Binary64.Decimal
import LessonPress.Cache.Basic
import LessonPress.Cache.Call
import LessonPress.Cache.Entry
import LessonPress.Cache.Event
import LessonPress.Cache.JsonStore
import LessonPress.Cache.Key
import LessonPress.Cache.Run
import LessonPress.Cache.Store
import LessonPress.Compiler.Basic
import LessonPress.Compiler.Compile
import LessonPress.Compiler.Config
import LessonPress.Compiler.Encoding
import LessonPress.Diff.Basic
import LessonPress.Diff.Encoding
import LessonPress.Diff.Highlight
import LessonPress.Diff.Spans
import LessonPress.Diff.Unified
import LessonPress.Diff.UnifiedPrinter
import LessonPress.Document.Basic
import LessonPress.Document.Encoding
import LessonPress.Document.Fence
import LessonPress.Document.Frontmatter
import LessonPress.Document.LineKind
import LessonPress.Document.ParseError
import LessonPress.Document.Parser
import LessonPress.Document.Printer
import LessonPress.Document.TagReader
import LessonPress.Embed.Directive
import LessonPress.Embed.Drift
import LessonPress.Embed.Expansion
import LessonPress.Embed.Sources
import LessonPress.Error
import LessonPress.Excerpt.Button
import LessonPress.Excerpt.Dedent
import LessonPress.Excerpt.Language
import LessonPress.FileSystem.Basic
import LessonPress.FileSystem.Operations
import LessonPress.Fingerprint.Basic
import LessonPress.Fingerprint.Records
import LessonPress.Fingerprint.Tracked
import LessonPress.Hash.ContentHash
import LessonPress.Hash.Sha256
import LessonPress.Json.Basic
import LessonPress.Json.Printer
import LessonPress.Json.Reader
import LessonPress.Json.Shape
import LessonPress.Map.Sorted
import LessonPress.Map.Table
import LessonPress.Path.Basic
import LessonPress.Proofs.Binary64.Rounding
import LessonPress.Proofs.Cache.Arrivals
import LessonPress.Proofs.Cache.Backing
import LessonPress.Proofs.Cache.Barren
import LessonPress.Proofs.Cache.Coherence
import LessonPress.Proofs.Cache.Contents
import LessonPress.Proofs.Cache.Course
import LessonPress.Proofs.Cache.Crowd
import LessonPress.Proofs.Cache.Decision
import LessonPress.Proofs.Cache.EntryCodec
import LessonPress.Proofs.Cache.Flights
import LessonPress.Proofs.Cache.Genuine
import LessonPress.Proofs.Cache.Hits
import LessonPress.Proofs.Cache.LiveKeys
import LessonPress.Proofs.Cache.Lookup
import LessonPress.Proofs.Cache.Mirror
import LessonPress.Proofs.Cache.Orderly
import LessonPress.Proofs.Cache.Overwriting
import LessonPress.Proofs.Cache.Past
import LessonPress.Proofs.Cache.Provenance
import LessonPress.Proofs.Cache.Renewal
import LessonPress.Proofs.Cache.Restart
import LessonPress.Proofs.Cache.Serial
import LessonPress.Proofs.Cache.SingleFlight
import LessonPress.Proofs.Cache.Stage
import LessonPress.Proofs.Cache.Stamps
import LessonPress.Proofs.Cache.Standing
import LessonPress.Proofs.Cache.Step
import LessonPress.Proofs.Cache.StoreFiles
import LessonPress.Proofs.Cache.StoreRuns
import LessonPress.Proofs.Cache.Storeless
import LessonPress.Proofs.Cache.Tasks
import LessonPress.Proofs.Cache.Vouching
import LessonPress.Proofs.Cache.WholeCalls
import LessonPress.Proofs.Cache.Windows
import LessonPress.Proofs.Compiler.Dependencies
import LessonPress.Proofs.Compiler.LineEndings
import LessonPress.Proofs.Compiler.Recompile
import LessonPress.Proofs.Diff.Highlighting
import LessonPress.Proofs.Diff.Marks
import LessonPress.Proofs.Diff.Pairing
import LessonPress.Proofs.Diff.Partners
import LessonPress.Proofs.Diff.SecondPass
import LessonPress.Proofs.Diff.Spans
import LessonPress.Proofs.Diff.Unified
import LessonPress.Proofs.Document.Blocks
import LessonPress.Proofs.Document.Closings
import LessonPress.Proofs.Document.Encoding
import LessonPress.Proofs.Document.Extents
import LessonPress.Proofs.Document.Faults
import LessonPress.Proofs.Document.Fences
import LessonPress.Proofs.Document.Head
import LessonPress.Proofs.Document.Kinds
import LessonPress.Proofs.Document.Layout
import LessonPress.Proofs.Document.Levels
import LessonPress.Proofs.Document.LineBreaks
import LessonPress.Proofs.Document.Locality
import LessonPress.Proofs.Document.Printable
import LessonPress.Proofs.Document.Relaid
import LessonPress.Proofs.Document.RoundTrip
import LessonPress.Proofs.Document.Shifts
import LessonPress.Proofs.Document.Spelling
import LessonPress.Proofs.Document.Substance
import LessonPress.Proofs.Document.Tags
import LessonPress.Proofs.Document.Tiling
import LessonPress.Proofs.Document.Trees
import LessonPress.Proofs.Document.Wrapping
import LessonPress.Proofs.Embed.Acceptance
import LessonPress.Proofs.Embed.Excerpts
import LessonPress.Proofs.Embed.History
import LessonPress.Proofs.Embed.Independence
import LessonPress.Proofs.Embed.Messages
import LessonPress.Proofs.Embed.Quoting
import LessonPress.Proofs.Embed.Replacement
import LessonPress.Proofs.Embed.Reports
import LessonPress.Proofs.Embed.Settling
import LessonPress.Proofs.Embed.Streams
import LessonPress.Proofs.Embed.Tracking
import LessonPress.Proofs.Embed.Validity
import LessonPress.Proofs.Excerpt.Indentation
import LessonPress.Proofs.FileSystem.Names
import LessonPress.Proofs.FileSystem.Spelling
import LessonPress.Proofs.FileSystem.Ways
import LessonPress.Proofs.Fingerprint.Checks
import LessonPress.Proofs.Fingerprint.Detection
import LessonPress.Proofs.Json.RoundTrip
import LessonPress.Proofs.Json.Tokens
import LessonPress.Proofs.Json.Trees
import LessonPress.Proofs.Json.Values
import LessonPress.Proofs.Range.Grammar
import LessonPress.Proofs.Range.Order
import LessonPress.Proofs.Text.Decimal
import LessonPress.Proofs.Text.Lines
import LessonPress.Proofs.Text.Names
import LessonPress.Proofs.Text.Splitting
import LessonPress.Range.Encoding
import LessonPress.Range.LineRange
import LessonPress.Range.RangeList
import LessonPress.Text.Blank
import LessonPress.Text.Case
import LessonPress.Text.Digits
import LessonPress.Text.Letters
import LessonPress.Text.Lines
import LessonPress.Text.Quoted
import LessonPress.Text.Utf8
