import DocFacts.Arguments.Entry
import DocFacts.Arguments.Error
import DocFacts.Arguments.Parser
import DocFacts.Arguments.Reading
import DocFacts.Arguments.Star
import DocFacts.Command.Inputs
import DocFacts.Command.Log
import DocFacts.Command.Options
import DocFacts.Command.Run
import DocFacts.Comment.Occurrence
import DocFacts.Comment.Scan
import DocFacts.Decimal.Layout
import DocFacts.Decimal.Literal
import DocFacts.Decimal.Shortest
import DocFacts.Extraction.Consolidation
import DocFacts.Extraction.Declaration
import DocFacts.Extraction.Extractor
import DocFacts.Files.Access
import DocFacts.Files.Path
import DocFacts.Files.Pattern
import DocFacts.Files.Tree
import DocFacts.Files.Walk
import DocFacts.Json
import DocFacts.Main
import DocFacts.Objects.Attributes
import DocFacts.Objects.Registry
import DocFacts.Proofs.Arguments.Acceptance
import DocFacts.Proofs.Arguments.Advance
import DocFacts.Proofs.Arguments.Argument
import DocFacts.Proofs.Arguments.Braces
import DocFacts.Proofs.Arguments.Echo
import DocFacts.Proofs.Arguments.Entries
import DocFacts.Proofs.Arguments.EntryTexts
import DocFacts.Proofs.Arguments.EntryValue
import DocFacts.Proofs.Arguments.ErrorPlace
import DocFacts.Proofs.Arguments.Export
import DocFacts.Proofs.Arguments.Gap
import DocFacts.Proofs.Arguments.LastStar
import DocFacts.Proofs.Arguments.LineBreak
import DocFacts.Proofs.Arguments.Outline
import DocFacts.Proofs.Arguments.Pass
import DocFacts.Proofs.Arguments.RoundTrip
import DocFacts.Proofs.Arguments.Rounds
import DocFacts.Proofs.Arguments.Spelling
import DocFacts.Proofs.Arguments.Tidy
import DocFacts.Proofs.Arguments.TopLevel
import DocFacts.Proofs.Arguments.Trailing
import DocFacts.Proofs.Command.InputOrder
import DocFacts.Proofs.Command.LeftOut
import DocFacts.Proofs.Command.Recorded
import DocFacts.Proofs.Command.SameName
import DocFacts.Proofs.Comment.Annotation
import DocFacts.Proofs.Comment.Grouped
import DocFacts.Proofs.Comment.Matches
import DocFacts.Proofs.Comment.Occurrence
import DocFacts.Proofs.Comment.OwnLine
import DocFacts.Proofs.Comment.Protection
import DocFacts.Proofs.Comment.RoundTrip
import DocFacts.Proofs.Decimal.Grammar
import DocFacts.Proofs.Decimal.Integer
import DocFacts.Proofs.Decimal.Overflow
import DocFacts.Proofs.Decimal.Range
import DocFacts.Proofs.Decimal.Rounding
import DocFacts.Proofs.Extraction.Consolidation
import DocFacts.Proofs.Extraction.Direct
import DocFacts.Proofs.Extraction.Failure
import DocFacts.Proofs.Extraction.FirstComment
import DocFacts.Proofs.Extraction.History
import DocFacts.Proofs.Extraction.Interrupted
import DocFacts.Proofs.Extraction.Keys
import DocFacts.Proofs.Extraction.Scans
import DocFacts.Proofs.Extraction.Session
import DocFacts.Proofs.Extraction.Subhistory
import DocFacts.Proofs.Extraction.Trace
import DocFacts.Proofs.Files.Order
import DocFacts.Proofs.Files.Recorded
import DocFacts.Proofs.Json
import DocFacts.Proofs.List
import DocFacts.Proofs.Objects.Delivery
import DocFacts.Proofs.Objects.Record
import DocFacts.Proofs.Source.Enclosed
import DocFacts.Proofs.Source.Header
import DocFacts.Proofs.Source.Items
import DocFacts.Proofs.Source.LineBreak
import DocFacts.Proofs.Source.Namespace
import DocFacts.Proofs.Source.Pairing
import DocFacts.Proofs.Source.Parts
import DocFacts.Proofs.Table
import DocFacts.Proofs.Text.Backslash
import DocFacts.Proofs.Text.Blank
import DocFacts.Proofs.Text.Guarded
import DocFacts.Proofs.Text.Lines
import DocFacts.Proofs.Text.Pieces
import DocFacts.Proofs.Text.Search
import DocFacts.Proofs.Value.Cast
import DocFacts.Proofs.Value.Json
import DocFacts.Proofs.Value.Leaf
import DocFacts.Proofs.Value.Written
import DocFacts.Source.Collect
import DocFacts.Source.Header
import DocFacts.Table
import DocFacts.Text.Alphanumeric
import DocFacts.Text.Blank
import DocFacts.Text.Escape
import DocFacts.Text.Extending
import DocFacts.Text.Ignorable
import DocFacts.Text.Invisible
import DocFacts.Text.Quoted
import DocFacts.Text.Ranges
import DocFacts.Text.Search
import DocFacts.Value.Basic
import DocFacts.Value.Cast
import DocFacts.Value.Json
