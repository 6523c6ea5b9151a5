import FacetSearch.CommandLine.Arguments
import FacetSearch.CommandLine.Command
import FacetSearch.CommandLine.Outcome
import FacetSearch.CommandLine.Session
import FacetSearch.Config.Basic
import FacetSearch.Config.Decoding
import FacetSearch.Config.Discovery
import FacetSearch.Config.Encoding
import FacetSearch.Config.Merge
import FacetSearch.Config.Template
import FacetSearch.Config.Warning
import FacetSearch.Decimal.Binary
import FacetSearch.Decimal.Layout
import FacetSearch.Decimal.Shortest
import FacetSearch.Dict
import FacetSearch.Expression.Basic
import FacetSearch.Expression.Error
import FacetSearch.Expression.Parser
import FacetSearch.Expression.Printer
import FacetSearch.Expression.Token
import FacetSearch.Files.Path
import FacetSearch.Files.Tree
import FacetSearch.Filter.Builder
import FacetSearch.Filter.Clause
import FacetSearch.Json.Basic
import FacetSearch.Json.Printer
import FacetSearch.Json.Reader
import FacetSearch.Main
import FacetSearch.Notice
import FacetSearch.Phrase.Segment
import FacetSearch.Phrase.Spelling
import FacetSearch.Query.Basic
import FacetSearch.Query.Clause
import FacetSearch.Query.Compiler
import FacetSearch.Query.Selection
import FacetSearch.Schema.Basic
import FacetSearch.Schema.Groups
import FacetSearch.Snippet.Boundary
import FacetSearch.Snippet.Fragment
import FacetSearch.Snippet.Match
import FacetSearch.Snippet.Span
import FacetSearch.Terminal.Style
import FacetSearch.Terminal.Table
import FacetSearch.Text.Alphanumeric
import FacetSearch.Text.Blank
import FacetSearch.Text.Bytes
import FacetSearch.Text.CodeRange
import FacetSearch.Text.Columns
import FacetSearch.Text.Graphic
import FacetSearch.Text.Integer
import FacetSearch.Text.Literal
import FacetSearch.Text.LowerCase
import FacetSearch.Text.Quoted
import FacetSearch.Text.Reader
import FacetSearch.Toml.Basic
import FacetSearch.Toml.Document
import FacetSearch.Toml.Printer
import FacetSearch.Toml.Reader
import FacetSearch.Toml.Scalar
import FacetSearch.Toml.Text
import FacetSearch.Proofs.Expression.Grammar
import FacetSearch.Proofs.Expression.Lexeme
import FacetSearch.Proofs.Expression.RoundTrip
import FacetSearch.Proofs.Phrase.QuotedRun
import FacetSearch.Proofs.Query.Piece
import FacetSearch.Proofs.Decimal.Numeral
import FacetSearch.Proofs.Query.ClauseText
import FacetSearch.Proofs.Query.QueryText
import FacetSearch.Proofs.Query.Compilation
import FacetSearch.Proofs.Query.Expansion
import FacetSearch.Proofs.Query.Structure
import FacetSearch.Proofs.Schema.Walk
import FacetSearch.Proofs.Text.Words
import FacetSearch.Proofs.Query.Grouping
import FacetSearch.Proofs.Query.Precedence
import FacetSearch.Proofs.Text.Offsets
import FacetSearch.Proofs.Snippet.Window
import FacetSearch.Proofs.Snippet.Matches
import FacetSearch.Proofs.Snippet.Fragments
import FacetSearch.Proofs.Snippet.Slices
import FacetSearch.Proofs.Snippet.Passages
import FacetSearch.Proofs.Phrase.Rejoining
import FacetSearch.Proofs.Phrase.Correction
import FacetSearch.Proofs.Text.Reading
import FacetSearch.Proofs.Filter.Condition
import FacetSearch.Proofs.Filter.Leaf
import FacetSearch.Proofs.Filter.ClauseText
import FacetSearch.Proofs.Filter.Meaning
import FacetSearch.Proofs.Filter.Building
import FacetSearch.Proofs.Query.FreeText
import FacetSearch.Proofs.Query.RangeText
import FacetSearch.Proofs.Schema.Entries
import FacetSearch.Proofs.Config.Precedence
import FacetSearch.Proofs.Toml.Text
import FacetSearch.Proofs.Toml.Value
import FacetSearch.Proofs.Toml.Tables
import FacetSearch.Proofs.Toml.Document
import FacetSearch.Proofs.Config.Dump
import FacetSearch.Proofs.Query.Failure
import FacetSearch.Proofs.Schema.Search
import FacetSearch.Proofs.Config.GroupWarnings
import FacetSearch.Proofs.Filter.Assembly
import FacetSearch.Proofs.Expression.Places
import FacetSearch.Proofs.Expression.Viability
import FacetSearch.Proofs.Schema.Cycles
import FacetSearch.Proofs.Query.Notices
import FacetSearch.Proofs.Config.GroupCycles
import FacetSearch.Proofs.Query.SearchedFields
import FacetSearch.Proofs.Snippet.WordEdges
import FacetSearch.Proofs.Snippet.WholeWords
import FacetSearch.Proofs.Text.Runs
import FacetSearch.Proofs.Snippet.Snapping
import FacetSearch.Proofs.Snippet.Selection
import FacetSearch.Proofs.Snippet.Occurrences
import FacetSearch.Proofs.Text.LowerCase
import FacetSearch.Proofs.Snippet.StarredTerms
import FacetSearch.Proofs.Snippet.Renderings
import FacetSearch.Proofs.Phrase.ByteScan
import FacetSearch.Proofs.Phrase.Partition
import FacetSearch.Proofs.Expression.TokenText
import FacetSearch.Proofs.Files.Path
import FacetSearch.Proofs.Config.Discovery
import FacetSearch.Proofs.Text.Occurrence
import FacetSearch.Proofs.Expression.Refusal
import FacetSearch.Proofs.Expression.Stuck
import FacetSearch.Proofs.Expression.Rewording
import FacetSearch.Proofs.Expression.Hints
import FacetSearch.Proofs.Expression.Caret
import FacetSearch.Proofs.Phrase.ClosingQuote
import FacetSearch.Proofs.Terminal.Screen
import FacetSearch.Proofs.Terminal.Emphasis
import FacetSearch.Proofs.Filter.ValueList
