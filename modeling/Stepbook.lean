import Stepbook.Callback
import Stepbook.Command.Config
import Stepbook.Command.Output
import Stepbook.Command.Run
import Stepbook.Command.Usage
import Stepbook.Command.Writer
import Stepbook.Decimal.Layout
import Stepbook.Decimal.Read
import Stepbook.Decimal.Shortest
import Stepbook.Definition
import Stepbook.Expression.Compiled
import Stepbook.Expression.Part
import Stepbook.Expression.Pattern
import Stepbook.Expression.SyntaxError
import Stepbook.Expression.Token
import Stepbook.Feature
import Stepbook.Gherkin.Document
import Stepbook.Gherkin.Line
import Stepbook.Gherkin.Reader
import Stepbook.Hook
import Stepbook.Json.Basic
import Stepbook.Json.Document
import Stepbook.Json.Layout
import Stepbook.Json.Reader
import Stepbook.Log
import Stepbook.Main
import Stepbook.Matcher
import Stepbook.Parameter
import Stepbook.Regex.Basic
import Stepbook.Regex.Bracket
import Stepbook.Regex.CharSet
import Stepbook.Regex.Cursor
import Stepbook.Regex.Escape
import Stepbook.Regex.Flags
import Stepbook.Regex.Match
import Stepbook.Regex.Nesting
import Stepbook.Regex.Program
import Stepbook.Regex.Reader
import Stepbook.Registry
import Stepbook.Run.Declaration
import Stepbook.Run.Error
import Stepbook.Run.Host
import Stepbook.Run.Input
import Stepbook.Run.Recorder
import Stepbook.Run.Report
import Stepbook.Run.Runner
import Stepbook.Source.Extraction
import Stepbook.Source.Lexeme
import Stepbook.StepType
import Stepbook.Text.Basic
import Stepbook.Text.BinaryProperty
import Stepbook.Text.BreakClass
import Stepbook.Text.CaseFold
import Stepbook.Text.Category
import Stepbook.Text.CharClass
import Stepbook.Text.Edition
import Stepbook.Text.Property
import Stepbook.Text.Quoted
import Stepbook.Text.Runs
import Stepbook.Text.Script
import Stepbook.Proofs.Regex.Ends
import Stepbook.Proofs.Expression.PatternRegex
import Stepbook.Proofs.Expression.Split
import Stepbook.Proofs.Regex.Take
import Stepbook.Proofs.Expression.Alphabet
import Stepbook.Proofs.Expression.Capture
import Stepbook.Proofs.Expression.RunRegex
import Stepbook.Proofs.Expression.Tokens
import Stepbook.Proofs.Expression.Meaning
import Stepbook.Proofs.Registry
import Stepbook.Proofs.Source.Reach
import Stepbook.Proofs.Source.Balance
import Stepbook.Proofs.Source.RoundTrip
import Stepbook.Proofs.Run.Trace
import Stepbook.Proofs.Run.Turn
import Stepbook.Proofs.Run.Relator
import Stepbook.Proofs.Run.Erasure
import Stepbook.Proofs.Run.Around
import Stepbook.Proofs.Run.History
import Stepbook.Proofs.Run.Start
import Stepbook.Proofs.Run.Step
import Stepbook.Proofs.Run.Scene
import Stepbook.Proofs.Run.Lifecycle
import Stepbook.Proofs.Run.Blame
import Stepbook.Proofs.Run.Domination
import Stepbook.Proofs.Run.Mending
import Stepbook.Proofs.Run.Lockstep
import Stepbook.Proofs.Run.Failure
import Stepbook.Proofs.Run.Unwinding
import Stepbook.Proofs.Run.Outcomes
import Stepbook.Proofs.Source.Order
import Stepbook.Proofs.Command.Load
import Stepbook.Proofs.Command.Resolve
import Stepbook.Proofs.Parameter
import Stepbook.Proofs.Expression.Spacing
import Stepbook.Proofs.Expression.Rendering
import Stepbook.Proofs.Expression.Coercion
import Stepbook.Proofs.Expression.Alignment
import Stepbook.Proofs.Expression.Escape
import Stepbook.Proofs.Expression.Position
import Stepbook.Proofs.Expression.Offset
import Stepbook.Proofs.Expression.Concatenation
import Stepbook.Proofs.Expression.Anchoring
import Stepbook.Proofs.Run.Events
import Stepbook.Proofs.Run.Features
import Stepbook.Proofs.Gherkin
import Stepbook.Proofs.Gherkin.Template
import Stepbook.Proofs.Text.Keyed
import Stepbook.Proofs.Gherkin.Columns
import Stepbook.Proofs.Gherkin.Flattening
import Stepbook.Proofs.Run.Quiet
import Stepbook.Proofs.Run.Recording
import Stepbook.Proofs.Command.Output
import Stepbook.Proofs.Command.Check
import Stepbook.Proofs.Command.Failure
import Stepbook.Proofs.Json.Reader
import Stepbook.Proofs.Decimal.Shortest
import Stepbook.Proofs.Decimal.Layout
import Stepbook.Proofs.Json.Encoding
import Stepbook.Proofs.Json.Document
import Stepbook.Proofs.Expression.Canonical
import Stepbook.Proofs.Source.Lines
import Stepbook.Proofs.Source.Extent
import Stepbook.Proofs.Source.Closing
import Stepbook.Proofs.Source.Call
import Stepbook.Proofs.Source.Snippet
import Stepbook.Source.Bytes
import Stepbook.Proofs.Source.Encoding
import Stepbook.Proofs.Source.Bytes
import Stepbook.Proofs.Source.Span
import Stepbook.Proofs.Source.Gaps
import Stepbook.Proofs.Source.Unclosed
import Stepbook.Source.Scanner
import Stepbook.Proofs.Source.Scanner
