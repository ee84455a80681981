import RuleScan.Address.Basic
import RuleScan.Cli.Command
import RuleScan.Cli.Flag
import RuleScan.Cli.Program
import RuleScan.Cli.Watching
import RuleScan.Command.Basic
import RuleScan.Decimal.Read
import RuleScan.Decimal.Shortest
import RuleScan.Diff.Common
import RuleScan.Diff.Ranking
import RuleScan.Diff.Unified
import RuleScan.Disk.Basic
import RuleScan.Engine.Evaluate
import RuleScan.Engine.Finding
import RuleScan.Engine.Listing
import RuleScan.Engine.Run
import RuleScan.Engine.Search
import RuleScan.Expr.Arithmetic
import RuleScan.Expr.Check
import RuleScan.Expr.Convert
import RuleScan.Expr.Desugar
import RuleScan.Expr.Eval
import RuleScan.Expr.Format
import RuleScan.Expr.Functions
import RuleScan.Expr.Library
import RuleScan.Expr.Parse
import RuleScan.Expr.Predicate
import RuleScan.Expr.Records
import RuleScan.Expr.Syntax
import RuleScan.Expr.Token
import RuleScan.Expr.Typing
import RuleScan.Expr.Value
import RuleScan.Failure
import RuleScan.Glob.Compile
import RuleScan.Glob.Matcher
import RuleScan.Glob.Tree
import RuleScan.Json.Basic
import RuleScan.Json.Fill
import RuleScan.Json.Read
import RuleScan.Json.Write
import RuleScan.Log
import RuleScan.Main
import RuleScan.Markdown.Section
import RuleScan.Path
import RuleScan.Profile.Basic
import RuleScan.Profile.Catalog
import RuleScan.Profile.Document
import RuleScan.Profile.Schema
import RuleScan.Proofs.Command.Environment
import RuleScan.Proofs.Diff.Edits
import RuleScan.Proofs.Diff.Entries
import RuleScan.Proofs.Disk.Entry
import RuleScan.Proofs.Disk.Kept
import RuleScan.Proofs.Disk.Names
import RuleScan.Proofs.Disk.Tree
import RuleScan.Proofs.Disk.Ways
import RuleScan.Proofs.Engine.AllOrNothing
import RuleScan.Proofs.Engine.Board
import RuleScan.Proofs.Engine.Canonical
import RuleScan.Proofs.Engine.Crew
import RuleScan.Proofs.Engine.Degraded
import RuleScan.Proofs.Engine.Interruption
import RuleScan.Proofs.Engine.Native
import RuleScan.Proofs.Engine.Places
import RuleScan.Proofs.Engine.Reading
import RuleScan.Proofs.Engine.Returns
import RuleScan.Proofs.Engine.Schedule
import RuleScan.Proofs.Engine.Separation
import RuleScan.Proofs.Engine.Settled
import RuleScan.Proofs.Engine.Shift
import RuleScan.Proofs.Engine.Snapshot
import RuleScan.Proofs.Engine.Spared
import RuleScan.Proofs.Engine.Suppression
import RuleScan.Proofs.Engine.Tally
import RuleScan.Proofs.Engine.Tracked
import RuleScan.Proofs.Engine.Universe
import RuleScan.Proofs.Finding.Distinct
import RuleScan.Proofs.Finding.Snippet
import RuleScan.Proofs.Glob.Readable
import RuleScan.Proofs.Json.Fill
import RuleScan.Proofs.Json.Roundtrip
import RuleScan.Proofs.Json.Token
import RuleScan.Proofs.Markdown.Nesting
import RuleScan.Proofs.Markdown.Passes
import RuleScan.Proofs.Markdown.Replaced
import RuleScan.Proofs.Path.Clean
import RuleScan.Proofs.Profile.ByValue
import RuleScan.Proofs.Profile.Dialects
import RuleScan.Proofs.Profile.Fitting
import RuleScan.Proofs.Profile.Loading
import RuleScan.Proofs.Profile.Reading
import RuleScan.Proofs.Profile.Repeats
import RuleScan.Proofs.Profile.Roundtrip
import RuleScan.Proofs.Profile.Shape
import RuleScan.Proofs.Profile.Sound
import RuleScan.Proofs.Profile.Validity
import RuleScan.Proofs.Regex.Offset
import RuleScan.Proofs.Report.Counts
import RuleScan.Proofs.Report.Diff
import RuleScan.Proofs.Report.Roundtrip
import RuleScan.Proofs.Report.Sarif
import RuleScan.Proofs.Report.Verdict
import RuleScan.Proofs.Rule.InScope
import RuleScan.Proofs.Schema.Located
import RuleScan.Proofs.Schema.Outline
import RuleScan.Proofs.Schema.Plain
import RuleScan.Proofs.Schema.Published
import RuleScan.Proofs.Schema.Violations
import RuleScan.Proofs.Search.External
import RuleScan.Proofs.Search.LineEnds
import RuleScan.Proofs.Search.Lines
import RuleScan.Proofs.Search.Marked
import RuleScan.Proofs.Search.Record
import RuleScan.Proofs.Settings.Accepted
import RuleScan.Proofs.Settings.DefaultFile
import RuleScan.Proofs.Settings.Exclusions
import RuleScan.Proofs.Settings.Nearest
import RuleScan.Proofs.Settings.Precedence
import RuleScan.Proofs.Settings.SizeLimit
import RuleScan.Proofs.Spec.Combined
import RuleScan.Proofs.Spec.Samples
import RuleScan.Proofs.Spec.WellFormed
import RuleScan.Proofs.Text.Order
import RuleScan.Proofs.Text.Space
import RuleScan.Proofs.Text.Utf8
import RuleScan.Proofs.Watch.Directories
import RuleScan.Proofs.Watch.Following
import RuleScan.Proofs.Watch.Pending
import RuleScan.Proofs.Yaml.Spelled
import RuleScan.Regex.Basic
import RuleScan.Regex.Parse
import RuleScan.Regex.Program
import RuleScan.Report.Basic
import RuleScan.Report.Document
import RuleScan.Report.Format
import RuleScan.Report.Sarif
import RuleScan.Rule.Basic
import RuleScan.Rule.Document
import RuleScan.Rule.Pattern
import RuleScan.Rule.Scope
import RuleScan.Rule.Severity
import RuleScan.Scan
import RuleScan.Schema.Check
import RuleScan.Schema.Draft
import RuleScan.Schema.Fault
import RuleScan.Schema.Format
import RuleScan.Schema.Generate
import RuleScan.Schema.Library
import RuleScan.Schema.Meta
import RuleScan.Schema.Number
import RuleScan.Schema.Record
import RuleScan.Schema.Sheet
import RuleScan.Schema.Source.Expression
import RuleScan.Schema.Source.Literal
import RuleScan.Schema.Source.Notes
import RuleScan.Schema.Source.Reader
import RuleScan.Schema.Source.Statement
import RuleScan.Schema.Source.Token
import RuleScan.Schema.Source.TypeForm
import RuleScan.Schema.Validate
import RuleScan.Settings.Basic
import RuleScan.Settings.Document
import RuleScan.Settings.Effective
import RuleScan.Settings.Files
import RuleScan.Settings.Schema
import RuleScan.Spec.Basic
import RuleScan.Spec.Read
import RuleScan.Text.Base64
import RuleScan.Text.Csv
import RuleScan.Text.Fuzzy
import RuleScan.Text.Quoted
import RuleScan.Text.Space
import RuleScan.Text.Utf8
import RuleScan.Text.Width
import RuleScan.Theme.Configured
import RuleScan.Time.Duration
import RuleScan.Time.Moment
import RuleScan.Unicode.Case
import RuleScan.Unicode.Category
import RuleScan.Unicode.Cluster
import RuleScan.Unicode.Ranges
import RuleScan.Unicode.Script
import RuleScan.Watch.Basic
import RuleScan.Watch.Session
import RuleScan.Yaml.Cursor
import RuleScan.Yaml.Error
import RuleScan.Yaml.Group
import RuleScan.Yaml.Node
import RuleScan.Yaml.Path
import RuleScan.Yaml.Quote
import RuleScan.Yaml.Record
import RuleScan.Yaml.Scan
import RuleScan.Yaml.Token
import RuleScan.Yaml.Value
import RuleScan.Yaml.Write
