import ReleaseJob.Bindings
import ReleaseJob.Cli.Args
import ReleaseJob.Cli.Format
import ReleaseJob.Cli.Option
import ReleaseJob.Cli.Program
import ReleaseJob.Cli.Style
import ReleaseJob.Command
import ReleaseJob.Command.Streams
import ReleaseJob.Config
import ReleaseJob.Config.Json
import ReleaseJob.Config.Load
import ReleaseJob.Config.Valid
import ReleaseJob.Config.Yaml
import ReleaseJob.Decimal.Binary
import ReleaseJob.Decimal.Shortest
import ReleaseJob.History.Line
import ReleaseJob.History.Memory
import ReleaseJob.History.Store
import ReleaseJob.History.Table
import ReleaseJob.Host.Machine
import ReleaseJob.Host.OsError
import ReleaseJob.Host.Runner
import ReleaseJob.Host.Shell
import ReleaseJob.Host.Shell.Builtin
import ReleaseJob.Host.Shell.Script
import ReleaseJob.Host.Shell.State
import ReleaseJob.Host.Shell.Sum
import ReleaseJob.Host.Shell.Word
import ReleaseJob.Host.Tool
import ReleaseJob.Host.Tool.Escape
import ReleaseJob.Host.Tool.Files
import ReleaseJob.Host.Tool.Printf
import ReleaseJob.Host.Tool.Test
import ReleaseJob.Host.Tool.Text
import ReleaseJob.Host.Trace
import ReleaseJob.Job
import ReleaseJob.Job.Event
import ReleaseJob.Job.Record
import ReleaseJob.Job.Run
import ReleaseJob.Job.State
import ReleaseJob.Json
import ReleaseJob.Json.Record
import ReleaseJob.Log
import ReleaseJob.Main
import ReleaseJob.Names
import ReleaseJob.Proofs.Acceptance
import ReleaseJob.Proofs.Admitted
import ReleaseJob.Proofs.BreakingOff
import ReleaseJob.Proofs.Calendar
import ReleaseJob.Proofs.Cancellation
import ReleaseJob.Proofs.Channels
import ReleaseJob.Proofs.Commands
import ReleaseJob.Proofs.Course
import ReleaseJob.Proofs.Deadline
import ReleaseJob.Proofs.Digits
import ReleaseJob.Proofs.Environment
import ReleaseJob.Proofs.Fates
import ReleaseJob.Proofs.Filed
import ReleaseJob.Proofs.Filters
import ReleaseJob.Proofs.Indexed
import ReleaseJob.Proofs.LastFilter
import ReleaseJob.Proofs.Lines
import ReleaseJob.Proofs.Loaded
import ReleaseJob.Proofs.Loop
import ReleaseJob.Proofs.Masking
import ReleaseJob.Proofs.Metadata
import ReleaseJob.Proofs.Newest
import ReleaseJob.Proofs.NewestShown
import ReleaseJob.Proofs.Noninterference
import ReleaseJob.Proofs.Occurrences
import ReleaseJob.Proofs.Pause
import ReleaseJob.Proofs.Plan
import ReleaseJob.Proofs.Progress
import ReleaseJob.Proofs.Ranked
import ReleaseJob.Proofs.Readers
import ReleaseJob.Proofs.Replay
import ReleaseJob.Proofs.Report
import ReleaseJob.Proofs.Rows
import ReleaseJob.Proofs.Settlement
import ReleaseJob.Proofs.Slots
import ReleaseJob.Proofs.Stamp
import ReleaseJob.Proofs.StockTags
import ReleaseJob.Proofs.Stores
import ReleaseJob.Proofs.Transcript
import ReleaseJob.Proofs.Turns
import ReleaseJob.Proofs.Verdict
import ReleaseJob.Push
import ReleaseJob.Ranked
import ReleaseJob.RunId
import ReleaseJob.Secret
import ReleaseJob.Step
import ReleaseJob.Step.Context
import ReleaseJob.Step.Kind
import ReleaseJob.Step.Run
import ReleaseJob.Step.State
import ReleaseJob.Summary
import ReleaseJob.Tag.CharClass
import ReleaseJob.Tag.CharClass.Edges
import ReleaseJob.Tag.Glob
import ReleaseJob.Tag.Pattern
import ReleaseJob.Tag.Size
import ReleaseJob.Text.Blank
import ReleaseJob.Text.ByteSpan
import ReleaseJob.Text.Glyph
import ReleaseJob.Text.Quoted
import ReleaseJob.Text.Utf8
import ReleaseJob.Time.Instant
import ReleaseJob.Time.Span
import ReleaseJob.Time.Timestamp
import ReleaseJob.Trigger
import ReleaseJob.Yaml.Cursor
import ReleaseJob.Yaml.Decode
import ReleaseJob.Yaml.Event
import ReleaseJob.Yaml.Node
import ReleaseJob.Yaml.Token
import ReleaseJob.Yaml.Token.Block
import ReleaseJob.Yaml.Token.Flow
import ReleaseJob.Yaml.Token.Label
import ReleaseJob.Yaml.Token.Scan
import ReleaseJob.Yaml.Value
