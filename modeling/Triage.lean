import Triage.Artifact
import Triage.Batch
import Triage.Check
import Triage.Cli.Options
import Triage.Cli.Program
import Triage.Clock
import Triage.Command
import Triage.Csv
import Triage.Csv.Reader
import Triage.Discovery
import Triage.FileTree
import Triage.Finding
import Triage.Finding.Json
import Triage.Json.Layout
import Triage.Json.Quoted
import Triage.Json.Value
import Triage.Machine.Basic
import Triage.Machine.Builtin
import Triage.Machine.Execution
import Triage.Machine.Image
import Triage.Machine.Launch
import Triage.Machine.Lifetime
import Triage.Machine.Listing
import Triage.Machine.Program
import Triage.Machine.Redirection
import Triage.Machine.Signal
import Triage.Machine.Transfer
import Triage.Main
import Triage.ModuleName
import Triage.OsError
import Triage.Outcome
import Triage.Path
import Triage.Recording
import Triage.Registry
import Triage.Report
import Triage.Report.Reader
import Triage.Report.Summary
import Triage.Run
import Triage.Schedule
import Triage.SearchPath
import Triage.Session
import Triage.Settings
import Triage.Setup
import Triage.Shell.Arithmetic
import Triage.Shell.Condition
import Triage.Shell.Expansion
import Triage.Shell.Names
import Triage.Shell.Pattern
import Triage.Shell.Printing
import Triage.Shell.Script
import Triage.Shell.State
import Triage.Shell.Syntax
import Triage.Status
import Triage.Storage
import Triage.Survey
import Triage.Text.Blank
import Triage.Text.Clip
import Triage.Text.Letters
import Triage.Text.Rounding
import Triage.Text.Tail
import Triage.Text.Utf8
import Triage.Verdict
import Triage.Proofs.Schedule.Crew
import Triage.Proofs.Check.Crew
import Triage.Proofs.Check.Interruption
import Triage.Proofs.Check.Kept
import Triage.Proofs.Command.Environment
import Triage.Proofs.Csv.ReadBack
import Triage.Proofs.Discovery.Complete
import Triage.Proofs.Finding.ReadBack
import Triage.Proofs.Registry.Cancellation
import Triage.Proofs.Report.Counts
import Triage.Proofs.Report.Order
import Triage.Proofs.Report.ReadBack
import Triage.Proofs.Session.Batches
import Triage.Proofs.Session.Checks
import Triage.Proofs.Survey.Runs
import Triage.Proofs.Text.Digits
import Triage.Proofs.Text.Lines
import Triage.Proofs.Verdict.Failures
import Triage.Proofs.Verdict.Signs
import Triage.Proofs.Registry.Solitary
import Triage.Proofs.Check.WorkingDir
import Triage.Proofs.Text.ByteOrder
import Triage.Proofs.Report.Consistent
import Triage.Proofs.Verdict.Unlocated
import Triage.Proofs.Artifact.Attempts
import Triage.Proofs.Cli.ExitCode
import Triage.Proofs.Json.Grammar
import Triage.Proofs.Json.Spelling
import Triage.Proofs.Json.Skip
import Triage.Proofs.Json.Shapes
import Triage.Proofs.Finding.Spelled
import Triage.Proofs.Finding.Keys
import Triage.Proofs.Finding.Positions
import Triage.Proofs.Finding.ByValues
import Triage.Proofs.SearchPath.Prepending
import Triage.Proofs.Command.Calls
import Triage.Proofs.ModuleName.Parts
import Triage.Proofs.Check.Nameless
import Triage.Proofs.Text.Infix
import Triage.Proofs.Check.MissingModule
import Triage.Proofs.Storage.Acts
import Triage.Proofs.FileTree.Contents
import Triage.Proofs.Artifact.Whole
import Triage.Proofs.Text.Decoding
import Triage.Proofs.Recording.Readers
import Triage.Proofs.Registry.Reuse
import Triage.Proofs.Text.Clipping
import Triage.Proofs.Run.Deadline
import Triage.Proofs.Setup.Checked
