import Breakage.Allowlist
import Breakage.CommandLine.Grammar
import Breakage.CommandLine.Program
import Breakage.CommandLine.Request
import Breakage.CommandLine.Scan
import Breakage.Comparison
import Breakage.Comparison.Reading
import Breakage.Diagnostic
import Breakage.Duration
import Breakage.Fault
import Breakage.FileTree
import Breakage.Host
import Breakage.Instant
import Breakage.Journal
import Breakage.Json
import Breakage.Json.Codec
import Breakage.Json.Number
import Breakage.Json.Printer
import Breakage.Json.Reader
import Breakage.LogFilter
import Breakage.LogFilter.Directive
import Breakage.LogFilter.Level
import Breakage.Main
import Breakage.Milestone
import Breakage.Module.Map
import Breakage.Module.Name
import Breakage.Module.Set
import Breakage.OsError
import Breakage.Outcome
import Breakage.Outcome.Report
import Breakage.Outcome.Summary
import Breakage.Outcome.Verdict
import Breakage.Package
import Breakage.Package.Codec
import Breakage.Package.Description
import Breakage.Package.Selection
import Breakage.Path
import Breakage.Pattern
import Breakage.Pattern.Reader
import Breakage.Pattern.Support
import Breakage.Pool
import Breakage.Process
import Breakage.Proofs.Allowlist
import Breakage.Proofs.CommandLine.ExitCode
import Breakage.Proofs.Comparison.Printed
import Breakage.Proofs.Comparison.Rendering
import Breakage.Proofs.Directories
import Breakage.Proofs.FileTree
import Breakage.Proofs.Host
import Breakage.Proofs.Instant
import Breakage.Proofs.Journal
import Breakage.Proofs.Json.Codec
import Breakage.Proofs.Json.Fields
import Breakage.Proofs.Json.Grammar
import Breakage.Proofs.Json.Layout
import Breakage.Proofs.Json.Reading
import Breakage.Proofs.Json.Reordering
import Breakage.Proofs.Json.Tokens
import Breakage.Proofs.LogFilter
import Breakage.Proofs.LogFilter.Directive
import Breakage.Proofs.Module.Identifiers
import Breakage.Proofs.Module.Tables
import Breakage.Proofs.Outcome
import Breakage.Proofs.Outcome.Concordance
import Breakage.Proofs.Outcome.Partition
import Breakage.Proofs.Package.Conversion
import Breakage.Proofs.Package.Described
import Breakage.Proofs.Package.KeyOrder
import Breakage.Proofs.Package.Naming
import Breakage.Proofs.Package.Scope
import Breakage.Proofs.Package.Selection
import Breakage.Proofs.Pattern.Quoted
import Breakage.Proofs.Pattern.Reader
import Breakage.Proofs.Pool.Completion
import Breakage.Proofs.Pool.History
import Breakage.Proofs.Pool.Lockstep
import Breakage.Proofs.Pool.Mirror
import Breakage.Proofs.Pool.Permits
import Breakage.Proofs.Run.Absence
import Breakage.Proofs.Run.Accounting
import Breakage.Proofs.Run.Allowance
import Breakage.Proofs.Run.Baseline
import Breakage.Proofs.Run.Cache
import Breakage.Proofs.Run.Comparing
import Breakage.Proofs.Run.Confinement
import Breakage.Proofs.Run.Digester
import Breakage.Proofs.Run.Dumping
import Breakage.Proofs.Run.Engine
import Breakage.Proofs.Run.Exclusion
import Breakage.Proofs.Run.Faults
import Breakage.Proofs.Run.Invariant
import Breakage.Proofs.Run.Likeness
import Breakage.Proofs.Run.Milestones
import Breakage.Proofs.Run.Pools
import Breakage.Proofs.Run.Renewal
import Breakage.Proofs.Run.Retention
import Breakage.Proofs.Run.Reuse
import Breakage.Proofs.Run.Schedules
import Breakage.Proofs.Run.SelfComparison
import Breakage.Proofs.Run.Session
import Breakage.Proofs.Run.Siblings
import Breakage.Proofs.Run.Stages
import Breakage.Proofs.Run.Stock
import Breakage.Proofs.Run.Timings
import Breakage.Proofs.Serialized
import Breakage.Proofs.SharedStore.Accounts
import Breakage.Proofs.SharedStore.Sharing
import Breakage.Proofs.SharedUse
import Breakage.Proofs.Sparing
import Breakage.Proofs.Text.Lines
import Breakage.Proofs.Tool.Commands
import Breakage.Rehearsal.Collaborators
import Breakage.Rehearsal.Programs
import Breakage.Rehearsal.Scene
import Breakage.Revision
import Breakage.Run.Baseline
import Breakage.Run.Collaborators
import Breakage.Run.Compare
import Breakage.Run.Engine
import Breakage.Run.Options
import Breakage.Run.Session
import Breakage.SharedStore
import Breakage.Text.Blank
import Breakage.Text.Hidden
import Breakage.Text.Letter
import Breakage.Text.Number
import Breakage.Text.Quoted
import Breakage.Text.Ranges
import Breakage.Text.Utf8
import Breakage.Tool.DigestCommand
import Breakage.Tool.Git
import Breakage.Tool.PackageBuilder
import Breakage.Tool.Toolchain
