import TaskGen.Dict
import TaskGen.Text.Blank
import TaskGen.Text.Line
import TaskGen.Text.Utf8
import TaskGen.Decimal.Layout
import TaskGen.Json.Decode
import TaskGen.Json.Printer
import TaskGen.Json.Reader
import TaskGen.Digest.Sha224
import TaskGen.RequirementClass
import TaskGen.Text.CaseFold
import TaskGen.Text.Numeric
import TaskGen.Text.WordChar
import TaskGen.Pattern.Reader
import TaskGen.Catalog
import TaskGen.Catalog.Worklist
import TaskGen.Path
import TaskGen.Limits
import TaskGen.Fragment
import TaskGen.Fragment.Listing
import TaskGen.Instant
import TaskGen.Solution
import TaskGen.Task
import TaskGen.Workspace
import TaskGen.Escalation
import TaskGen.Governor
import TaskGen.Metrics
import TaskGen.Text.Scan
import TaskGen.Toml.Table
import TaskGen.Toml.Quoted
import TaskGen.Toml.Scalar
import TaskGen.Toml.Reader
import TaskGen.Config
import TaskGen.Config.Load
import TaskGen.Invocation
import TaskGen.StageError
import TaskGen.Registry
import TaskGen.FileTree
import TaskGen.Fragment.Load
import TaskGen.Act
import TaskGen.Pipeline
import TaskGen.Pipeline.Command
import TaskGen.EnvModels
import TaskGen.Session
import TaskGen.Session.Spool
import TaskGen.Worker
import TaskGen.Run.Report
import TaskGen.Run.State
import TaskGen.Run.Control
import TaskGen.Run.Admission
import TaskGen.Run.Schedule
import TaskGen.Setup
import TaskGen.Rehearsal.Script
import TaskGen.Rehearsal.Stages
import TaskGen.Rehearsal.Scheduler
import TaskGen.Rehearsal.Tools
import TaskGen.Rehearsal.Shell
import TaskGen.CommandLine
import TaskGen.Main
import TaskGen.Proofs.Pairs
import TaskGen.Proofs.Dict
import TaskGen.Proofs.Classification
import TaskGen.Proofs.Sameness
import TaskGen.Proofs.Grouping
import TaskGen.Proofs.Fingerprint
import TaskGen.Proofs.Workspace
import TaskGen.Proofs.FileTree
import TaskGen.Proofs.EnvModels
import TaskGen.Proofs.Escalation
import TaskGen.Proofs.Governor
import TaskGen.Proofs.Governor.Calls
import TaskGen.Proofs.Run.System
import TaskGen.Proofs.Run.Dealing
import TaskGen.Proofs.Run.Keys
import TaskGen.Proofs.Run.Turnover
import TaskGen.Proofs.Run.Custody
import TaskGen.Proofs.Run.Places
import TaskGen.Proofs.Run.Accounting
import TaskGen.Proofs.Run.Records
import TaskGen.Proofs.Run.Attempts
import TaskGen.Proofs.Run.Effects
import TaskGen.Proofs.Run.Releases
import TaskGen.Proofs.Run.Tally
import TaskGen.Proofs.Run.Independence
import TaskGen.Proofs.Run.Loop
import TaskGen.Proofs.Run.Reckoning
import TaskGen.Proofs.Run.Totals
import TaskGen.Proofs.Run.Progress
import TaskGen.Proofs.Directories
import TaskGen.Proofs.Catalog.Loading
import TaskGen.Proofs.Catalog.Selection
import TaskGen.Proofs.Catalog.Matching
import TaskGen.Proofs.Catalog.Inheritance
import TaskGen.Proofs.Catalog.Worklist
import TaskGen.Catalog.Stack
import TaskGen.Proofs.Catalog.Traversal
import TaskGen.Proofs.Catalog.Flattening
import TaskGen.Proofs.Catalog.Identifiers
import TaskGen.Proofs.FileTree.Contents
import TaskGen.Proofs.Pipeline
import TaskGen.Proofs.Coincidences.Names
import TaskGen.Proofs.Coincidences.Models
import TaskGen.Proofs.Coincidences
import TaskGen.Proofs.Pattern.Ending
import TaskGen.Proofs.Pattern.Classes
import TaskGen.Proofs.Pattern.Spans
import TaskGen.Proofs.Pattern.Choices
import TaskGen.Proofs.Pattern.Anchoring
import TaskGen.Proofs.Catalog.Patterns
import TaskGen.Proofs.Options
import TaskGen.Proofs.Governor.Grants
import TaskGen.Proofs.FileTree.Changes
import TaskGen.Proofs.Pipeline.Supervision
import TaskGen.Proofs.Pipeline.Composition
import TaskGen.Proofs.Preparation
import TaskGen.Proofs.Double
import TaskGen.Proofs.Double.Products
import TaskGen.Proofs.Config
import TaskGen.Proofs.Escalation.Scaling
import TaskGen.Proofs.Escalation.Clocks
import TaskGen.Proofs.Artifacts
import TaskGen.Proofs.Arguments
import TaskGen.Proofs.Text
import TaskGen.Proofs.Fragment.Listing
import TaskGen.Proofs.Actions
import TaskGen.Proofs.Coverage
import TaskGen.Proofs.Run.Lookups
import TaskGen.Proofs.Session.Spool
import TaskGen.Proofs.Submissions
import TaskGen.Proofs.Run.Submissions
import TaskGen.Proofs.Json.Records
import TaskGen.Proofs.Fragment.Encoding
import TaskGen.Proofs.Json.Texts
import TaskGen.Proofs.Fingerprint.Collisions
