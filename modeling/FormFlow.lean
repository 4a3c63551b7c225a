import FormFlow.Checked.Basic
import FormFlow.Checked.Records
import FormFlow.Checked.Scalars
import FormFlow.Clock
import FormFlow.Collaborator
import FormFlow.CommandLine.Arguments
import FormFlow.CommandLine.Options
import FormFlow.CommandLine.Panel
import FormFlow.CommandLine.Path
import FormFlow.CommandLine.Run
import FormFlow.CommandLine.Variables
import FormFlow.Compatibility
import FormFlow.Condition.Basic
import FormFlow.Condition.Logic
import FormFlow.Condition.Operators
import FormFlow.Config.Basic
import FormFlow.Config.Compiled
import FormFlow.Config.Data
import FormFlow.Decimal.Binary
import FormFlow.Decimal.Notation
import FormFlow.Decimal.Shortest
import FormFlow.Document.Basic
import FormFlow.Document.File
import FormFlow.Document.Workflow
import FormFlow.Editor.Basic
import FormFlow.Editor.Commit
import FormFlow.Editor.Compile
import FormFlow.Editor.Session
import FormFlow.Event
import FormFlow.Fields
import FormFlow.Graph.Connection
import FormFlow.Graph.Counting
import FormFlow.Graph.Cycle
import FormFlow.Graph.Digraph
import FormFlow.Graph.Fault
import FormFlow.Graph.Levels
import FormFlow.Graph.Node
import FormFlow.Graph.Orders
import FormFlow.Graph.Placement
import FormFlow.Graph.Reach
import FormFlow.Graph.Store
import FormFlow.Graph.Structure
import FormFlow.Graph.Tokens
import FormFlow.Inspection.Basic
import FormFlow.Inspection.Check
import FormFlow.Inspection.Problem
import FormFlow.Json.Reader
import FormFlow.Json.Writer
import FormFlow.Kind
import FormFlow.Log
import FormFlow.Main
import FormFlow.Record
import FormFlow.Schema.Desk
import FormFlow.Schema.Source
import FormFlow.Service.Address
import FormFlow.Service.Client
import FormFlow.Service.Exchange
import FormFlow.Settings.Basic
import FormFlow.Settings.Literal
import FormFlow.Settings.Sources
import FormFlow.Text.Blank
import FormFlow.Text.Case
import FormFlow.Text.CaseTable
import FormFlow.Text.Digits
import FormFlow.Text.Pieces
import FormFlow.Text.Printable
import FormFlow.Text.Quoted
import FormFlow.Text.Template
import FormFlow.Value.Basic
import FormFlow.Value.Dump
import FormFlow.Value.Spoken
import FormFlow.Yaml.Core
import FormFlow.Yaml.Node
import FormFlow.Yaml.Shape
import FormFlow.Yaml.Token
import FormFlow.Yaml.Writer
import FormFlow.Proofs.Digraph
import FormFlow.Proofs.Reach
import FormFlow.Proofs.Cycle
import FormFlow.Proofs.Levels
import FormFlow.Proofs.Orders
import FormFlow.Proofs.Store
import FormFlow.Proofs.Operations
import FormFlow.Proofs.Structure
import FormFlow.Proofs.Placement
import FormFlow.Proofs.Recompute
import FormFlow.Proofs.Index
import FormFlow.Proofs.Branches
import FormFlow.Proofs.Connection
import FormFlow.Proofs.Commit
import FormFlow.Proofs.Commands
import FormFlow.Proofs.Run
import FormFlow.Proofs.Grounded
import FormFlow.Proofs.Whole
import FormFlow.Proofs.Stranding
import FormFlow.Proofs.WholeRuns
import FormFlow.Proofs.Tokens
import FormFlow.Proofs.Acceptance
import FormFlow.Proofs.Severing
import FormFlow.Proofs.LoopReferences
import FormFlow.Proofs.RoundTrip
import FormFlow.Proofs.Dumps
import FormFlow.Proofs.Snapshot
import FormFlow.Proofs.Recompile
import FormFlow.Proofs.Reopen
import FormFlow.Proofs.Expressions
import FormFlow.Proofs.Records
import FormFlow.Proofs.Reconciling
import FormFlow.Proofs.Compiled
import FormFlow.Proofs.Precedence
import FormFlow.Proofs.CompiledGroups
import FormFlow.Proofs.Announcements
import FormFlow.Proofs.Debounce
import FormFlow.Proofs.Collisions
import FormFlow.Proofs.Verdicts
import FormFlow.Proofs.Histories
import FormFlow.Proofs.Requests
import FormFlow.Proofs.Repetition
import FormFlow.Proofs.Interruptions
import FormFlow.Proofs.Copies
import FormFlow.Proofs.StoredDocuments
import FormFlow.Proofs.Placeholders
import FormFlow.Proofs.HiddenTokens
import FormFlow.Proofs.Readers
import FormFlow.Proofs.VeiledSettings
import FormFlow.Proofs.Views
import FormFlow.Proofs.Confinement
import FormFlow.Proofs.ConfinedRuns
import FormFlow.Proofs.Seats
import FormFlow.Proofs.Depths
import FormFlow.Proofs.Listings
import FormFlow.Proofs.Reconfigurations
import FormFlow.Proofs.Additions
import FormFlow.Proofs.Numbering
import FormFlow.Proofs.Labels
import FormFlow.Proofs.Removals
import FormFlow.Proofs.Undoing
import FormFlow.Proofs.Columns
import FormFlow.Proofs.Overlays
import FormFlow.Proofs.Untouched
import FormFlow.Proofs.Findings
import FormFlow.Proofs.OfferedOperators
import FormFlow.Proofs.Writes
import FormFlow.Proofs.Formatters
import FormFlow.Proofs.CompiledMembers
import FormFlow.Proofs.FreshNames
import FormFlow.Proofs.Filling
import FormFlow.Proofs.Acknowledgements
