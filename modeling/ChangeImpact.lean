import ChangeImpact.Calendar
import ChangeImpact.Config.Arrival
import ChangeImpact.Config.Basic
import ChangeImpact.Config.Decode
import ChangeImpact.Config.File
import ChangeImpact.Contract.Check
import ChangeImpact.Contract.Family
import ChangeImpact.Contract.Mismatch
import ChangeImpact.Contract.Route
import ChangeImpact.Contract.TypeName
import ChangeImpact.Distinct
import ChangeImpact.Edge
import ChangeImpact.Engine
import ChangeImpact.Entity
import ChangeImpact.Extract.ConfigKeys
import ChangeImpact.Extract.Manifest
import ChangeImpact.Extract.Registry
import ChangeImpact.Fault
import ChangeImpact.Graph.Cycles
import ChangeImpact.Graph.Snapshot
import ChangeImpact.Impact.Analysis
import ChangeImpact.Impact.Changes
import ChangeImpact.Impact.Traversal
import ChangeImpact.Json.Document
import ChangeImpact.Json.Reader
import ChangeImpact.Json.Writer
import ChangeImpact.Kind
import ChangeImpact.Number.Binary64
import ChangeImpact.Number.Decimal
import ChangeImpact.Number.Numeral
import ChangeImpact.Plan.Basic
import ChangeImpact.Plan.Order
import ChangeImpact.Plan.Strategy
import ChangeImpact.Proofs.Accounting
import ChangeImpact.Proofs.Alternatives
import ChangeImpact.Proofs.Analysis
import ChangeImpact.Proofs.Atomicity
import ChangeImpact.Proofs.Blame
import ChangeImpact.Proofs.Capacity
import ChangeImpact.Proofs.Chains
import ChangeImpact.Proofs.Closure
import ChangeImpact.Proofs.Coherence
import ChangeImpact.Proofs.Conformance
import ChangeImpact.Proofs.Contracts
import ChangeImpact.Proofs.Converse
import ChangeImpact.Proofs.Cutoff
import ChangeImpact.Proofs.Cycles
import ChangeImpact.Proofs.Distinct
import ChangeImpact.Proofs.Documents
import ChangeImpact.Proofs.Escalation
import ChangeImpact.Proofs.Extraction
import ChangeImpact.Proofs.Families
import ChangeImpact.Proofs.Fates
import ChangeImpact.Proofs.Faulting
import ChangeImpact.Proofs.Footprint
import ChangeImpact.Proofs.Gaps
import ChangeImpact.Proofs.History
import ChangeImpact.Proofs.Identifiers
import ChangeImpact.Proofs.KeyPaths
import ChangeImpact.Proofs.Legibility
import ChangeImpact.Proofs.Marks
import ChangeImpact.Proofs.Matching
import ChangeImpact.Proofs.Merging
import ChangeImpact.Proofs.Omission
import ChangeImpact.Proofs.Order
import ChangeImpact.Proofs.Outstanding
import ChangeImpact.Proofs.Overlay
import ChangeImpact.Proofs.Pairing
import ChangeImpact.Proofs.Planning
import ChangeImpact.Proofs.Proposal
import ChangeImpact.Proofs.Reach
import ChangeImpact.Proofs.Readers
import ChangeImpact.Proofs.Rebuilding
import ChangeImpact.Proofs.Records
import ChangeImpact.Proofs.References
import ChangeImpact.Proofs.Refusal
import ChangeImpact.Proofs.Reloading
import ChangeImpact.Proofs.Reopening
import ChangeImpact.Proofs.Reordering
import ChangeImpact.Proofs.Repetition
import ChangeImpact.Proofs.Reports
import ChangeImpact.Proofs.Rereading
import ChangeImpact.Proofs.Restating
import ChangeImpact.Proofs.Retraction
import ChangeImpact.Proofs.Reversal
import ChangeImpact.Proofs.RoundTrips
import ChangeImpact.Proofs.Scanning
import ChangeImpact.Proofs.Schemas
import ChangeImpact.Proofs.Segments
import ChangeImpact.Proofs.Sequence
import ChangeImpact.Proofs.Settling
import ChangeImpact.Proofs.Shapes
import ChangeImpact.Proofs.Sides
import ChangeImpact.Proofs.Skipping
import ChangeImpact.Proofs.Snapshot
import ChangeImpact.Proofs.Staleness
import ChangeImpact.Proofs.Storage
import ChangeImpact.Proofs.Strictness
import ChangeImpact.Proofs.Table
import ChangeImpact.Proofs.Templates
import ChangeImpact.Proofs.Traversal
import ChangeImpact.Proofs.Validation
import ChangeImpact.Proofs.Versions
import ChangeImpact.Proofs.Views
import ChangeImpact.Report.Basic
import ChangeImpact.Report.Schema
import ChangeImpact.Scan.Report
import ChangeImpact.Scan.Run
import ChangeImpact.Scan.Token
import ChangeImpact.ScanResult
import ChangeImpact.Service.Basic
import ChangeImpact.Service.Host
import ChangeImpact.Service.Plain
import ChangeImpact.Service.Reading
import ChangeImpact.Service.Request
import ChangeImpact.Service.Settings
import ChangeImpact.Service.Target
import ChangeImpact.Store.Basic
import ChangeImpact.Store.Batch
import ChangeImpact.Store.Database
import ChangeImpact.Table
import ChangeImpact.Text.Base64
import ChangeImpact.Text.Blank
import ChangeImpact.Text.Casing
import ChangeImpact.Text.Casing.Table
import ChangeImpact.Text.Digit
import ChangeImpact.Text.Glob
import ChangeImpact.Text.Point
import ChangeImpact.Text.Printable
import ChangeImpact.Text.Quoted
import ChangeImpact.Text.Split
import ChangeImpact.Text.Utf8
import ChangeImpact.Value.Basic
import ChangeImpact.Value.Convert
import ChangeImpact.Value.Display
import ChangeImpact.Yaml.Content
import ChangeImpact.Yaml.Cursor
import ChangeImpact.Yaml.Node
import ChangeImpact.Yaml.Node.Reading
import ChangeImpact.Yaml.NodeTable
import ChangeImpact.Yaml.Printing
import ChangeImpact.Yaml.Problem
import ChangeImpact.Yaml.Scalar
import ChangeImpact.Yaml.Tag
import ChangeImpact.Yaml.Token
import ChangeImpact.Yaml.Token.Block
import ChangeImpact.Yaml.Token.Label
import ChangeImpact.Yaml.Token.Plain
import ChangeImpact.Yaml.Token.Quoted
import ChangeImpact.Yaml.Token.Stream
