import CsdlAudit.Ascending
import CsdlAudit.AuditError
import CsdlAudit.CommandLine.Arguments
import CsdlAudit.CommandLine.Run
import CsdlAudit.Config.Basic
import CsdlAudit.Config.Decode
import CsdlAudit.Config.Error
import CsdlAudit.Config.Load
import CsdlAudit.Config.Save
import CsdlAudit.Config.Setting
import CsdlAudit.Conflict.Basic
import CsdlAudit.Conflict.Detect
import CsdlAudit.Conflict.Report
import CsdlAudit.Directory.Discover
import CsdlAudit.Directory.Glob
import CsdlAudit.Directory.Pool
import CsdlAudit.Directory.Result
import CsdlAudit.Directory.Run
import CsdlAudit.Directory.Tree
import CsdlAudit.Directory.Verdicts
import CsdlAudit.Document.Attributes
import CsdlAudit.Document.Blocks
import CsdlAudit.Document.Check
import CsdlAudit.Document.OpenElement
import CsdlAudit.Double
import CsdlAudit.Fingerprint
import CsdlAudit.Graph.Basic
import CsdlAudit.Graph.Build
import CsdlAudit.Graph.Cycles
import CsdlAudit.Graph.Declared
import CsdlAudit.Graph.Drawing
import CsdlAudit.Graph.Impact
import CsdlAudit.Graph.Order
import CsdlAudit.Graph.Reach
import CsdlAudit.Graph.Similarity
import CsdlAudit.Graph.Statistics
import CsdlAudit.Index
import CsdlAudit.Json
import CsdlAudit.LineDiff.Edit
import CsdlAudit.LineDiff.Snake
import CsdlAudit.Markup.Attribute
import CsdlAudit.Markup.Cut
import CsdlAudit.Markup.Event
import CsdlAudit.Markup.Reference
import CsdlAudit.Natural
import CsdlAudit.Registry.Basic
import CsdlAudit.Registry.Block
import CsdlAudit.Registry.Key
import CsdlAudit.Schema.Basic
import CsdlAudit.Schema.Builder
import CsdlAudit.Schema.Definition
import CsdlAudit.Schema.Written
import CsdlAudit.Text.Letter
import CsdlAudit.Text.Lowercase
import CsdlAudit.Text.Pieces
import CsdlAudit.Text.Quoted
import CsdlAudit.Text.Replaced
import CsdlAudit.Toml.Document
import CsdlAudit.Toml.Moment
import CsdlAudit.Toml.Scalar
import CsdlAudit.Toml.Table
import CsdlAudit.Toml.Text
import CsdlAudit.Toml.Token
import CsdlAudit.TypeReference
import CsdlAudit.Verdict
import CsdlAudit.Main
import CsdlAudit.Proofs.Graph.Assembly
import CsdlAudit.Proofs.Graph.Closure
import CsdlAudit.Proofs.Graph.Components
import CsdlAudit.Proofs.Graph.Scan
import CsdlAudit.Proofs.Graph.ScanCover
import CsdlAudit.Proofs.Graph.Order
import CsdlAudit.Proofs.Graph.ScanSteps
import CsdlAudit.Proofs.Graph.Cycles
import CsdlAudit.Proofs.Graph.Path
import CsdlAudit.Proofs.Graph.LeastPath
import CsdlAudit.Proofs.Machine
import CsdlAudit.Proofs.Graph.PathSteps
import CsdlAudit.Proofs.Graph.Worklist
import CsdlAudit.Proofs.Graph.Impact
import CsdlAudit.Proofs.Double
import CsdlAudit.Proofs.Graph.Declared
import CsdlAudit.Proofs.Graph.Nodes
import CsdlAudit.Proofs.Graph.Build
import CsdlAudit.Proofs.Graph.Accounts
import CsdlAudit.Proofs.Graph.Chain
import CsdlAudit.Proofs.Registry.Ingest
import CsdlAudit.Proofs.Conflict.Definitions
import CsdlAudit.Proofs.Graph.Coverage
import CsdlAudit.Proofs.Conflict.Order
import CsdlAudit.Proofs.Conflict.Passes
import CsdlAudit.Proofs.Conflict.Growth
import CsdlAudit.Proofs.Conflict.Sharing
import CsdlAudit.Proofs.Conflict.Sources
import CsdlAudit.Proofs.Conflict.Values
import CsdlAudit.Proofs.Conflict.Aliases
import CsdlAudit.Proofs.Directory.Outcome
import CsdlAudit.Proofs.Document.Needed
import CsdlAudit.Proofs.Document.Outline
import CsdlAudit.Proofs.Document.Agreement
import CsdlAudit.Proofs.Json
import CsdlAudit.Proofs.Text.Pieces
import CsdlAudit.Proofs.TypeReference
import CsdlAudit.Proofs.Registry.Target
import CsdlAudit.Proofs.Graph.OwnNames
import CsdlAudit.Proofs.Directory.Pool
import CsdlAudit.Proofs.Directory.Provenance
import CsdlAudit.Proofs.Directory.Exclusion
import CsdlAudit.Proofs.Directory.Verdicts
import CsdlAudit.Proofs.Document.Checked
import CsdlAudit.Proofs.Document.Offer
import CsdlAudit.Proofs.Document.Streaming
import CsdlAudit.Proofs.Document.Tree
import CsdlAudit.Proofs.Graph.FileOrder
import CsdlAudit.Proofs.Graph.Suggestion
import CsdlAudit.Proofs.Index
import CsdlAudit.Proofs.Ascending
import CsdlAudit.Proofs.Registry.Contents
import CsdlAudit.Proofs.Schema.Canonical
import CsdlAudit.Proofs.Schema.Written
import CsdlAudit.Proofs.Graph.Members
import CsdlAudit.Proofs.Graph.Ownership
import CsdlAudit.Proofs.Graph.Sources
import CsdlAudit.Proofs.Graph.Stored
import CsdlAudit.Proofs.Graph.Content
import CsdlAudit.Proofs.Graph.Depth
import CsdlAudit.Proofs.Graph.Condensation
import CsdlAudit.Proofs.Graph.Statistics
import CsdlAudit.Proofs.Graph.Nested
import CsdlAudit.Proofs.Registry.Elements
import CsdlAudit.Proofs.Markup.Nesting
import CsdlAudit.Proofs.Markup.Written
import CsdlAudit.Proofs.Markup.Stretch
import CsdlAudit.Proofs.Document.Acceptance
import CsdlAudit.Proofs.Document.Front
import CsdlAudit.Proofs.Document.ValueForms
import CsdlAudit.Proofs.Text.Blank
import CsdlAudit.Proofs.TypeGrammar
import CsdlAudit.Proofs.Directory.Discovery
import CsdlAudit.Proofs.Graph.Resolution
import CsdlAudit.Proofs.Graph.DotReader
import CsdlAudit.Proofs.Graph.Drawing
import CsdlAudit.Proofs.Graph.BestMatch
import CsdlAudit.Proofs.Registry.Signature
import CsdlAudit.Proofs.Config.Saved
