import ResourceGraph.Generation
import ResourceGraph.Load
import ResourceGraph.Main
import ResourceGraph.Plugin.ProcessHost
import ResourceGraph.Workspace.Effective
import ResourceGraph.Proofs.Dict
import ResourceGraph.Proofs.Generation.Action
import ResourceGraph.Proofs.Generation.Lifecycle
import ResourceGraph.Proofs.Outcome
import ResourceGraph.Proofs.Generation.Passes
import ResourceGraph.Proofs.Generation.Places
import ResourceGraph.Proofs.Resource.Untouched
import ResourceGraph.Proofs.Generation.Answers
import ResourceGraph.Proofs.Generation.Plan
import ResourceGraph.Proofs.Generation.Provenance
import ResourceGraph.Proofs.Generation.Workload
import ResourceGraph.Proofs.Generation.Isolation
import ResourceGraph.Proofs.Generation.Untouched
import ResourceGraph.Proofs.Number.Rounding
import ResourceGraph.Proofs.Number.Decimal
import ResourceGraph.Proofs.Yaml.Plain
import ResourceGraph.Proofs.Yaml.Cursor
import ResourceGraph.Proofs.Yaml.Escape
import ResourceGraph.Proofs.Yaml.Quoted
import ResourceGraph.Proofs.Yaml.Folding
import ResourceGraph.Proofs.Yaml.Lexer
import ResourceGraph.Proofs.Json.Texts
import ResourceGraph.Proofs.Json.Reading
import ResourceGraph.Proofs.Yaml.JsonText
import ResourceGraph.Proofs.Yaml.JsonScan
import ResourceGraph.Proofs.Yaml.JsonNode
import ResourceGraph.Proofs.Yaml.JsonTree
import ResourceGraph.Proofs.Json.Canonical
import ResourceGraph.Proofs.Document
import ResourceGraph.Proofs.Resource.Reading
import ResourceGraph.Proofs.Document.Portable
import ResourceGraph.Proofs.Json.Numeral
import ResourceGraph.Proofs.Document.Decoded
import ResourceGraph.Proofs.Patcher.Reading
import ResourceGraph.Proofs.Plugin.Frame
import ResourceGraph.Proofs.Plugin.Pool
import ResourceGraph.Proofs.Plugin.Link
import ResourceGraph.Proofs.Plugin.PoolLinks
import ResourceGraph.Proofs.Plugin.Wire
import ResourceGraph.Proofs.Plugin.Deadline
import ResourceGraph.Proofs.Generation.Consistent
import ResourceGraph.Proofs.Generation.Stack
import ResourceGraph.Proofs.Generation.Imports
import ResourceGraph.Proofs.Generation.Order
import ResourceGraph.Proofs.Generation.Settled
import ResourceGraph.Proofs.Json.Place
import ResourceGraph.Proofs.Json.Location
import ResourceGraph.Proofs.Json.Growth
import ResourceGraph.Proofs.Json.Walk
import ResourceGraph.Proofs.Json.Addition
import ResourceGraph.Proofs.Number.Value
import ResourceGraph.Proofs.Patcher.Creation
import ResourceGraph.Proofs.Patcher.Normal
import ResourceGraph.Proofs.Patcher.Nested
import ResourceGraph.Proofs.Patcher.Tables
import ResourceGraph.Proofs.Patcher.Structure
import ResourceGraph.Proofs.Patcher.Containers
import ResourceGraph.Proofs.Patcher.Shape
import ResourceGraph.Proofs.Patcher.Numbers
import ResourceGraph.Proofs.Patcher.Environment
import ResourceGraph.Proofs.Patcher.Acceptance
import ResourceGraph.Proofs.Patcher.Frame
import ResourceGraph.Proofs.Patcher.Repetition
import ResourceGraph.Proofs.Patcher.Relaxation
import ResourceGraph.Proofs.Patcher.Independence
import ResourceGraph.Proofs.Patcher.Removal
import ResourceGraph.Proofs.KindOrder.Injection
import ResourceGraph.Proofs.KindOrder.Cycles
import ResourceGraph.Proofs.Plugin.Stream
import ResourceGraph.Proofs.Document.Stable
import ResourceGraph.Proofs.Workspace.Blocks
import ResourceGraph.Proofs.Workspace.WellFormed
import ResourceGraph.Proofs.Workspace.Effective
import ResourceGraph.Proofs.Document.ReadBack
import ResourceGraph.Proofs.KindOrder.Batches
import ResourceGraph.Proofs.ModuleResults.Contributions
import ResourceGraph.Proofs.Generation.Briefings
import ResourceGraph.Proofs.Generation.ImportTables
import ResourceGraph.Proofs.Resource.Secret
import ResourceGraph.Proofs.ModuleResults.Policies
import ResourceGraph.Proofs.ModuleKey
import ResourceGraph.Proofs.Text.Segments
import ResourceGraph.Proofs.Text.Path
import ResourceGraph.Proofs.Dependency.Spelling
import ResourceGraph.Proofs.Settings
import ResourceGraph.Proofs.Plugin.Serve
