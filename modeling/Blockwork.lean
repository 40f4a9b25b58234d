import Blockwork.Block.Compile
import Blockwork.Block.Fragment
import Blockwork.Block.Kind
import Blockwork.Block.Placement
import Blockwork.Block.Tree
import Blockwork.Case.Header
import Blockwork.Case.Verdict
import Blockwork.Console.Arguments
import Blockwork.Console.Command
import Blockwork.Console.Config
import Blockwork.Console.Excerpt
import Blockwork.Console.Files
import Blockwork.Console.Suite
import Blockwork.Decimal.Dyadic
import Blockwork.Decimal.Reading
import Blockwork.Decimal.Shortest
import Blockwork.Json.Quote
import Blockwork.Json.Reading
import Blockwork.Json.Value
import Blockwork.Main
import Blockwork.Proofs.Block.Code
import Blockwork.Proofs.Block.Counts
import Blockwork.Proofs.Block.Editing
import Blockwork.Proofs.Block.Face
import Blockwork.Proofs.Block.Finding
import Blockwork.Proofs.Block.Identifiers
import Blockwork.Proofs.Block.Parsing
import Blockwork.Proofs.Block.Place
import Blockwork.Proofs.Block.Rephrasing
import Blockwork.Proofs.Block.Sorted
import Blockwork.Proofs.Block.Tokens
import Blockwork.Proofs.Block.Tree
import Blockwork.Proofs.Block.Writing
import Blockwork.Proofs.Case.Splitting
import Blockwork.Proofs.Computation
import Blockwork.Proofs.Float.Grid
import Blockwork.Proofs.Float.Parts
import Blockwork.Proofs.Float.Rounding
import Blockwork.Proofs.Float.Whole
import Blockwork.Proofs.Json.Container
import Blockwork.Proofs.Json.Layout
import Blockwork.Proofs.Json.Token
import Blockwork.Proofs.Run.Acting
import Blockwork.Proofs.Run.Counter
import Blockwork.Proofs.Run.Depth
import Blockwork.Proofs.Run.ForWhile
import Blockwork.Proofs.Run.Functions
import Blockwork.Proofs.Run.Lockstep
import Blockwork.Proofs.Run.Reporting
import Blockwork.Proofs.Run.Requests
import Blockwork.Proofs.Run.Scopes
import Blockwork.Proofs.Run.Simulation
import Blockwork.Proofs.Run.Sinking
import Blockwork.Proofs.Run.Steps
import Blockwork.Proofs.Run.Stopping
import Blockwork.Proofs.Run.Traces
import Blockwork.Proofs.Run.Trips
import Blockwork.Proofs.Run.Walk
import Blockwork.Proofs.Script.Climbing
import Blockwork.Proofs.Script.Counting
import Blockwork.Proofs.Script.Cutting
import Blockwork.Proofs.Script.Enclosing
import Blockwork.Proofs.Script.Grammar
import Blockwork.Proofs.Script.Inserting
import Blockwork.Proofs.Script.Literals
import Blockwork.Proofs.Script.Nesting
import Blockwork.Proofs.Script.Nodes
import Blockwork.Proofs.Script.Placing
import Blockwork.Proofs.Script.Progress
import Blockwork.Proofs.Script.Quoting
import Blockwork.Proofs.Script.Reading
import Blockwork.Proofs.Script.Recovery
import Blockwork.Proofs.Script.Scanning
import Blockwork.Proofs.Script.Slices
import Blockwork.Proofs.Script.Tracking
import Blockwork.Proofs.Script.Trees
import Blockwork.Proofs.Script.Updates
import Blockwork.Proofs.Script.Words
import Blockwork.Proofs.Snapshot.Encoding
import Blockwork.Proofs.Snapshot.Numbering
import Blockwork.Proofs.Snapshot.Ordering
import Blockwork.Proofs.Snapshot.Rebuilding
import Blockwork.Proofs.Snapshot.Reloading
import Blockwork.Proofs.Snapshot.Restoring
import Blockwork.Proofs.Text.Base64
import Blockwork.Proofs.Text.Bytes
import Blockwork.Proofs.Text.Lines
import Blockwork.Proofs.Text.Trimming
import Blockwork.Proofs.Toml.Returns
import Blockwork.Proofs.Workspace.Desk
import Blockwork.Proofs.Workspace.Display
import Blockwork.Proofs.Workspace.Editing
import Blockwork.Proofs.Workspace.Finding
import Blockwork.Proofs.Workspace.Guarding
import Blockwork.Proofs.Workspace.Identity
import Blockwork.Proofs.Workspace.InPlace
import Blockwork.Proofs.Workspace.Locality
import Blockwork.Proofs.Workspace.Mutation
import Blockwork.Proofs.Workspace.Ordered
import Blockwork.Proofs.Workspace.Outlining
import Blockwork.Proofs.Workspace.Program
import Blockwork.Proofs.Workspace.Removing
import Blockwork.Proofs.Workspace.Running
import Blockwork.Proofs.Workspace.Session
import Blockwork.Proofs.Workspace.Terminals
import Blockwork.Proofs.Workspace.Undoing
import Blockwork.Run.Asset
import Blockwork.Run.Environment
import Blockwork.Run.Evaluate
import Blockwork.Run.Execute
import Blockwork.Run.Host
import Blockwork.Run.Machine
import Blockwork.Run.Random
import Blockwork.Run.Terminal
import Blockwork.Run.Value
import Blockwork.Script.Expression
import Blockwork.Script.Fault
import Blockwork.Script.Scan
import Blockwork.Script.Span
import Blockwork.Script.Statement
import Blockwork.Script.Stream
import Blockwork.Script.Syntax
import Blockwork.Script.Token
import Blockwork.Snapshot.Basic
import Blockwork.Snapshot.Reading
import Blockwork.Snapshot.Restore
import Blockwork.Text.Alphanumeric
import Blockwork.Text.Base64
import Blockwork.Text.Blank
import Blockwork.Text.Columns
import Blockwork.Text.Lines
import Blockwork.Text.Ranges
import Blockwork.Text.Search
import Blockwork.Text.Shown
import Blockwork.Toml.Reading
import Blockwork.Toml.Value
import Blockwork.Workspace.Basic
import Blockwork.Workspace.Grid
import Blockwork.Workspace.Outline
import Blockwork.Workspace.Report
