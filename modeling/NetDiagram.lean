import NetDiagram.Command.Options
import NetDiagram.Command.Run
import NetDiagram.Decimal.Double
import NetDiagram.Decimal.Layout
import NetDiagram.Decimal.Shortest
import NetDiagram.Diagnostic
import NetDiagram.Diagram.Argument
import NetDiagram.Diagram.Declaration
import NetDiagram.Diagram.Document
import NetDiagram.Diagram.Entity
import NetDiagram.Diagram.NodeId
import NetDiagram.Diagram.Reading
import NetDiagram.Failure
import NetDiagram.Files.Basic
import NetDiagram.Files.Tree
import NetDiagram.Flow.Compilation
import NetDiagram.Flow.Draft
import NetDiagram.Flow.Fault
import NetDiagram.Flow.Ledger
import NetDiagram.Flow.Links
import NetDiagram.Flow.Remaining
import NetDiagram.Flow.Scope
import NetDiagram.Flow.Statement
import NetDiagram.Main
import NetDiagram.Module.Generated
import NetDiagram.Module.Settings
import NetDiagram.Module.SettingsFile
import NetDiagram.Module.Source
import NetDiagram.Module.Title
import NetDiagram.Proofs.Accounting
import NetDiagram.Proofs.BoundedRendering
import NetDiagram.Proofs.BoundedWalk
import NetDiagram.Proofs.Chains
import NetDiagram.Proofs.Closure
import NetDiagram.Proofs.Connections
import NetDiagram.Proofs.Cycles
import NetDiagram.Proofs.Declarations
import NetDiagram.Proofs.Delivery
import NetDiagram.Proofs.Docstrings
import NetDiagram.Proofs.Document
import NetDiagram.Proofs.Emission
import NetDiagram.Proofs.Evaluation
import NetDiagram.Proofs.Exports
import NetDiagram.Proofs.Expression
import NetDiagram.Proofs.Failures
import NetDiagram.Proofs.FileNames
import NetDiagram.Proofs.FileTree
import NetDiagram.Proofs.Findings
import NetDiagram.Proofs.Footprint
import NetDiagram.Proofs.ForwardReferences
import NetDiagram.Proofs.Header
import NetDiagram.Proofs.IdLists
import NetDiagram.Proofs.Insertion
import NetDiagram.Proofs.Ledger
import NetDiagram.Proofs.Letters
import NetDiagram.Proofs.LineBreaks
import NetDiagram.Proofs.Literals
import NetDiagram.Proofs.Log
import NetDiagram.Proofs.ModelArguments
import NetDiagram.Proofs.ModuleLines
import NetDiagram.Proofs.OrderFree
import NetDiagram.Proofs.Places
import NetDiagram.Proofs.Progress
import NetDiagram.Proofs.Rendering
import NetDiagram.Proofs.Reordering
import NetDiagram.Proofs.Required
import NetDiagram.Proofs.Resolution
import NetDiagram.Proofs.Roles
import NetDiagram.Proofs.RunEffect
import NetDiagram.Proofs.Soundness
import NetDiagram.Proofs.Spelling
import NetDiagram.Proofs.StatementLines
import NetDiagram.Proofs.TextOrder
import NetDiagram.Proofs.Titles
import NetDiagram.Proofs.Transparency
import NetDiagram.Proofs.Uses
import NetDiagram.Proofs.Walk
import NetDiagram.Proofs.WellFormed
import NetDiagram.Proofs.Wrapping
import NetDiagram.Record.Decode
import NetDiagram.Record.Misfit
import NetDiagram.Span
import NetDiagram.Text.Alphanumeric
import NetDiagram.Text.Blank
import NetDiagram.Text.CaseMap
import NetDiagram.Text.Printable
import NetDiagram.Text.Quoted
import NetDiagram.Text.Wrap
import NetDiagram.Toml.Date
import NetDiagram.Toml.Node
import NetDiagram.Toml.Parse
import NetDiagram.Toml.Quoted
import NetDiagram.Toml.Scalar
import NetDiagram.Toml.Token
