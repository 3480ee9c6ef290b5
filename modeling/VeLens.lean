import VeLens.Buffer.Block
import VeLens.Buffer.Lines
import VeLens.Catalog.ModuleName
import VeLens.Catalog.Modules
import VeLens.CommandLine.Grammar
import VeLens.CommandLine.Invocation
import VeLens.CommandLine.Run
import VeLens.CommandLine.Word
import VeLens.Completion.Candidate
import VeLens.Completion.Context
import VeLens.Config
import VeLens.Declaration.Head
import VeLens.Declaration.Token
import VeLens.Declaration.Variable
import VeLens.Event
import VeLens.Fault
import VeLens.FileTree.Lookup
import VeLens.FileTree.Node
import VeLens.FileTree.Path
import VeLens.FileTree.Resolve
import VeLens.FileTree.Snapshot
import VeLens.Main
import VeLens.Outline.Symbol
import VeLens.Outline.TopLevel
import VeLens.Output.Encoding
import VeLens.Output.EventLine
import VeLens.Output.Json
import VeLens.Pattern.Bracket
import VeLens.Pattern.Expression
import VeLens.Pattern.Glob
import VeLens.Pattern.IgnoreRule
import VeLens.Pattern.Marked
import VeLens.Query
import VeLens.Report
import VeLens.Scope
import VeLens.Signature
import VeLens.Text.Alphanumeric
import VeLens.Text.Blank
import VeLens.Text.Cut
import VeLens.Text.Integer
import VeLens.Text.File
import VeLens.Text.Quoted
import VeLens.Text.Utf8
import VeLens.Toml.Value
import VeLens.Toml.Document
import VeLens.Toml.Scalar
import VeLens.Workspace.Ignore
import VeLens.Workspace.Scan
import VeLens.Proofs.Buffer.Lines
import VeLens.Proofs.Text.Blanks
import VeLens.Proofs.Buffer.Blocks
import VeLens.Proofs.Buffer.Braces
import VeLens.Proofs.Outline.Reading
import VeLens.Proofs.Declaration.Heads
import VeLens.Proofs.Outline.Symbols
import VeLens.Proofs.Outline.WellFormed
import VeLens.Proofs.Outline.Partition
import VeLens.Proofs.Outline.Composition
import VeLens.Proofs.Outline.Printing
import VeLens.Proofs.Outline.Excerpts
import VeLens.Proofs.Outline.Edits
import VeLens.Proofs.Scope.Enclosing
import VeLens.Proofs.Declaration.Inversion
import VeLens.Proofs.Scope.Locals
import VeLens.Proofs.Completion.Modes
import VeLens.Proofs.Declaration.Imports
import VeLens.Proofs.Buffer.Replacement
import VeLens.Proofs.Completion.ImportPath
import VeLens.Proofs.FileTree.Trees
import VeLens.Proofs.Workspace.Search
import VeLens.Proofs.FileTree.Snapshots
import VeLens.Proofs.Workspace.Order
import VeLens.Proofs.Workspace.Within
import VeLens.Proofs.Workspace.Visible
import VeLens.Proofs.FileTree.Paths
import VeLens.Proofs.Catalog.Names
import VeLens.Proofs.FileTree.Walks
import VeLens.Proofs.FileTree.Resolving
import VeLens.Proofs.Catalog.OpenFile
import VeLens.Proofs.Text.Portions
import VeLens.Proofs.FileTree.Faults
import VeLens.Proofs.Workspace.IgnoreFiles
import VeLens.Proofs.Catalog.Faults
import VeLens.Proofs.FileTree.Confined
import VeLens.Proofs.Catalog.Library
import VeLens.Proofs.Workspace.Nested
import VeLens.Proofs.Buffer.Access
import VeLens.Proofs.LineEnds
import VeLens.Proofs.Scope.Bounds
import VeLens.Proofs.Catalog.StandardModules
import VeLens.Proofs.Catalog.Descriptions
import VeLens.Proofs.Declaration.Variables
import VeLens.Proofs.Scope.Parameters
import VeLens.Proofs.Buffer.Matching
import VeLens.Proofs.Buffer.Nesting
import VeLens.Proofs.Scope.Cursor
import VeLens.Proofs.Scope.Slots
import VeLens.Proofs.Completion.Words
import VeLens.Proofs.Completion.Ordering
import VeLens.Proofs.Completion.Snippets
