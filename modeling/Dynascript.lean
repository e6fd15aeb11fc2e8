import Dynascript.Config.Json
import Dynascript.Config.Settings
import Dynascript.Config.Token
import Dynascript.Decimal.Binary64
import Dynascript.Decimal.Shortest
import Dynascript.Diagnostic.Log
import Dynascript.Diagnostic.Message
import Dynascript.Emit.Emission
import Dynascript.Native.Code
import Dynascript.Native.Instr
import Dynascript.Program
import Dynascript.Proofs.Diagnostic.Sorting
import Dynascript.Proofs.Diagnostic.Verbatim
import Dynascript.Proofs.Emit.Handles
import Dynascript.Proofs.Emit.Purity
import Dynascript.Proofs.Emit.Thinning
import Dynascript.Proofs.Emit.Yields
import Dynascript.Proofs.Native.Actions
import Dynascript.Proofs.Native.Balance
import Dynascript.Proofs.Native.Discipline
import Dynascript.Proofs.Native.Filling
import Dynascript.Proofs.Native.Height
import Dynascript.Proofs.Native.Initializers
import Dynascript.Proofs.Native.Locals
import Dynascript.Proofs.Native.References
import Dynascript.Proofs.Native.Refusals
import Dynascript.Proofs.Native.Scoping
import Dynascript.Proofs.Native.StackSafety
import Dynascript.Proofs.Program.Merging
import Dynascript.Proofs.Program.Order
import Dynascript.Proofs.Program.Outputs
import Dynascript.Proofs.Program.Recheck
import Dynascript.Proofs.Program.Typeof
import Dynascript.Proofs.Resolve.Cascading
import Dynascript.Proofs.Resolve.Containment
import Dynascript.Proofs.Resolve.CoupledParts
import Dynascript.Proofs.Resolve.Coupling
import Dynascript.Proofs.Resolve.Filing
import Dynascript.Proofs.Resolve.Independence
import Dynascript.Proofs.Resolve.Initializers
import Dynascript.Proofs.Resolve.Markers
import Dynascript.Proofs.Resolve.Parts
import Dynascript.Proofs.Resolve.Queries
import Dynascript.Proofs.Resolve.Ranges
import Dynascript.Proofs.Resolve.Scopes
import Dynascript.Proofs.Resolve.Settling
import Dynascript.Proofs.Resolve.Siblings
import Dynascript.Proofs.Resolve.Simulation
import Dynascript.Proofs.Resolve.Soundness
import Dynascript.Proofs.Resolve.Steps
import Dynascript.Proofs.Resolve.TypeReading
import Dynascript.Proofs.Resolve.Typing
import Dynascript.Proofs.Resolve.Units
import Dynascript.Proofs.Script.Decoding
import Dynascript.Proofs.Script.Depth
import Dynascript.Proofs.Script.Grouping
import Dynascript.Proofs.Script.Marks
import Dynascript.Proofs.Script.Reading
import Dynascript.Proofs.Script.Renaming
import Dynascript.Proofs.Script.Writing
import Dynascript.Proofs.Syntax.Below
import Dynascript.Proofs.Syntax.Walking
import Dynascript.Proofs.Text.Replacement
import Dynascript.Proofs.Text.Substitution
import Dynascript.Proofs.Typed.Nodes
import Dynascript.Proofs.Typed.Renaming
import Dynascript.Proofs.Typed.Statements
import Dynascript.Proofs.Types.Ancestry
import Dynascript.Proofs.Types.Answers
import Dynascript.Proofs.Types.Built
import Dynascript.Proofs.Types.Catalog
import Dynascript.Proofs.Types.Growth
import Dynascript.Proofs.Types.Lineage
import Dynascript.Proofs.Types.Renaming
import Dynascript.Proofs.Types.Runs
import Dynascript.Proofs.Types.Substitution
import Dynascript.Proofs.Types.Valid
import Dynascript.Resolve.Access
import Dynascript.Resolve.Basic
import Dynascript.Resolve.Creation
import Dynascript.Resolve.Expr
import Dynascript.Resolve.Scope
import Dynascript.Resolve.Site
import Dynascript.Resolve.Stmt
import Dynascript.Resolve.Written
import Dynascript.Script.Buffer
import Dynascript.Script.Text
import Dynascript.Script.Writer
import Dynascript.Source.Location
import Dynascript.Source.Names
import Dynascript.Syntax.Expr
import Dynascript.Syntax.Literal
import Dynascript.Syntax.Node
import Dynascript.Syntax.Stmt
import Dynascript.Syntax.TypeName
import Dynascript.Text.Escaped
import Dynascript.Text.Hidden
import Dynascript.Text.Quoted
import Dynascript.Text.Template
import Dynascript.Typed.Expr
import Dynascript.Typed.Stmt
import Dynascript.Types.Bootstrap
import Dynascript.Types.Catalog
import Dynascript.Types.Flags
import Dynascript.Types.Registry
import Dynascript.Types.Search
import Dynascript.Types.Table
