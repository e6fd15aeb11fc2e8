import Dynascript.Decimal.Shortest
import Dynascript.Emit.Emission
import Dynascript.Script.Buffer
import Dynascript.Text.Quoted
import Dynascript.Typed.Stmt
import Dynascript.Types.Registry

/-!
# Script text

Resolved trees as text for the scripting runtime. Casts, filled instances and native
arrays have no form there. A type is written by its name, which the registry is asked for
before anything of the node is written.

Statements are indented by one tab more than the blocks around them.
-/

namespace Dynascript.Script

/-- The name of this target in errors. -/
def backend : String := "script"

/-- Pieces of text that all come from `loc`. -/
def pieces (loc : Location) (texts : List String) : Emission Write :=
  .write (texts.map (⟨·, loc⟩))

/-- A construct that this target does not have. -/
def unsupported (e : TypedExpr) : Emission Write :=
  .reject (.unsupportedConstruct e.kindName backend e.loc)

/-- A number : the shortest text that reads back, or a name. -/
def numberText (x : Binary64) : String :=
  if x.isNaN then "NaN"
  else if x.isInfinite then (if x.negative then "-Infinity" else "Infinity")
  else Decimal.shortest x

def constantText : Constant → String
  | .string s => Quoted.encode s
  | .int n => toString n.toInt
  | .number x => numberText x
  | .bool b => if b then "true" else "false"
  | .null => "null"
  | .regex r => r.value
  | .xml x => x.text

mutual

/-- The text of an expression. -/
def text (r : Registry) (e : TypedExpr) : Emission Write :=
  match e with
  | .constant i value => pieces i.loc [constantText value]
  | .localVar i name => pieces i.loc [name]
  | .typeRef i => .asking (r.nameOf i.type) fun type => pieces i.loc [type]
  | .staticField i owner name =>
    .asking (r.nameOf owner) fun owner => pieces i.loc [owner, ".", name]
  | .instanceField i target _ name => text r target ++ pieces i.loc [".", name]
  | .dynamicMember i target name => text r target ++ pieces i.loc [".", name]
  | .element i target args =>
    text r target ++ pieces i.loc ["["] ++ list r i.loc args ++ pieces i.loc ["]"]
  | .staticCall i owner method args =>
    .asking (r.nameOf owner) fun owner =>
      pieces i.loc [owner, ".", method, "("] ++ list r i.loc args ++ pieces i.loc [")"]
  | .instanceCall i receiver _ method args =>
    text r receiver ++ pieces i.loc [".", method, "("] ++ list r i.loc args ++
      pieces i.loc [")"]
  | .dynamicCall i receiver method args =>
    text r receiver ++ pieces i.loc [".", method, "("] ++ list r i.loc args ++
      pieces i.loc [")"]
  | .dynamicInvoke i callee args =>
    text r callee ++ pieces i.loc ["("] ++ list r i.loc args ++ pieces i.loc [")"]
  | .new i args =>
    .asking (r.nameOf i.type) fun type =>
      pieces i.loc ["new ", type, "("] ++ list r i.loc args ++ pieces i.loc [")"]
  | .dynamicNew i callee args =>
    pieces i.loc ["new "] ++ text r callee ++ pieces i.loc ["("] ++ list r i.loc args ++
      pieces i.loc [")"]
  | .assign i target value => text r target ++ pieces i.loc [" = "] ++ text r value
  | .scriptDelete i operand => pieces i.loc ["delete "] ++ text r operand
  | .scriptNew i operand => pieces i.loc ["new "] ++ text r operand
  | .scriptTypeof i operand => pieces i.loc ["typeof "] ++ text r operand
  | .scriptIn i key container => text r key ++ pieces i.loc [" in "] ++ text r container
  | .scriptUndefined i => pieces i.loc ["undefined"]
  | .objectLiteral i properties =>
    pieces i.loc ["\x7b"] ++ propertyList r i.loc properties ++ pieces i.loc ["\x7d"]
  | .arrayLiteral i elements =>
    pieces i.loc ["["] ++ list r i.loc elements ++ pieces i.loc ["]"]
  | .cast .. | .newWith .. | .newArray .. | .arrayOf .. => unsupported e
termination_by structural e

/-- Expressions with commas between them. -/
def list (r : Registry) (loc : Location) (es : List TypedExpr) : Emission Write :=
  match es with
  | [] => .nothing
  | e :: es => text r e ++ listRest r loc es
termination_by structural es

/-- The rest of such a list. -/
def listRest (r : Registry) (loc : Location) (es : List TypedExpr) : Emission Write :=
  match es with
  | [] => .nothing
  | e :: es => pieces loc [", "] ++ text r e ++ listRest r loc es
termination_by structural es

/-- `name:value` pairs with commas between them. -/
def propertyList (r : Registry) (loc : Location) (ps : List Property) : Emission Write :=
  match ps with
  | [] => .nothing
  | .mk name value :: ps =>
    pieces loc [Quoted.encode name, ":"] ++ text r value ++ propertyRest r loc ps
termination_by structural ps

/-- The rest of such pairs. -/
def propertyRest (r : Registry) (loc : Location) (ps : List Property) : Emission Write :=
  match ps with
  | [] => .nothing
  | .mk name value :: ps =>
    pieces loc [", ", Quoted.encode name, ":"] ++ text r value ++ propertyRest r loc ps
termination_by structural ps

end

/-- The tabs before a statement inside `depth` blocks. -/
def indent (loc : Location) (depth : Nat) : Emission Write :=
  pieces loc (List.replicate (depth + 1) "\t")

mutual

/-- The text of a statement inside `depth` blocks. -/
def stmtText (r : Registry) (depth : Nat) (s : TypedStmt) : Emission Write :=
  match s with
  | .declare loc name _ none => indent loc depth ++ pieces loc ["var ", name, ";\n"]
  | .declare loc name _ (some value) =>
    indent loc depth ++ pieces loc ["var ", name, " = "] ++ text r value ++
      pieces loc [";\n"]
  | .expr loc e => indent loc depth ++ text r e ++ pieces loc [";\n"]
  | .nonAssign loc e =>
    if e.isPure then .nothing else indent loc depth ++ text r e ++ pieces loc [";\n"]
  | .block loc body =>
    indent loc depth ++ pieces loc ["\x7b\n"] ++ unitText r (depth + 1) body ++
      indent loc depth ++ pieces loc ["\x7d\n"]
  | .localFunction .. | .useNamespace .. => .nothing
termination_by structural s

/-- The text of statements one after the other. -/
def unitText (r : Registry) (depth : Nat) (body : List TypedStmt) : Emission Write :=
  match body with
  | [] => .nothing
  | s :: rest => stmtText r depth s ++ unitText r depth rest
termination_by structural body

end

end Dynascript.Script
