import Dynascript.Script.Text

/-!
# The script writer

A writer takes expressions and statements one after the other and keeps what it has
written of each, even of one that it had to give up half-way.

`Writer.stmt` takes over the text of a statement as a whole. `Writer.put` writes it
piece by piece and has the depth for a counter, which a block raises for its body.
-/

namespace Dynascript.Script

/-- A buffer and the number of blocks around the next statement. -/
structure Writer where
  buffer : Buffer := .empty
  depth : Nat := 0

namespace Writer

/-- Take over what was written, and say what stopped it. -/
def take (w : Writer) (e : Emission Write) : Option Stop × Writer :=
  (e.stop, { w with buffer := w.buffer.writeAll e.written })

def expr (w : Writer) (r : Registry) (e : TypedExpr) : Option Stop × Writer :=
  w.take (text r e)

def stmt (w : Writer) (r : Registry) (s : TypedStmt) : Option Stop × Writer :=
  w.take (stmtText r w.depth s)

/-! ## Piece by piece -/

/-- Write pieces of text that all come from `loc`. -/
def write (w : Writer) (loc : Location) (texts : List String) : Writer :=
  { w with buffer := w.buffer.writeAll (texts.map (⟨·, loc⟩)) }

/-- Write the tabs before a statement. -/
def indent (w : Writer) (loc : Location) : Writer :=
  w.write loc (List.replicate (w.depth + 1) "\t")

def enter (w : Writer) : Writer := { w with depth := w.depth + 1 }

def leave (w : Writer) : Writer := { w with depth := w.depth - 1 }

/-- Go on with what was left behind, unless something stopped. -/
def andThen (done : Option Stop × Writer) (next : Writer → Option Stop × Writer) :
    Option Stop × Writer :=
  match done with
  | (none, w) => next w
  | (some stop, w) => (some stop, w)

/-- Write an expression and the end of its line. -/
def line (w : Writer) (r : Registry) (loc : Location) (e : TypedExpr) : Option Stop × Writer :=
  andThen (w.expr r e) fun w => (none, w.write loc [";\n"])

mutual

/-- Write a statement. -/
def put (w : Writer) (r : Registry) (s : TypedStmt) : Option Stop × Writer :=
  match s with
  | .declare loc name _ none => (none, (w.indent loc).write loc ["var ", name, ";\n"])
  | .declare loc name _ (some value) =>
    ((w.indent loc).write loc ["var ", name, " = "]).line r loc value
  | .expr loc e => (w.indent loc).line r loc e
  | .nonAssign loc e => if e.isPure then (none, w) else (w.indent loc).line r loc e
  | .block loc body =>
    -- The depth goes down again before it matters whether the body was stopped.
    let (stop, inside) := putAll ((w.indent loc).write loc ["\x7b\n"]).enter r body
    andThen (stop, inside.leave) fun w => (none, (w.indent loc).write loc ["\x7d\n"])
  | .localFunction .. | .useNamespace .. => (none, w)
termination_by structural s

/-- Write statements one after the other, up to the first that is stopped. -/
def putAll (w : Writer) (r : Registry) (body : List TypedStmt) : Option Stop × Writer :=
  match body with
  | [] => (none, w)
  | s :: rest => andThen (w.put r s) fun w => putAll w r rest
termination_by structural body

end

end Writer

end Dynascript.Script
