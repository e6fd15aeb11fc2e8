import Dynascript.Syntax.Stmt

/-!
# Walking over a tree

`Node.children` gives the direct children of a node in the order in which they are
written. `Node.walk` shows every node to a visitor before its children. The visitor
answers each node with a `Request` : it can leave out the subtree of the node, or stop
the walk. Requests are kept in a `Flow`, which outlives a walk : a skip holds until the
next descent, a halt for good.
-/

namespace Dynascript

/-- Anything a visitor sees. -/
inductive Node where
  | expr (e : Expr)
  | stmt (s : Stmt)
  | field (f : Field)

namespace Node

/-- The children of an expression. -/
def ofExpr : Expr → List Node
  | .literal .. | .name .. | .typeRef .. | .undefined .. | .regex .. | .xml .. => []
  | .member _ target _ => [expr target]
  | .element _ target args => expr target :: args.map expr
  | .call _ callee args => expr callee :: args.map expr
  | .assign _ target value => [expr target, expr value]
  | .object _ fields => fields.map field
  | .array _ elements _ => elements.map expr
  | .delete _ operand | .new _ operand | .typeof _ operand => [expr operand]
  | .isIn _ key container => [expr key, expr container]
  | .xmlQuery _ source query => [expr source, expr query]

/-- The children of a statement. Of a local function these are the statements of its
body. -/
def ofStmt : Stmt → List Node
  | .declare _ declaration => declaration.value.toList.map expr
  | .expr _ e | .nonAssign _ e => [expr e]
  | .block _ body => body.map stmt
  | .localFunction _ _ _ _ body _ => body.map stmt
  | .useNamespace .. => []

/-- The direct children, in written order. -/
def children : Node → List Node
  | expr e => ofExpr e
  | stmt s => ofStmt s
  | field f => [expr f.value]

end Node

namespace Node

theorem sizeOf_lt_of_mem_ofExpr {e : Expr} {c : Node} (h : c ∈ ofExpr e) :
    sizeOf c < 1 + sizeOf e := by
  cases e <;> simp only [ofExpr, List.mem_cons, List.mem_map, List.not_mem_nil, or_false] at h
  case member => subst h; simp; omega
  case element =>
    rcases h with rfl | ⟨a, ha, rfl⟩
    · simp; omega
    · have := List.sizeOf_lt_of_mem ha
      simp; omega
  case call =>
    rcases h with rfl | ⟨a, ha, rfl⟩
    · simp; omega
    · have := List.sizeOf_lt_of_mem ha
      simp; omega
  case assign =>
    simp only [Expr.assign.sizeOf_spec]
    rcases h with rfl | rfl
    · rw [expr.sizeOf_spec]
      omega
    · rw [expr.sizeOf_spec]
      omega
  case object =>
    obtain ⟨f, hf, rfl⟩ := h
    have := List.sizeOf_lt_of_mem hf
    simp; omega
  case array =>
    obtain ⟨a, ha, rfl⟩ := h
    have := List.sizeOf_lt_of_mem ha
    simp; omega
  case delete =>
    subst h
    simp only [expr.sizeOf_spec, Expr.delete.sizeOf_spec]
    omega
  case new =>
    subst h
    simp only [expr.sizeOf_spec, Expr.new.sizeOf_spec]
    omega
  case typeof =>
    subst h
    simp only [expr.sizeOf_spec, Expr.typeof.sizeOf_spec]
    omega
  case isIn =>
    simp only [Expr.isIn.sizeOf_spec]
    rcases h with rfl | rfl
    · rw [expr.sizeOf_spec]
      omega
    · rw [expr.sizeOf_spec]
      omega
  case xmlQuery =>
    simp only [Expr.xmlQuery.sizeOf_spec]
    rcases h with rfl | rfl
    · rw [expr.sizeOf_spec]
      omega
    · rw [expr.sizeOf_spec]
      omega

theorem sizeOf_lt_of_mem_ofStmt {s : Stmt} {c : Node} (h : c ∈ ofStmt s) :
    sizeOf c < 1 + sizeOf s := by
  cases s <;> simp only [ofStmt, List.mem_cons, List.mem_map, List.not_mem_nil, or_false,
    Option.mem_toList] at h
  case declare loc d =>
    obtain ⟨e, he, rfl⟩ := h
    cases d
    simp only at he
    subst he
    simp; omega
  case expr =>
    subst h
    simp only [expr.sizeOf_spec, Stmt.expr.sizeOf_spec]
    omega
  case nonAssign =>
    subst h
    simp only [expr.sizeOf_spec, Stmt.nonAssign.sizeOf_spec]
    omega
  case block =>
    obtain ⟨a, ha, rfl⟩ := h
    have := List.sizeOf_lt_of_mem ha
    simp; omega
  case localFunction =>
    obtain ⟨a, ha, rfl⟩ := h
    have := List.sizeOf_lt_of_mem ha
    simp; omega

/-- Every child is smaller than its parent. -/
theorem sizeOf_lt_of_mem_children {n c : Node} (h : c ∈ n.children) : sizeOf c < sizeOf n := by
  cases n with
  | expr e => simpa using sizeOf_lt_of_mem_ofExpr h
  | stmt s => simpa using sizeOf_lt_of_mem_ofStmt h
  | field f =>
    obtain ⟨name, loc, value⟩ := f
    simp only [children, Field.value, List.mem_singleton] at h
    subst h
    simp only [expr.sizeOf_spec, field.sizeOf_spec, Field.mk.sizeOf_spec]
    omega

end Node

/-- What a visitor asks for at a node. -/
structure Request where
  skip : Bool := false
  halt : Bool := false

/-- The requests that are in force. -/
structure Flow where
  /-- The next descent is left out. -/
  skip : Bool := false
  halted : Bool := false

namespace Flow

/-- Put a request in force. -/
def ask (flow : Flow) (r : Request) : Flow :=
  ⟨flow.skip || r.skip, flow.halted || r.halt⟩

end Flow

/-- Something that looks at the nodes of a tree, with a state of its own. -/
structure Visitor (σ : Type) where
  visit : Node → σ → Request × σ
  /-- Whether the walk goes down at all. -/
  descends : Bool := true

/-- Show `node` to the visitor, then, unless it is left out or the walk has stopped, its
children. A walk that has already stopped still shows the node it starts at. -/
def Node.walk {σ : Type} (v : Visitor σ) (node : Node) (state : σ) (flow : Flow) : σ × Flow :=
  let (request, state) := v.visit node state
  let flow := flow.ask request
  if !v.descends then (state, flow)
  else if flow.skip then (state, { flow with skip := false })
  else
    node.children.attach.foldl
      (fun (state, flow) child =>
        if flow.halted then (state, flow) else Node.walk v child.1 state flow)
      (state, flow)
termination_by sizeOf node
decreasing_by exact Node.sizeOf_lt_of_mem_children child.2

end Dynascript
