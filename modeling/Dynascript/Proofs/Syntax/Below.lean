import Dynascript.Syntax.Node

/-!
# Nodes below a node

`Node.Below c n` says that `c` stands somewhere below `n`. Nodes below are smaller, so a
fact about all nodes may be proved from the same fact about every node below
(`Node.below_induction`). `Node.HasQuery` says that a tree contains an XML query.
-/

namespace Dynascript.Node

/-- `c` stands somewhere below `n`. -/
inductive Below : Node → Node → Prop
  | child {c n : Node} (h : c ∈ n.children) : Below c n
  | deeper {c m n : Node} (h : c ∈ m.children) (hm : Below m n) : Below c n

theorem Below.sizeOf_lt {c n : Node} (h : Below c n) : sizeOf c < sizeOf n := by
  induction h with
  | child h => exact sizeOf_lt_of_mem_children h
  | deeper h _ ih => exact Nat.lt_trans (sizeOf_lt_of_mem_children h) ih

theorem below_induction {motive : Node → Prop}
    (step : ∀ n, (∀ c, Below c n → motive c) → motive n) (n : Node) : motive n :=
  step n fun c _ => below_induction step c
termination_by sizeOf n
decreasing_by exact Below.sizeOf_lt ‹_›

/-- The node is an XML query or contains one. -/
inductive HasQuery : Node → Prop
  | here {loc : Location} {source query : Expr} : HasQuery (expr (.xmlQuery loc source query))
  | child {c n : Node} (h : c ∈ n.children) (hc : HasQuery c) : HasQuery n

theorem HasQuery.of_below {c n : Node} (hb : Below c n) (hc : c.HasQuery) : n.HasQuery := by
  induction hb with
  | child h => exact .child h hc
  | deeper h _ ih => exact ih (.child h hc)

end Dynascript.Node
