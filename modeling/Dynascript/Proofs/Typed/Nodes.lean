import Dynascript.Typed.Stmt

/-!
# Nodes of resolved trees

`TypedExpr.children` are the trees directly below a node, in the order in which they are
written, and `Everywhere p` says that every node of a tree satisfies `p`. A fact about all
trees of a kind goes by induction on `Everywhere` : one case, with the fact for the
children at hand. `TypedExpr.nodes` lists the nodes, to count over them.
-/

namespace Dynascript.TypedExpr

/-- The trees directly below a node. -/
def children : TypedExpr → List TypedExpr
  | constant .. | localVar .. | typeRef .. | staticField .. | scriptUndefined .. => []
  | instanceField _ target _ _ | dynamicMember _ target _ => [target]
  | element _ target args => target :: args
  | staticCall _ _ _ args => args
  | instanceCall _ receiver _ _ args | dynamicCall _ receiver _ args => receiver :: args
  | dynamicInvoke _ callee args | dynamicNew _ callee args => callee :: args
  | cast _ operand => [operand]
  | new _ args => args
  | newWith _ args initializers => args ++ initializers.map Initializer.value
  | newArray _ _ dimensions => dimensions
  | arrayOf _ _ dimensions values => dimensions ++ values
  | assign _ target value => [target, value]
  | scriptDelete _ operand | scriptNew _ operand | scriptTypeof _ operand => [operand]
  | scriptIn _ key container => [key, container]
  | objectLiteral _ properties => properties.map Property.value
  | arrayLiteral _ elements => elements

/-- Every node of the tree satisfies `p`. -/
inductive Everywhere (p : TypedExpr → Prop) : TypedExpr → Prop
  | node {e : TypedExpr} (here : p e) (below : ∀ c ∈ e.children, Everywhere p c) :
      Everywhere p e

variable {p q : TypedExpr → Prop} {e : TypedExpr}

theorem Everywhere.here (h : e.Everywhere p) : p e := by
  cases h with
  | node here below => exact here

theorem Everywhere.child (h : e.Everywhere p) {c : TypedExpr} (hc : c ∈ e.children) :
    c.Everywhere p := by
  cases h with
  | node here below => exact below c hc

theorem Everywhere.mono (h : e.Everywhere p) (himp : ∀ e, p e → q e) : e.Everywhere q := by
  induction h with
  | node here below ih => exact .node (himp _ here) ih

theorem Everywhere.and (hp : e.Everywhere p) (hq : e.Everywhere q) :
    e.Everywhere fun n => p n ∧ q n := by
  induction hp with
  | node here below ih => exact .node ⟨here, hq.here⟩ fun c hc => ih c hc (hq.child hc)

/-! ## The list of nodes -/

theorem sizeOf_value_lt {x : Initializer} {xs : List Initializer} (h : x ∈ xs) :
    sizeOf x.value < sizeOf xs := by
  have hx := List.sizeOf_lt_of_mem h
  cases x <;> simp only [Initializer.value, Initializer.element.sizeOf_spec,
    Initializer.named.sizeOf_spec] at hx ⊢ <;> omega

theorem sizeOf_property_lt {x : Property} {xs : List Property} (h : x ∈ xs) :
    sizeOf x.value < sizeOf xs := by
  have hx := List.sizeOf_lt_of_mem h
  cases x
  simp only [Property.value, Property.mk.sizeOf_spec] at hx ⊢
  omega

theorem sizeOf_lt_of_mem_children {e c : TypedExpr} (h : c ∈ e.children) : sizeOf c < sizeOf e := by
  cases e with
  | constant | localVar | typeRef | staticField | scriptUndefined => cases h
  | instanceField | dynamicMember | cast | scriptDelete | scriptNew | scriptTypeof =>
    obtain rfl := List.mem_singleton.1 h
    simp only [instanceField.sizeOf_spec, dynamicMember.sizeOf_spec, cast.sizeOf_spec,
      scriptDelete.sizeOf_spec, scriptNew.sizeOf_spec, scriptTypeof.sizeOf_spec]
    omega
  | element | instanceCall | dynamicCall | dynamicInvoke | dynamicNew =>
    rcases List.mem_cons.1 h with rfl | hc
    · simp
      omega
    · have := List.sizeOf_lt_of_mem hc
      simp
      omega
  | staticCall | new | newArray | arrayLiteral =>
    simp only [children] at h
    have := List.sizeOf_lt_of_mem h
    simp
    omega
  | newWith info args initializers =>
    rcases List.mem_append.1 h with hc | hc
    · have := List.sizeOf_lt_of_mem hc
      simp
      omega
    · obtain ⟨x, hx, rfl⟩ := List.mem_map.1 hc
      have := sizeOf_value_lt hx
      simp
      omega
  | arrayOf =>
    rcases List.mem_append.1 h with hc | hc <;>
    · have := List.sizeOf_lt_of_mem hc
      simp
      omega
  | assign | scriptIn =>
    simp only [children, List.mem_cons, List.not_mem_nil, or_false] at h
    simp only [assign.sizeOf_spec, scriptIn.sizeOf_spec]
    rcases h with rfl | rfl <;> omega
  | objectLiteral info properties =>
    obtain ⟨x, hx, rfl⟩ := List.mem_map.1 h
    have := sizeOf_property_lt hx
    simp
    omega

/-- All nodes of a tree, the top one first. -/
def nodes (e : TypedExpr) : List TypedExpr :=
  e :: e.children.attach.flatMap fun c => nodes c.1
termination_by sizeOf e
decreasing_by exact sizeOf_lt_of_mem_children c.2

theorem nodes_eq (e : TypedExpr) : e.nodes = e :: e.children.flatMap nodes := by
  rw [nodes]
  simp

end Dynascript.TypedExpr
