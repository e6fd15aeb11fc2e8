import Dynascript.Proofs.Typed.Nodes
import Dynascript.Proofs.Types.Valid

/-!
# Renaming types in resolved trees

A resolved tree names types by their handles : the type of each node, the owner of a member, the
element of an array (`TypedExpr.own`). `TypedExpr.rename f` puts `f t` for every handle `t`, and
`TypedStmt.renameAll` does so in statements. Renamings that agree on the types of a registry
rename alike all trees that name no others (`TypedExpr.Within`, `rename_congr`).
-/

namespace Dynascript

/-! ## Trees -/

section

variable (f : TypeId → TypeId)

def Info.rename (i : Info) : Info := { i with type := f i.type }

mutual

def TypedExpr.rename : TypedExpr → TypedExpr
  | .constant i value => .constant (i.rename f) value
  | .localVar i name => .localVar (i.rename f) name
  | .typeRef i => .typeRef (i.rename f)
  | .staticField i owner name => .staticField (i.rename f) (f owner) name
  | .instanceField i target owner name =>
    .instanceField (i.rename f) target.rename (f owner) name
  | .dynamicMember i target name => .dynamicMember (i.rename f) target.rename name
  | .element i target args => .element (i.rename f) target.rename (renameTrees args)
  | .staticCall i owner method args =>
    .staticCall (i.rename f) (f owner) method (renameTrees args)
  | .instanceCall i receiver owner method args =>
    .instanceCall (i.rename f) receiver.rename (f owner) method (renameTrees args)
  | .dynamicCall i receiver method args =>
    .dynamicCall (i.rename f) receiver.rename method (renameTrees args)
  | .dynamicInvoke i callee args =>
    .dynamicInvoke (i.rename f) callee.rename (renameTrees args)
  | .cast i operand => .cast (i.rename f) operand.rename
  | .new i args => .new (i.rename f) (renameTrees args)
  | .dynamicNew i callee args => .dynamicNew (i.rename f) callee.rename (renameTrees args)
  | .newWith i args initializers =>
    .newWith (i.rename f) (renameTrees args) (renameInitializers initializers)
  | .newArray i element dimensions =>
    .newArray (i.rename f) (f element) (renameTrees dimensions)
  | .arrayOf i element dimensions values =>
    .arrayOf (i.rename f) (f element) (renameTrees dimensions) (renameTrees values)
  | .assign i target value => .assign (i.rename f) target.rename value.rename
  | .scriptDelete i operand => .scriptDelete (i.rename f) operand.rename
  | .scriptNew i operand => .scriptNew (i.rename f) operand.rename
  | .scriptTypeof i operand => .scriptTypeof (i.rename f) operand.rename
  | .scriptIn i key container => .scriptIn (i.rename f) key.rename container.rename
  | .scriptUndefined i => .scriptUndefined (i.rename f)
  | .objectLiteral i properties => .objectLiteral (i.rename f) (renameProperties properties)
  | .arrayLiteral i elements => .arrayLiteral (i.rename f) (renameTrees elements)

def renameTrees : List TypedExpr → List TypedExpr
  | [] => []
  | e :: es => e.rename :: renameTrees es

def renameInitializers : List Initializer → List Initializer
  | [] => []
  | .element value :: rest => .element value.rename :: renameInitializers rest
  | .named name value :: rest => .named name value.rename :: renameInitializers rest

def renameProperties : List Property → List Property
  | [] => []
  | .mk name value :: rest => .mk name value.rename :: renameProperties rest

end

def Initializer.rename : Initializer → Initializer
  | .element value => .element (value.rename f)
  | .named name value => .named name (value.rename f)

def Property.rename (p : Property) : Property := .mk p.name (p.value.rename f)

@[simp] theorem renameTrees_eq (es : List TypedExpr) :
    renameTrees f es = es.map (TypedExpr.rename f) := by
  induction es with
  | nil => rfl
  | cons e es ih => rw [renameTrees, ih, List.map_cons]

@[simp] theorem renameInitializers_eq (xs : List Initializer) :
    renameInitializers f xs = xs.map (Initializer.rename f) := by
  induction xs with
  | nil => rfl
  | cons x xs ih => cases x <;> rw [renameInitializers, ih] <;> rfl

@[simp] theorem renameProperties_eq (ps : List Property) :
    renameProperties f ps = ps.map (Property.rename f) := by
  induction ps with
  | nil => rfl
  | cons p ps ih =>
    cases p
    rw [renameProperties, ih]
    rfl

end

namespace TypedExpr

variable {f g : TypeId → TypeId} {r r' : Registry} {e : TypedExpr}

@[simp] theorem info_rename (f : TypeId → TypeId) (e : TypedExpr) :
    (e.rename f).info = e.info.rename f := by
  cases e <;> rfl

@[simp] theorem type_rename (f : TypeId → TypeId) (e : TypedExpr) :
    (e.rename f).type = f e.type := by
  rw [type, info_rename]
  rfl

@[simp] theorem role_rename (f : TypeId → TypeId) (e : TypedExpr) :
    (e.rename f).role = e.role := by
  rw [role, info_rename]
  rfl

@[simp] theorem loc_rename (f : TypeId → TypeId) (e : TypedExpr) : (e.rename f).loc = e.loc := by
  rw [loc, info_rename]
  rfl

/-- The types that a node names besides its own : the owner of a member, the element of an
array. -/
def named : TypedExpr → List TypeId
  | staticField _ owner _ | instanceField _ _ owner _ | staticCall _ owner _ _
  | instanceCall _ _ owner _ _ => [owner]
  | newArray _ item _ | arrayOf _ item _ _ => [item]
  | _ => []

/-- The handles that a node itself holds. -/
def own (e : TypedExpr) : List TypeId := e.type :: e.named

/-- The registry has a type behind every handle of the tree. -/
def Within (r : Registry) (e : TypedExpr) : Prop :=
  e.Everywhere fun n => ∀ t ∈ n.own, r.Has t

theorem Within.node (htype : r.Has e.type) (hnamed : ∀ t ∈ e.named, r.Has t)
    (below : ∀ c ∈ e.children, c.Within r) : e.Within r :=
  Everywhere.node (List.forall_mem_cons.2 ⟨htype, hnamed⟩) below

theorem Within.of_size_le (h : r.size ≤ r'.size) (he : e.Within r) : e.Within r' :=
  he.mono fun _ hn t ht => Nat.lt_of_lt_of_le (hn t ht) h

theorem Within.grow (h : r.Grows r') (he : e.Within r) : e.Within r' :=
  he.of_size_le h.table.size_le

theorem Within.type (h : e.Within r) : r.Has e.type := h.here _ List.mem_cons_self

/-- Renamings that agree on the handles of a tree rename it alike. -/
theorem rename_congr (h : e.Everywhere fun n => ∀ t ∈ n.own, f t = g t) :
    e.rename f = e.rename g := by
  induction h with
  | @node e here below ih =>
    have hinfo : e.info.rename f = e.info.rename g := by
      rw [Info.rename, Info.rename, here e.info.type List.mem_cons_self]
    cases e with
    | newWith i args initializers =>
      have hargs : args.map (rename f) = args.map (rename g) :=
        List.map_congr_left fun c hc => ih c (List.mem_append_left _ hc)
      have hinitializers : initializers.map (Initializer.rename f) =
          initializers.map (Initializer.rename g) :=
        List.map_congr_left fun x hx => by
          have hvalue := ih x.value (List.mem_append_right _ (List.mem_map_of_mem hx))
          cases x <;> exact congrArg _ hvalue
      simp_all [rename, info]
    | objectLiteral i properties =>
      have hproperties : properties.map (Property.rename f) = properties.map (Property.rename g) :=
        List.map_congr_left fun p hp => congrArg _ (ih p.value (List.mem_map_of_mem hp))
      simp_all [rename, info]
    | constant | localVar | typeRef | staticField | instanceField | dynamicMember | element
    | staticCall | instanceCall | dynamicCall | dynamicInvoke | cast | new | dynamicNew | newArray
    | arrayOf | assign | scriptDelete | scriptNew | scriptTypeof | scriptIn | scriptUndefined
    | arrayLiteral => simp_all [rename, info, children, own, named]

mutual

theorem rename_id : ∀ e : TypedExpr, e.rename id = e
  | constant .. | localVar .. | typeRef _ | staticField .. | scriptUndefined _ => rfl
  | instanceField _ e _ _ | dynamicMember _ e _ | cast _ e | scriptDelete _ e | scriptNew _ e
  | scriptTypeof _ e => by
    rw [rename, rename_id e]
    rfl
  | element _ e es | instanceCall _ e _ _ es | dynamicCall _ e _ es | dynamicInvoke _ e es
  | dynamicNew _ e es => by
    rw [rename, rename_id e, renameTrees_id es]
    rfl
  | staticCall _ _ _ es | new _ es | newArray _ _ es | arrayLiteral _ es => by
    rw [rename, renameTrees_id es]
    rfl
  | newWith _ es xs => by
    rw [rename, renameTrees_id es, renameInitializers_id xs]
    rfl
  | arrayOf _ _ es es' => by
    rw [rename, renameTrees_id es, renameTrees_id es']
    rfl
  | assign _ e e' | scriptIn _ e e' => by
    rw [rename, rename_id e, rename_id e']
    rfl
  | objectLiteral _ ps => by
    rw [rename, renameProperties_id ps]
    rfl

theorem renameTrees_id : ∀ es : List TypedExpr, renameTrees id es = es
  | [] => rfl
  | e :: es => by rw [renameTrees, rename_id e, renameTrees_id es]

theorem renameInitializers_id : ∀ xs : List Initializer, renameInitializers id xs = xs
  | [] => rfl
  | .element e :: xs | .named _ e :: xs => by
    rw [renameInitializers, rename_id e, renameInitializers_id xs]

theorem renameProperties_id : ∀ ps : List Property, renameProperties id ps = ps
  | [] => rfl
  | .mk _ e :: ps => by rw [renameProperties, rename_id e, renameProperties_id ps]

end

end TypedExpr

/-! ## Statements -/

namespace TypedStmt

variable {f g : TypeId → TypeId} {r r' : Registry}

mutual

def rename (f : TypeId → TypeId) : TypedStmt → TypedStmt
  | declare loc name type initializer =>
    declare loc name (f type) (initializer.map (TypedExpr.rename f))
  | expr loc e => expr loc (e.rename f)
  | nonAssign loc e => nonAssign loc (e.rename f)
  | block loc body => block loc (renameAll f body)
  | localFunction loc name => localFunction loc name
  | useNamespace loc space => useNamespace loc space

/-- Rename the types of statements. -/
def renameAll (f : TypeId → TypeId) : List TypedStmt → List TypedStmt
  | [] => []
  | s :: rest => s.rename f :: renameAll f rest

end

mutual

/-- The registry has a type behind every handle of the statement. -/
def Within (r : Registry) : TypedStmt → Prop
  | declare _ _ type initializer => r.Has type ∧ ∀ e ∈ initializer, e.Within r
  | expr _ e | nonAssign _ e => e.Within r
  | block _ body => AllWithin r body
  | localFunction .. | useNamespace .. => True

/-- The registry has a type behind every handle of the statements. -/
def AllWithin (r : Registry) : List TypedStmt → Prop
  | [] => True
  | s :: rest => s.Within r ∧ AllWithin r rest

end

mutual

theorem Within.of_size_le (hr : r.size ≤ r'.size) : ∀ {s : TypedStmt}, s.Within r → s.Within r'
  | declare .., h => ⟨Nat.lt_of_lt_of_le h.1 hr, fun e he => (h.2 e he).of_size_le hr⟩
  | expr .., h | nonAssign .., h => TypedExpr.Within.of_size_le hr h
  | block .., h => AllWithin.of_size_le hr h
  | localFunction .., _ | useNamespace .., _ => trivial

/-- A registry with as many types has those that the statements name. -/
theorem AllWithin.of_size_le (hr : r.size ≤ r'.size) :
    ∀ {body : List TypedStmt}, AllWithin r body → AllWithin r' body
  | [], _ => trivial
  | _ :: _, h => ⟨Within.of_size_le hr h.1, AllWithin.of_size_le hr h.2⟩

end

theorem Within.grow (hr : r.Grows r') {s : TypedStmt} (h : s.Within r) : s.Within r' :=
  h.of_size_le hr.table.size_le

mutual

theorem rename_congr (hfg : ∀ t, r.Has t → f t = g t) :
    ∀ {s : TypedStmt}, s.Within r → s.rename f = s.rename g
  | declare _ _ type initializer, h => by
    have hinitializer : initializer.map (TypedExpr.rename f) =
        initializer.map (TypedExpr.rename g) := by
      cases initializer with
      | none => rfl
      | some e =>
        exact congrArg some (TypedExpr.rename_congr ((h.2 e rfl).mono fun n hn t ht =>
          hfg t (hn t ht)))
    rw [rename, rename, hfg type h.1, hinitializer]
  | expr _ e, h | nonAssign _ e, h => by
    rw [rename, rename, TypedExpr.rename_congr (g := g) (h.mono fun n hn t ht => hfg t (hn t ht))]
  | block _ body, h => by rw [rename, rename, renameAll_congr hfg h]
  | localFunction .., _ | useNamespace .., _ => rfl

/-- Renamings that agree on the types of a registry rename alike statements that name no
others. -/
theorem renameAll_congr (hfg : ∀ t, r.Has t → f t = g t) :
    ∀ {body : List TypedStmt}, AllWithin r body → renameAll f body = renameAll g body
  | [], _ => rfl
  | _ :: _, h => by rw [renameAll, renameAll, rename_congr hfg h.1, renameAll_congr hfg h.2]

end

mutual

theorem rename_id : ∀ s : TypedStmt, s.rename id = s
  | declare _ _ _ none => rfl
  | declare _ _ _ (some e) => by
    rw [rename, Option.map_some, e.rename_id]
    rfl
  | expr _ e | nonAssign _ e => by rw [rename, e.rename_id]
  | block _ body => by rw [rename, renameAll_id body]
  | localFunction .. | useNamespace .. => rfl

theorem renameAll_id : ∀ body : List TypedStmt, renameAll id body = body
  | [] => rfl
  | s :: rest => by rw [renameAll, rename_id s, renameAll_id rest]

end

end TypedStmt

end Dynascript
