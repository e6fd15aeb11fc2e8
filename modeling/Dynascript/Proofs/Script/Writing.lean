import Dynascript.Proofs.Emit.Yields
import Dynascript.Proofs.Resolve.Ranges
import Dynascript.Proofs.Typed.Statements
import Dynascript.Script.Text

/-!
# Script text of resolved trees

Writing stops at two kinds of nodes. The script target has no form for casts, filled instances and
native arrays (`TypedExpr.nativeOnly`), and a node that spells out a type (`TypedExpr.spelled`)
needs its name, which a registry does not have if a handle dangles in it. Nothing else stops the
writing (`text_closed`).

Resolution for the target makes no node of the first kind, and the types that its nodes spell out
are known to the registry. So whatever resolves can be written over every later registry in which
the types have names (`Registry.Legible`), as they have in all that a program can build
(`resolved_is_written`).
-/

namespace Dynascript

/-- Only the native target has a form for the node. -/
def TypedExpr.nativeOnly : TypedExpr → Bool
  | cast .. | newWith .. | newArray .. | arrayOf .. => true
  | _ => false

/-- No node of the tree is for the native target only. -/
abbrev TypedExpr.ForScript (e : TypedExpr) : Prop := e.Everywhere (·.nativeOnly = false)

/-- The types that the text of a node spells out. -/
def TypedExpr.spelled : TypedExpr → List TypeId
  | typeRef i | new i _ => [i.type]
  | staticField _ owner _ | staticCall _ owner _ _ => [owner]
  | _ => []

/-- The types that the text of the tree spells out have names. -/
abbrev TypedExpr.Named (r : Registry) (e : TypedExpr) : Prop :=
  e.Everywhere fun n => ∀ t ∈ n.spelled, ∃ name, r.nameOf t = .ok name

/-- The types that the registry knows have names. -/
def Registry.Legible (r : Registry) : Prop := ∀ ty, r.Knows ty → ∃ name, r.nameOf ty = .ok name

theorem Registry.Valid.legible {r : Registry} (hr : r.Valid) : r.Legible := by
  rintro ty (⟨name, arity, hlookup⟩ | ⟨entry, hget⟩)
  · exact ⟨_, hr.nameOf (hr.has_of_lookup hlookup)⟩
  · exact ⟨_, hr.nameOf (Registry.has_of_get hget)⟩

/-- Where a member was found, the table has a type. -/
theorem Registry.knows_of_findMember {r : Registry} {ty : TypeId} {name : String}
    {found : Option (TypeId × Member)} (h : r.findMember ty name = .ok found) : r.Knows ty := by
  rw [findMember, TypeTable.findMember, TypeTable.findMemberWithin] at h
  obtain ⟨entry, hget, -⟩ := bind_eq_ok.1 h
  exact .inr ⟨entry, hget⟩

theorem TypedExpr.spelled_subset_own (e : TypedExpr) : e.spelled ⊆ e.own := by
  cases e <;> simp [spelled, own, named, TypedExpr.type, TypedExpr.info]

/-- A tree in range of a valid registry spells out types with names. -/
theorem TypedExpr.Within.named {r : Registry} {e : TypedExpr} (h : e.Within r) (hr : r.Valid) :
    e.Named r :=
  h.mono fun n hn t ht => ⟨_, hr.nameOf (hn t (n.spelled_subset_own ht))⟩

namespace Script

open Resolve

variable {r : Registry}

/-- Holds of text, and of what is written one after the other. -/
structure Closed (P : Emission Write → Prop) : Prop where
  pieces : ∀ loc texts, P (pieces loc texts)
  append : ∀ {a b}, P a → P b → P (a ++ b)

/-- What holds of a stop, and of none, holds of writing one thing after the other. -/
theorem closed_of_stop {p : Option Stop → Prop} (hnone : p none) : Closed fun em => p em.stop where
  pieces _ _ := hnone
  append := Emission.append_stop

/-- Everything that was meant is written. -/
def Completes (em : Emission Write) : Prop := em.stop = none

theorem Completes.append {a b : Emission Write} (ha : Completes a) (hb : Completes b) :
    Completes (a ++ b) :=
  Emission.stop_append.2 ⟨ha, hb⟩

theorem result_of_completes {em : Emission Write} (h : Completes em) :
    em.result = .ok (.ok em.written) :=
  Emission.result_eq_ok.2 ⟨h, rfl⟩

/-- The writing does not stop at a node that the target has no form for. -/
def Unrefused (em : Emission Write) : Prop := ∀ error, em.stop ≠ some (.rejected error)

theorem Unrefused.result {em : Emission Write} (h : Unrefused em) (error : EmitError) :
    em.result ≠ .ok (.error error) := by
  intro hresult
  unfold Emission.result at hresult
  split at hresult
  · cases hresult
  · exact h _ (by assumption)
  · cases hresult

theorem unrefused_closed : Closed Unrefused :=
  closed_of_stop (p := fun stop => ∀ error, stop ≠ some (.rejected error)) nofun

/-- There is a result : the writing does not stop at a dangling handle. -/
theorem answered_closed : Closed Emission.Answered :=
  closed_of_stop (p := fun stop => ∀ d, stop ≠ some (.dangling d)) nofun

/-! ## Expressions -/

section

variable {P : Emission Write → Prop} (hP : Closed P)

include hP

theorem listRest_closed {loc : Location} :
    ∀ {es : List TypedExpr}, (∀ e ∈ es, P (text r e)) → P (listRest r loc es)
  | [], _ => hP.pieces loc []
  | e :: es, h => by
    obtain ⟨he, hes⟩ := List.forall_mem_cons.1 h
    rw [listRest]
    exact hP.append (hP.append (hP.pieces ..) he) (listRest_closed hes)

theorem list_closed {loc : Location} {es : List TypedExpr} (h : ∀ e ∈ es, P (text r e)) :
    P (list r loc es) := by
  cases es with
  | nil => exact hP.pieces loc []
  | cons e es =>
    obtain ⟨he, hes⟩ := List.forall_mem_cons.1 h
    rw [list]
    exact hP.append he (listRest_closed hP hes)

theorem propertyRest_closed {loc : Location} :
    ∀ {ps : List Property}, (∀ p ∈ ps, P (text r p.value)) → P (propertyRest r loc ps)
  | [], _ => hP.pieces loc []
  | .mk name value :: ps, h => by
    obtain ⟨hvalue, hps⟩ := List.forall_mem_cons.1 h
    rw [propertyRest]
    exact hP.append (hP.append (hP.pieces ..) hvalue) (propertyRest_closed hps)

theorem propertyList_closed {loc : Location} {ps : List Property}
    (h : ∀ p ∈ ps, P (text r p.value)) : P (propertyList r loc ps) := by
  cases ps with
  | nil => exact hP.pieces loc []
  | cons p ps =>
    obtain ⟨name, value⟩ := p
    obtain ⟨hvalue, hps⟩ := List.forall_mem_cons.1 h
    rw [propertyList]
    exact hP.append (hP.append (hP.pieces ..) hvalue) (propertyRest_closed hP hps)

/-- What holds of text, of the stops at nodes for the native target only and of those at types
without a name holds of the text of a tree. -/
theorem text_closed {e : TypedExpr}
    (h : e.Everywhere fun n => (n.nativeOnly = true → P (unsupported n)) ∧
      ∀ t ∈ n.spelled, ∀ d, r.nameOf t = .error d → P ⟨[], some (.dangling d)⟩) :
    P (text r e) := by
  induction h with
  | @node e here below ih =>
    -- A node that spells out a type goes on as if the registry had its name.
    have asking {t : TypeId} {f : String → Emission Write} (ht : t ∈ e.spelled)
        (hf : ∀ name, P (f name)) : P (.asking (r.nameOf t) f) := by
      cases hname : r.nameOf t with
      | ok name => exact hf name
      | error d => exact here.2 t ht d hname
    cases e with
    | constant | localVar | scriptUndefined => exact hP.pieces ..
    | typeRef | staticField => exact asking List.mem_cons_self fun _ => hP.pieces ..
    | instanceField | dynamicMember =>
      exact hP.append (ih _ (by simp [TypedExpr.children])) (hP.pieces ..)
    | element info target args =>
      obtain ⟨htarget, hargs⟩ := List.forall_mem_cons.1 ih
      exact hP.append (hP.append (hP.append htarget (hP.pieces ..)) (list_closed hP hargs))
        (hP.pieces ..)
    | staticCall info owner method args =>
      exact asking List.mem_cons_self fun _ =>
        hP.append (hP.append (hP.pieces ..) (list_closed hP ih)) (hP.pieces ..)
    | instanceCall | dynamicCall | dynamicInvoke =>
      obtain ⟨hreceiver, hargs⟩ := List.forall_mem_cons.1 ih
      exact hP.append (hP.append (hP.append hreceiver (hP.pieces ..)) (list_closed hP hargs))
        (hP.pieces ..)
    | new info args =>
      exact asking List.mem_cons_self fun _ =>
        hP.append (hP.append (hP.pieces ..) (list_closed hP ih)) (hP.pieces ..)
    | dynamicNew info callee args =>
      obtain ⟨hcallee, hargs⟩ := List.forall_mem_cons.1 ih
      exact hP.append (hP.append (hP.append (hP.append (hP.pieces ..) hcallee) (hP.pieces ..))
        (list_closed hP hargs)) (hP.pieces ..)
    | assign info target value =>
      exact hP.append (hP.append (ih target (by simp [TypedExpr.children])) (hP.pieces ..))
        (ih value (by simp [TypedExpr.children]))
    | scriptDelete | scriptNew | scriptTypeof =>
      exact hP.append (hP.pieces ..) (ih _ (by simp [TypedExpr.children]))
    | scriptIn info key container =>
      exact hP.append (hP.append (ih key (by simp [TypedExpr.children])) (hP.pieces ..))
        (ih container (by simp [TypedExpr.children]))
    | objectLiteral info properties =>
      have hvalues : ∀ p ∈ properties, P (text r p.value) := fun p hp =>
        ih _ (List.mem_map_of_mem hp)
      exact hP.append (hP.append (hP.pieces ..) (propertyList_closed hP hvalues)) (hP.pieces ..)
    | arrayLiteral info elements =>
      exact hP.append (hP.append (hP.pieces ..) (list_closed hP ih)) (hP.pieces ..)
    | cast | newWith | newArray | arrayOf => exact here.1 rfl

/-! ## Statements -/

mutual

theorem stmtText_closed :
    ∀ {s : TypedStmt} {depth : Nat}, (∀ e ∈ s.trees, P (text r e)) → P (stmtText r depth s)
  | .declare loc name type none, _, _ => hP.append (hP.pieces ..) (hP.pieces ..)
  | .declare loc name type (some value), _, h => by
    have hvalue : P (text r value) := h value (by simp [TypedStmt.trees])
    exact hP.append (hP.append (hP.append (hP.pieces ..) (hP.pieces ..)) hvalue) (hP.pieces ..)
  | .expr loc e, _, h => by
    have he : P (text r e) := h e (by simp [TypedStmt.trees])
    exact hP.append (hP.append (hP.pieces ..) he) (hP.pieces ..)
  | .nonAssign loc e, _, h => by
    have he : P (text r e) := h e (by simp [TypedStmt.trees])
    rw [stmtText]
    split
    · exact hP.pieces loc []
    · exact hP.append (hP.append (hP.pieces ..) he) (hP.pieces ..)
  | .block loc body, depth, h => by
    have hbody : P (unitText r (depth + 1) body) := unitText_closed h
    exact hP.append (hP.append (hP.append (hP.append (hP.pieces ..) (hP.pieces ..)) hbody)
      (hP.pieces ..)) (hP.pieces ..)
  | .localFunction loc .., _, _ | .useNamespace loc .., _, _ => hP.pieces loc []

theorem unitText_closed :
    ∀ {body : List TypedStmt} {depth : Nat}, (∀ e ∈ TypedStmt.treesOf body, P (text r e)) →
      P (unitText r depth body)
  | [], _, _ => hP.pieces .origin []
  | s :: rest, _, h => by
    rw [unitText]
    exact hP.append (stmtText_closed fun e he => h e (List.mem_append_left _ he))
      (unitText_closed fun e he => h e (List.mem_append_right _ he))

end

end

/-- A tree without nodes for the native target only is not refused. -/
theorem text_unrefused {e : TypedExpr} (h : e.ForScript) : Unrefused (text r e) :=
  text_closed unrefused_closed (h.mono fun _ hn =>
    ⟨fun hnative => absurd hnative (Bool.eq_false_iff.1 hn), fun _ _ _ _ => nofun⟩)

/-- If the types that a tree spells out have names, nothing dangles in its text. -/
theorem text_answered {e : TypedExpr} (h : e.Named r) : (text r e).Answered :=
  text_closed answered_closed (h.mono fun _ hn => ⟨fun _ => Emission.answered_reject,
    fun t ht _ herror => by
      obtain ⟨name, hname⟩ := hn t ht
      cases hname.symm.trans herror⟩)

theorem completes_of_answered {em : Emission Write} (h : Unrefused em) (h' : em.Answered) :
    Completes em := by
  unfold Completes
  cases hs : em.stop with
  | none => rfl
  | some stop =>
    cases stop with
    | rejected error => exact absurd hs (h error)
    | dangling d => exact absurd hs (h' d)

theorem unitText_unrefused {body : List TypedStmt} {depth : Nat}
    (h : ∀ e ∈ TypedStmt.treesOf body, e.ForScript) : Unrefused (unitText r depth body) :=
  unitText_closed unrefused_closed fun e he => text_unrefused (h e he)

theorem unitText_answered {body : List TypedStmt} {depth : Nat}
    (h : ∀ e ∈ TypedStmt.treesOf body, e.Named r) : (unitText r depth body).Answered :=
  unitText_closed answered_closed fun e he => text_answered (h e he)

/-! ## What resolution makes -/

section

variable {settings : Settings} {scopes : Scopes}

/-- The typing rules have no such node for the script target. -/
theorem forScript_of_typed {e : TypedExpr} (hs : settings.isScript = true)
    (h : Typed ⟨settings, scopes⟩ r e) : e.ForScript := by
  refine h.mono fun e he => ?_
  cases e with
  | cast | newWith | newArray | arrayOf =>
    have hnative : settings.isScript = false := he.2.1
    rw [hs] at hnative
    cases hnative
  | _ => rfl

/-- For the script target, the typing rules ask of all types that are spelled out that they are
known. -/
theorem spelled_known {e : TypedExpr} (hs : settings.isScript = true)
    (h : Rule ⟨settings, scopes⟩ r e) : ∀ t ∈ e.spelled, r.Knows t := by
  cases e with
  | typeRef i => exact List.forall_mem_singleton.2 h.2
  | staticField i owner name =>
    refine List.forall_mem_singleton.2 ?_
    rcases h with ⟨-, hfield⟩ | ⟨-, -, -, -, hnative⟩
    · exact Registry.knows_of_findMember hfield
    · cases hs.symm.trans hnative
  | staticCall i owner method args =>
    obtain ⟨-, parameters, hmethod⟩ := h
    exact List.forall_mem_singleton.2 (Registry.knows_of_findMember hmethod)
  | new i args => cases hs.symm.trans h.2.1
  | _ => exact List.forall_mem_nil _

theorem named_of_typed {e : TypedExpr} (hs : settings.isScript = true)
    (h : Typed ⟨settings, scopes⟩ r e) (hr : r.Legible) : e.Named r :=
  h.mono fun _ hn t ht => hr t (spelled_known hs hn t ht)

end

/-- The trees of resolved statements, in the scopes that they stand in. -/
theorem typed_of_statements {cx : Context} {scopes : Scopes} {body : List Stmt}
    {o : Outcome (Option (List TypedStmt) × Scopes)} {typed : List TypedStmt}
    (ho : statements scopes body cx r = .ok o) (htyped : o.value.1 = some typed) :
    ∀ tree ∈ TypedStmt.treesOf typed, ∃ scopes', Typed ⟨cx.settings, scopes'⟩ o.registry tree := by
  intro tree htree
  obtain ⟨-, hbody, -⟩ := (statements_thread body scopes cx r o ho).quiet typed htyped
  exact hbody.tree tree htree

theorem forScript_of_statements {cx : Context} {scopes : Scopes} {body : List Stmt}
    {o : Outcome (Option (List TypedStmt) × Scopes)} {typed : List TypedStmt}
    (hs : cx.settings.isScript = true) (ho : statements scopes body cx r = .ok o)
    (htyped : o.value.1 = some typed) : ∀ tree ∈ TypedStmt.treesOf typed, tree.ForScript := by
  intro tree htree
  obtain ⟨scopes', htree⟩ := typed_of_statements ho htyped tree htree
  exact forScript_of_typed hs htree

/-- Resolved statements are written to their end over every later registry with names. -/
theorem completes_of_statements {cx : Context} {scopes : Scopes} {body : List Stmt}
    {o : Outcome (Option (List TypedStmt) × Scopes)} {typed : List TypedStmt} {r' : Registry}
    (hs : cx.settings.isScript = true) (ho : statements scopes body cx r = .ok o)
    (htyped : o.value.1 = some typed) (hgrows : o.registry.Grows r') (hr' : r'.Legible)
    (depth : Nat) : Completes (unitText r' depth typed) := by
  refine completes_of_answered (unitText_unrefused (forScript_of_statements hs ho htyped))
    (unitText_answered fun tree htree => ?_)
  obtain ⟨scopes', htree⟩ := typed_of_statements ho htyped tree htree
  exact named_of_typed hs (htree.grow hgrows) hr'

end Script

end Dynascript
