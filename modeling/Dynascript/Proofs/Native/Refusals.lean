import Dynascript.Native.Code
import Dynascript.Proofs.Emit.Yields
import Dynascript.Proofs.Resolve.Independence
import Dynascript.Proofs.Typed.Statements
import Mathlib.Algebra.Group.Nat.Defs

/-!
# What the native target refuses

Of the trees that resolution makes for the native target there are three kinds of nodes for which
no code can be written (`Occurrence.refusal`) : a type in place of a value, a store through an
object whose value is used, and an array with more values than indices. `Emits em ns` says that
the emission `em` of the nodes `ns` is complete if none of them is refused, and else stops with
the refusal of one of them; it never stops at a dangling handle. Every node of a unit that is not
dropped is written out or refused (`unitCode_emits`), which gives the exact set of units that fail
(`refused_iff`).
-/

namespace Dynascript

/-! ## Nodes and statements that are kept -/

/-- The place is part of an object, so no copy of the stored value is left on the stack. -/
def TypedExpr.throughObject : TypedExpr → Bool
  | instanceField .. | dynamicMember .. | element .. => true
  | _ => false

namespace Native

/-- A node of a unit, and whether it is the whole expression of a statement. -/
structure Occurrence where
  whole : Bool
  node : TypedExpr

/-- A type is no value. -/
def typeError : EmitError := .unsupportedShape "type reference" "a type is not a value"

/-- A store through an object leaves no value. -/
def storeError (place : String) : EmitError :=
  .unsupportedShape "assignment" ("value of a " ++ place ++ " store used as an expression")

/-- An index has four bytes. -/
def lengthError : EmitError := .unsupportedShape "array creation" "initializer too long"

namespace Occurrence

/-- A type in place of a value. -/
def isType (n : Occurrence) : Bool :=
  match n.node with
  | .typeRef _ => true
  | _ => false

/-- A store through an object whose value is used. -/
def isUsedStore (n : Occurrence) : Bool :=
  match n.node with
  | .assign _ target _ => !n.whole && target.throughObject
  | _ => false

/-- Why no code can be written for a node. -/
def refusal (n : Occurrence) : Option EmitError :=
  match n.node with
  | .typeRef _ => some typeError
  | .assign _ target _ =>
    if !n.whole && target.throughObject then some (storeError target.kindName) else none
  | .arrayOf _ _ _ values => if 2 ^ 31 < values.length then some lengthError else none
  | _ => none

end Occurrence

/-- The nodes of a tree whose value is used. -/
def inner (e : TypedExpr) : List Occurrence := e.nodes.map (Occurrence.mk false)

theorem inner_eq (e : TypedExpr) : inner e = ⟨false, e⟩ :: e.children.flatMap inner := by
  rw [inner, TypedExpr.nodes_eq, List.map_cons, List.map_flatMap]
  rfl

theorem mem_inner (e : TypedExpr) : ⟨false, e⟩ ∈ inner e := by
  rw [inner_eq]
  exact List.mem_cons_self

/-- The nodes of a tree that is a statement of its own. -/
def outer (e : TypedExpr) : List Occurrence := ⟨true, e⟩ :: e.children.flatMap inner

mutual

/-- The nodes of a statement, unless it is dropped. -/
def kept : TypedStmt → List Occurrence
  | .declare _ _ _ initializer => initializer.toList.flatMap inner
  | .expr _ e => outer e
  | .nonAssign _ e => if e.isPure then [] else outer e
  | .block _ body => keptOf body
  | .localFunction .. | .useNamespace .. => []

/-- The nodes of statements, without those that are dropped. -/
def keptOf : List TypedStmt → List Occurrence
  | [] => []
  | s :: rest => kept s ++ keptOf rest

end

/-! ## Emissions of nodes -/

/-- The emission is complete if none of the nodes is refused, and else stops with the refusal of
one of them. -/
def Emits (em : Emission Instr) (ns : List Occurrence) : Prop :=
  em.stop = none ∧ (∀ n ∈ ns, n.refusal = none) ∨
    ∃ n ∈ ns, ∃ error, n.refusal = some error ∧ em.stop = some (.rejected error)

variable {em a b : Emission Instr} {ns ms : List Occurrence} {n : Occurrence}

theorem emits_write (items : List Instr) : Emits (.write items) [] := .inl ⟨rfl, nofun⟩

theorem emits_refused {error : EmitError} (hn : n ∈ ns) (h : n.refusal = some error) :
    Emits (.reject error) ns :=
  .inr ⟨n, hn, error, h, rfl⟩

theorem stop_append_of_stop {stop : Stop} (h : a.stop = some stop) : (a ++ b).stop = some stop := by
  change (Emission.append a b).stop = _
  rw [Emission.append, h]
  exact h

theorem stop_append_of_none (h : a.stop = none) : (a ++ b).stop = b.stop := by
  change (Emission.append a b).stop = _
  rw [Emission.append, h]

theorem Emits.append (ha : Emits a ns) (hb : Emits b ms) : Emits (a ++ b) (ns ++ ms) := by
  rcases ha with ⟨ha, hns⟩ | ⟨n, hn, error, herror, ha⟩
  · rcases hb with ⟨hb, hms⟩ | ⟨n, hn, error, herror, hb⟩
    · exact .inl ⟨Emission.stop_append.2 ⟨ha, hb⟩, List.forall_mem_append.2 ⟨hns, hms⟩⟩
    · exact .inr ⟨n, List.mem_append_right _ hn, error, herror, (stop_append_of_none ha).trans hb⟩
  · exact .inr ⟨n, List.mem_append_left _ hn, error, herror, stop_append_of_stop ha⟩

/-- Instructions that stand for no node of their own. -/
theorem Emits.write (h : Emits a ns) (items : List Instr) : Emits (a ++ .write items) ns := by
  simpa using h.append (emits_write items)

/-- The same after instructions. -/
theorem Emits.written (h : Emits b ns) (items : List Instr) : Emits (.write items ++ b) ns :=
  (emits_write items).append h

theorem emits_asking {α : Type} {answer : Except Dangling α} {f : α → Emission Instr}
    (hanswer : ∃ x, answer = .ok x) (h : ∀ x, answer = .ok x → Emits (f x) ns) :
    Emits (.asking answer f) ns := by
  obtain ⟨x, rfl⟩ := hanswer
  exact h x rfl

/-- A node that is not refused on its own account adds nothing. -/
theorem Emits.cons (h : Emits em ns) (hn : n.refusal = none) : Emits em (n :: ns) := by
  rcases h with ⟨hstop, hns⟩ | ⟨m, hm, hrest⟩
  · exact .inl ⟨hstop, List.forall_mem_cons.2 ⟨hn, hns⟩⟩
  · exact .inr ⟨m, List.mem_cons_of_mem _ hm, hrest⟩

theorem Emits.inner {e : TypedExpr} (h : Emits em (e.children.flatMap inner))
    (hn : Occurrence.refusal ⟨false, e⟩ = none) : Emits em (inner e) := by
  rw [inner_eq]
  exact h.cons hn

theorem Emits.perm (h : Emits em ns) (hperm : ns.Perm ms) : Emits em ms := by
  rcases h with ⟨hstop, hns⟩ | ⟨m, hm, hrest⟩
  · exact .inl ⟨hstop, fun n hn => hns n (hperm.mem_iff.2 hn)⟩
  · exact .inr ⟨m, hperm.mem_iff.1 hm, hrest⟩

/-- An emission of nodes has a result : it does not stop at a dangling handle. -/
theorem Emits.result (h : Emits em ns) : ∃ result, em.result = .ok result := by
  refine Emission.Answered.result fun d => ?_
  rcases h with ⟨hstop, -⟩ | ⟨n, hn, error, -, hstop⟩ <;> simp [hstop]

/-! ## Questions about handles -/

section

variable {r : Registry} {t : TypeId}

/-- The three questions that the access to an element asks of the type it goes to. -/
theorem element_answers (hr : r.Valid) (ht : r.Has t) :
    (∃ dynamic, r.isDynamic t = .ok dynamic) ∧ (∃ array, r.arrayElement t = .ok array) ∧
      ∃ found, r.findMember t Member.indexerName = .ok found := by
  obtain ⟨array, harray, -⟩ := Registry.arrayElement_answers hr ht
  obtain ⟨found, hfound, -⟩ := Registry.findMember_answers hr ht Member.indexerName
  exact ⟨Registry.isDynamic_answers ht, ⟨array, harray⟩, ⟨found, hfound⟩⟩

theorem loadElement_answers (hr : r.Valid) (ht : r.Has t) (args : Nat) :
    ∃ load, loadElement r t args = .ok load := by
  obtain ⟨⟨dynamic, hdynamic⟩, ⟨array, harray⟩, ⟨found, hfound⟩⟩ := element_answers hr ht
  simp only [loadElement, hdynamic, harray, hfound]
  cases dynamic <;> cases array <;> cases found <;> exact ⟨_, rfl⟩

theorem storeElement_answers (hr : r.Valid) (ht : r.Has t) (args : Nat) :
    ∃ store, storeElement r t args = .ok store := by
  obtain ⟨⟨dynamic, hdynamic⟩, ⟨array, harray⟩, ⟨found, hfound⟩⟩ := element_answers hr ht
  simp only [storeElement, hdynamic, harray, hfound]
  cases dynamic <;> cases array <;> cases found <;> exact ⟨_, rfl⟩

end

/-! ## Expressions -/

section

variable {r : Registry} {settings : Settings} {cx : Context} {e : TypedExpr}

/-- Every node of the tree keeps to the typing rules, in some scopes, and has a type. -/
def Sound (settings : Settings) (r : Registry) (e : TypedExpr) : Prop :=
  e.Everywhere fun n => (∃ scopes, Resolve.Rule ⟨settings, scopes⟩ r n) ∧ r.Has n.type

/-- The only places are variables, static fields, and parts of objects. -/
theorem place_cases (h : Resolve.Rule cx r e) (hplace : e.role = .place) :
    (∃ i name, e = .localVar i name) ∨ (∃ i owner name, e = .staticField i owner name) ∨
      e.throughObject = true := by
  cases e with
  | localVar i name => exact .inl ⟨i, name, rfl⟩
  | staticField i owner name => exact .inr (.inl ⟨i, owner, name, rfl⟩)
  | instanceField | dynamicMember | element => exact .inr (.inr rfl)
  | staticCall i | instanceCall i =>
    have hrole : i.role = .place := hplace
    rw [h.1, Resolve.callRole] at hrole
    split at hrole <;> cases hrole
  | _ => exact nomatch h.1.symm.trans hplace

theorem codeAll_emits : ∀ {es : List TypedExpr}, (∀ e ∈ es, Emits (code r e) (inner e)) →
    Emits (codeAll r es) (es.flatMap inner)
  | [], _ => emits_write []
  | e :: es, h => by
    obtain ⟨he, hes⟩ := List.forall_mem_cons.1 h
    rw [codeAll, List.flatMap_cons]
    exact he.append (codeAll_emits hes)

/-- The code of a call, or of anything else that takes a receiver and arguments. -/
theorem receiver_emits {receiver : TypedExpr} {args : List TypedExpr}
    (h : ∀ e ∈ receiver :: args, Emits (code r e) (inner e)) (items : List Instr) :
    Emits (code r receiver ++ codeAll r args ++ .write items)
      ((receiver :: args).flatMap inner) := by
  obtain ⟨hreceiver, hargs⟩ := List.forall_mem_cons.1 h
  exact (hreceiver.append (codeAll_emits hargs)).write items

theorem fill_emits {type : TypeId} {keyed : Bool} :
    ∀ {xs : List Initializer}, (∀ x ∈ xs, Emits (code r x.value) (inner x.value)) →
      Emits (fill r type keyed xs) ((xs.map Initializer.value).flatMap inner)
  | [], _ => emits_write []
  | .element value :: xs, h => by
    obtain ⟨hvalue, hxs⟩ := List.forall_mem_cons.1 h
    rw [fill, List.map_cons, List.flatMap_cons]
    exact ((hvalue.written _).write _).append (fill_emits hxs)
  | .named name value :: xs, h => by
    obtain ⟨hvalue, hxs⟩ := List.forall_mem_cons.1 h
    rw [fill, List.map_cons, List.flatMap_cons]
    split <;> exact ((hvalue.written _).write _).append (fill_emits hxs)

/-- Filling an array from `index` on : `n` stands for the array, which is refused if its last
index is too large. -/
theorem fillArray_emits {element : TypeId} :
    ∀ {values : List TypedExpr} {index : Nat}, (∀ e ∈ values, Emits (code r e) (inner e)) →
      index ≤ 2 ^ 31 →
      n.refusal = (if 2 ^ 31 < index + values.length then some lengthError else none) →
      Emits (fillArray r element index values) (values.flatMap inner ++ [n])
  | [], index, _, hindex, hn => by
    rw [List.length_nil, Nat.add_zero, if_neg (Nat.not_lt.2 hindex)] at hn
    exact (emits_write []).cons hn
  | value :: values, index, h, hindex, hn => by
    obtain ⟨hvalue, hvalues⟩ := List.forall_mem_cons.1 h
    rw [fillArray, loadIndex]
    rw [List.length_cons] at hn
    split
    next hlt =>
      rw [List.flatMap_cons, List.append_assoc]
      refine ((hvalue.written _).write _).append (fillArray_emits hvalues hlt ?_)
      rw [hn, Nat.add_assoc, Nat.add_comm 1]
    next hge =>
      rw [if_pos (by omega)] at hn
      exact emits_refused (List.mem_append_right _ List.mem_cons_self) hn

/-- A filled array of one dimension, which is the only shape that the typing rules have. -/
theorem arrayOf_emits {i : Info} {element : TypeId} {dimensions values : List TypedExpr}
    (harray : r.arrayElement i.type = .ok (some (element, 1))) (hone : dimensions.length = 1)
    (h : ∀ e ∈ dimensions ++ values, Emits (code r e) (inner e)) :
    Emits (code r (.arrayOf i element dimensions values))
      (inner (.arrayOf i element dimensions values)) := by
  obtain ⟨hdimensions, hvalues⟩ := List.forall_mem_append.1 h
  have hfill : Emits (fillArray r element 0 values)
      (values.flatMap inner ++ [⟨false, .arrayOf i element dimensions values⟩]) :=
    fillArray_emits hvalues (Nat.zero_le _) (by rw [Nat.zero_add]; rfl)
  rw [code]
  refine emits_asking ⟨_, harray⟩ fun array hanswer => ?_
  cases harray.symm.trans hanswer
  -- The array stands before its values, but what refuses it is found behind them.
  rw [inner_eq]
  refine Emits.perm ?_ (List.perm_append_singleton _ _)
  simp only [hone, TypedExpr.children, List.flatMap_append, List.append_assoc]
  exact ((codeAll_emits hdimensions).write _).append hfill

theorem inner_assign {i : Info} {target value : TypedExpr} :
    (TypedExpr.assign i target value).children.flatMap inner = inner target ++ inner value := by
  simp [TypedExpr.children]

/-- An assignment to a variable or a static field writes the value only. -/
theorem Emits.assigned {target value : TypedExpr} (h : Emits em (Native.inner value))
    (hleaf : target.children = []) (hn : Occurrence.refusal ⟨false, target⟩ = none) :
    Emits em (Native.inner target ++ Native.inner value) := by
  rw [inner_eq target, hleaf]
  exact h.cons hn

theorem code_assign_throughObject {i : Info} {target value : TypedExpr}
    (h : target.throughObject = true) :
    code r (.assign i target value) = .reject (storeError target.kindName) := by
  cases target with
  | instanceField | dynamicMember | element => rfl
  | _ => cases h

/-- The code of a tree is complete, or stops with the refusal of one of its nodes. -/
theorem code_emits (hr : r.Valid) (hnative : settings.isScript = false) (h : Sound settings r e) :
    Emits (code r e) (inner e) := by
  induction h with
  | @node e here below ih =>
    obtain ⟨⟨scopes, hrule⟩, htype⟩ := here
    have no {p : Prop} (hscript : settings.isScript = true) : p :=
      nomatch hnative.symm.trans hscript
    cases e with
    | constant i value =>
      obtain ⟨-, -, hscript⟩ := hrule
      refine Emits.inner ?_ rfl
      cases value with
      | regex | xml => exact no (hscript rfl)
      | _ => exact emits_write _
    | localVar | staticField => exact Emits.inner (emits_write _) rfl
    | typeRef i => exact emits_refused (mem_inner (.typeRef i)) rfl
    | instanceField i target | dynamicMember i target | cast i target =>
      have htarget := ih target List.mem_cons_self
      refine Emits.inner ?_ rfl
      simpa [code, TypedExpr.children] using htarget.write _
    | element i target args =>
      obtain ⟨htarget, hargs⟩ := List.forall_mem_cons.1 ih
      have hhas : r.Has target.type := (below target List.mem_cons_self).here.2
      refine Emits.inner ?_ rfl
      have hload : Emits (.asking (loadElement r target.type args.length) fun load =>
          .write [load]) [] :=
        emits_asking (loadElement_answers hr hhas _) fun load _ => emits_write [load]
      simpa [code, TypedExpr.children] using (htarget.append (codeAll_emits hargs)).append hload
    | staticCall i owner method args | new i args =>
      exact Emits.inner ((codeAll_emits ih).write _) rfl
    | instanceCall | dynamicCall | dynamicInvoke | dynamicNew =>
      exact Emits.inner (receiver_emits ih _) rfl
    | newWith i args initializers =>
      obtain ⟨hargs, hvalues⟩ := List.forall_mem_append.1 ih
      refine Emits.inner ?_ rfl
      rw [TypedExpr.children, List.flatMap_append]
      refine ((codeAll_emits hargs).write _).append ?_
      refine emits_asking (Registry.isDynamicCapable_answers htype) fun keyed _ => ?_
      exact fill_emits fun x hx => hvalues _ (List.mem_map_of_mem hx)
    | newArray i element dimensions => exact Emits.inner ((codeAll_emits ih).write _) rfl
    | arrayOf i element dimensions values =>
      obtain ⟨-, -, harray, hdimensions⟩ := hrule
      exact arrayOf_emits harray (by rw [hdimensions]; rfl) ih
    | assign i target value =>
      obtain ⟨-, hplace, -⟩ := hrule
      obtain ⟨scopes', htarget⟩ := (below target List.mem_cons_self).here.1
      have hvalue := ih value (by simp [TypedExpr.children])
      rcases place_cases htarget hplace with ⟨j, name, rfl⟩ | ⟨j, owner, name, rfl⟩ | hthrough
      · exact Emits.inner (inner_assign ▸ (hvalue.write _).assigned rfl rfl) rfl
      · exact Emits.inner (inner_assign ▸ (hvalue.write _).assigned rfl rfl) rfl
      · rw [code_assign_throughObject hthrough]
        exact emits_refused (mem_inner (.assign i target value)) (if_pos hthrough)
    | scriptDelete | scriptNew | scriptUndefined | scriptIn => exact no hrule.2.2
    | scriptTypeof => exact no hrule.2.2.1
    | objectLiteral | arrayLiteral => exact no hrule.2

/-- A store writes the parts of the place and the value; there is no place that it cannot go
to. -/
theorem store_emits {target value : TypedExpr} (hr : r.Valid) (hnative : settings.isScript = false)
    (htarget : Sound settings r target) (hplace : target.role = .place)
    (hvalue : Emits (code r value) (inner value)) :
    Emits (store r target value) (inner target ++ inner value) := by
  have hcode {e : TypedExpr} (he : e ∈ target.children) : Emits (code r e) (inner e) :=
    code_emits hr hnative (htarget.child he)
  obtain ⟨⟨scopes, hrule⟩, -⟩ := htarget.here
  rcases place_cases hrule hplace with ⟨i, name, rfl⟩ | ⟨i, owner, name, rfl⟩ | hthrough
  · exact (hvalue.write _).assigned rfl rfl
  · exact (hvalue.write _).assigned rfl rfl
  · rw [inner_eq target, List.cons_append]
    cases target with
    | instanceField i object | dynamicMember i object =>
      have hobject := hcode (e := object) List.mem_cons_self
      refine Emits.cons ?_ rfl
      simpa [store, TypedExpr.children] using (hobject.append hvalue).write _
    | element i object args =>
      have hobject := hcode (e := object) List.mem_cons_self
      have hargs : ∀ e ∈ args, Emits (code r e) (inner e) := fun e he =>
        hcode (List.mem_cons_of_mem _ he)
      have hhas : r.Has object.type := (htarget.child List.mem_cons_self).here.2
      have hstore : Emits (.asking (storeElement r object.type args.length) fun store =>
          .write [store]) [] :=
        emits_asking (storeElement_answers hr hhas _) fun store _ => emits_write [store]
      refine Emits.cons ?_ rfl
      simpa [store, TypedExpr.children] using
        ((hobject.append (codeAll_emits hargs)).append hvalue).append hstore
    | _ => cases hthrough

/-- A node that is refused alike whether or not its value is used. -/
theorem Emits.outer (h : Emits em (Native.inner e))
    (hn : Occurrence.refusal ⟨true, e⟩ = Occurrence.refusal ⟨false, e⟩) :
    Emits em (outer e) := by
  rw [inner_eq] at h
  rcases h with ⟨hstop, hns⟩ | ⟨m, hm, error, herror, hstop⟩
  · obtain ⟨hhead, htail⟩ := List.forall_mem_cons.1 hns
    exact .inl ⟨hstop, List.forall_mem_cons.2 ⟨hn.trans hhead, htail⟩⟩
  · rcases List.mem_cons.1 hm with rfl | hm
    · exact .inr ⟨_, List.mem_cons_self, error, hn.trans herror, hstop⟩
    · exact .inr ⟨m, List.mem_cons_of_mem _ hm, error, herror, hstop⟩

/-- The code of a statement's whole expression is complete, or stops with the refusal of one of
its nodes. -/
theorem discard_emits (hr : r.Valid) (hnative : settings.isScript = false)
    (h : Sound settings r e) : Emits (discard r e) (outer e) := by
  cases e with
  | assign i target value =>
    obtain ⟨⟨scopes, -, hplace, -⟩, -⟩ := h.here
    have htarget : Sound settings r target := h.child List.mem_cons_self
    have hvalue : Sound settings r value := h.child (by simp [TypedExpr.children])
    have hstore := store_emits hr hnative htarget hplace (code_emits hr hnative hvalue)
    exact Emits.cons (inner_assign ▸ hstore) rfl
  | _ => exact ((code_emits hr hnative h).write _).outer rfl

/-! ## Statements -/

mutual

theorem stmtCode_emits (hr : r.Valid) (hnative : settings.isScript = false) :
    ∀ {s : TypedStmt}, (∀ e ∈ s.trees, Sound settings r e) → Emits (stmtCode r s) (kept s)
  | .declare _ name type none, _ => emits_write _
  | .declare _ name type (some value), h => by
    have hvalue := code_emits hr hnative (h value List.mem_cons_self)
    rw [stmtCode, kept, Option.toList_some, List.flatMap_singleton]
    exact (hvalue.written _).write _
  | .expr _ e, h => discard_emits hr hnative (h e List.mem_cons_self)
  | .nonAssign _ e, h => by
    rw [stmtCode, kept]
    split
    · exact emits_write []
    · exact discard_emits hr hnative (h e List.mem_cons_self)
  | .block _ body, h => by
    rw [stmtCode, kept]
    exact unitCode_emits hr hnative h
  | .localFunction .., _ | .useNamespace .., _ => emits_write []

/-- The code of a unit is complete, or stops with the refusal of a node that is kept. -/
theorem unitCode_emits (hr : r.Valid) (hnative : settings.isScript = false) :
    ∀ {body : List TypedStmt}, (∀ e ∈ TypedStmt.treesOf body, Sound settings r e) →
      Emits (unitCode r body) (keptOf body)
  | [], _ => emits_write []
  | s :: rest, h => by
    obtain ⟨hs, hrest⟩ := List.forall_mem_append.1 h
    rw [unitCode, keptOf]
    exact (stmtCode_emits hr hnative hs).append (unitCode_emits hr hnative hrest)

end

/-! ## Units that resolve -/

/-- The trees of a unit that resolved are sound, and stay so while the registry grows. -/
theorem sound_of_statements {R : Registry} {body : List Stmt} {o : Resolve.Resolved}
    {typed : List TypedStmt} (hR : R.Valid)
    (ho : Resolve.statements .fresh body ⟨settings, .fresh⟩ R = .ok o)
    (htyped : o.value.1 = some typed) (hgrows : o.registry.Grows r) :
    ∀ e ∈ TypedStmt.treesOf typed, Sound settings r e := by
  intro e he
  obtain ⟨o', _, _, ho', _, hsame⟩ := Resolve.statements_renumbered hR .refl settings body
  cases ho'.symm.trans ho
  have hwithin : e.Within r := ((hsame.within typed htyped).tree e he).grow hgrows
  obtain ⟨-, hbody, -⟩ := (Resolve.statements_thread body .fresh _ R o ho).quiet typed htyped
  obtain ⟨scopes, hrules⟩ := (hbody.grow hgrows).tree e he
  refine (hrules.and hwithin).mono fun n hn => ?_
  exact ⟨⟨scopes, hn.1⟩, hn.2 _ List.mem_cons_self⟩

/-- The kinds of places that are part of an object. -/
def objectPlaces : List String := ["instance field", "dynamic member", "element access"]

/-- What is refused, and how. -/
theorem refusal_cases (n : Occurrence) :
    n.isType = true ∧ n.refusal = some typeError ∨
    n.isUsedStore = true ∧ (∃ place ∈ objectPlaces, n.refusal = some (storeError place)) ∨
    (∃ i element dimensions values, n.node = .arrayOf i element dimensions values ∧
      2 ^ 31 < values.length ∧ n.refusal = some lengthError) ∨
    n.refusal = none ∧ n.isType = false ∧ n.isUsedStore = false := by
  obtain ⟨whole, e⟩ := n
  cases e with
  | typeRef i => exact .inl ⟨rfl, rfl⟩
  | assign i target value =>
    cases hused : !whole && target.throughObject with
    | false => exact .inr (.inr (.inr ⟨if_neg (by simp [hused]), rfl, hused⟩))
    | true =>
      have hkind : target.kindName ∈ objectPlaces := by
        obtain ⟨-, hthrough⟩ := Bool.and_eq_true_iff.1 hused
        cases target with
        | instanceField | dynamicMember | element => simp [objectPlaces, TypedExpr.kindName]
        | _ => cases hthrough
      exact .inr (.inl ⟨hused, target.kindName, hkind, if_pos hused⟩)
  | arrayOf i element dimensions values =>
    by_cases hlong : 2 ^ 31 < values.length
    · exact .inr (.inr (.inl ⟨i, element, dimensions, values, rfl, hlong, if_pos hlong⟩))
    · exact .inr (.inr (.inr ⟨if_neg hlong, rfl, rfl⟩))
  | _ => exact .inr (.inr (.inr ⟨rfl, rfl, rfl⟩))

/-- A unit that resolves for the native target, with no array too long for its indices, fails
exactly if it has a type in place of a value or uses the value of a store through an object, and
says so. -/
theorem refused_iff {R : Registry} {body : List Stmt} {o : Resolve.Resolved}
    {typed : List TypedStmt} (hR : R.Valid) (hnative : settings.isScript = false)
    (ho : Resolve.statements .fresh body ⟨settings, .fresh⟩ R = .ok o)
    (htyped : o.value.1 = some typed)
    (hfits : ∀ n ∈ keptOf typed, ∀ i element dimensions values,
      n.node = .arrayOf i element dimensions values → values.length ≤ 2 ^ 31) :
    o.registry.Valid ∧ ∀ r, o.registry.Grows r → r.Valid →
      ∃ result, (unitCode r typed).result = .ok result ∧
        (∀ error, result = .error error →
          error = typeError ∨ ∃ place ∈ objectPlaces, error = storeError place) ∧
        ((∃ error, result = .error error) ↔
          ∃ n ∈ keptOf typed, n.isType = true ∨ n.isUsedStore = true) := by
  have hvalid : o.registry.Valid := by
    obtain ⟨o', ho', hmakes, -⟩ := Resolve.statements_makes hR settings body
    cases ho'.symm.trans ho
    exact hmakes.valid hR
  refine ⟨hvalid, fun r hgrows hr => ?_⟩
  have hsound := sound_of_statements hR ho htyped hgrows
  rcases unitCode_emits hr hnative hsound with ⟨hstop, hnone⟩ | ⟨n, hn, error, herror, hstop⟩
  · refine ⟨.ok (unitCode r typed).written, Emission.result_eq_ok.2 ⟨hstop, rfl⟩, nofun, nofun, ?_⟩
    rintro ⟨n, hn, hrefused⟩
    have hn' : n.refusal = none := hnone n hn
    rcases refusal_cases n with ⟨-, h⟩ | ⟨-, place, -, h⟩ |
        ⟨i, element, dimensions, values, -, -, h⟩ | ⟨-, htype, hstore⟩
    · exact nomatch hn'.symm.trans h
    · exact nomatch hn'.symm.trans h
    · exact nomatch hn'.symm.trans h
    · simp [htype, hstore] at hrefused
  · have hresult : (unitCode r typed).result = .ok (.error error) := by rw [Emission.result, hstop]
    have hcause : (n.isType = true ∨ n.isUsedStore = true) ∧
        (error = typeError ∨ ∃ place ∈ objectPlaces, error = storeError place) := by
      rcases refusal_cases n with ⟨htype, h⟩ | ⟨hstore, place, hplace, h⟩ |
          ⟨i, element, dimensions, values, harray, hlong, -⟩ | ⟨h, -⟩
      · exact ⟨.inl htype, .inl (Option.some.inj (herror.symm.trans h))⟩
      · exact ⟨.inr hstore, .inr ⟨place, hplace, Option.some.inj (herror.symm.trans h)⟩⟩
      · exact absurd hlong (Nat.not_lt.2 (hfits n hn i element dimensions values harray))
      · exact nomatch herror.symm.trans h
    refine ⟨.error error, hresult, ?_, fun _ => ⟨n, hn, hcause.1⟩, fun _ => ⟨error, rfl⟩⟩
    rintro _ ⟨⟩
    exact hcause.2

/-- The value of a store into a dynamic variable's member resolves. -/
theorem used_store_resolves :
    let R := Registry.bootstrap defaultRoot
    let scopes := Scopes.fresh.declare "a" .dynamic
    Resolve.statement scopes (.declare .origin ⟨"b", none, some (.assign .origin
        (.member .origin (.name .origin "a") "x") (.literal .origin .null)), .origin⟩) ⟨{}, .fresh⟩
        R =
      .ok ⟨(some (.declare .origin "b" .dynamic (some (.assign (.value .dynamic .origin)
        (.dynamicMember ⟨.dynamic, .place, .origin⟩
          (.localVar ⟨.dynamic, .place, .origin⟩ "a") "x")
        (.constant (.value .null .origin) .null)))), scopes.declare "b" .dynamic), [], R⟩ :=
  rfl

/-- A unit with a type that is dropped and a store whose value is used. -/
theorem used_store_is_refused :
    let R := Registry.bootstrap defaultRoot
    let body : List Stmt :=
      [.declare .origin ⟨"a", none, none, .origin⟩,
        .nonAssign .origin (.typeRef .origin (.mk "String" [] 0 .origin)),
        .declare .origin ⟨"b", none, some (.assign .origin
          (.member .origin (.name .origin "a") "x") (.literal .origin .null)), .origin⟩]
    let typed : List TypedStmt :=
      [.declare .origin "a" .dynamic none,
        .nonAssign .origin (.typeRef ⟨.string, .type, .origin⟩),
        .declare .origin "b" .dynamic (some (.assign (.value .dynamic .origin)
          (.dynamicMember ⟨.dynamic, .place, .origin⟩
            (.localVar ⟨.dynamic, .place, .origin⟩ "a") "x")
          (.constant (.value .null .origin) .null)))]
    R.Valid ∧ ∃ o, Resolve.statements .fresh body ⟨{}, .fresh⟩ R = .ok o ∧
      o.value.1 = some typed ∧ o.registry.Valid ∧
      ∃ error, (unitCode o.registry typed).result = .ok (.error error) ∧
        (error = typeError ∨ ∃ place ∈ objectPlaces, error = storeError place) := by
  intro R body typed
  have hR : R.Valid := Registry.bootstrap_valid defaultRoot
  obtain ⟨o, ho, htyped⟩ : ∃ o, Resolve.statements .fresh body ⟨{}, .fresh⟩ R = .ok o ∧
      o.value.1 = some typed :=
    ⟨_, Resolve.statements_cons rfl (Resolve.statements_cons rfl
      (Resolve.statements_cons used_store_resolves rfl)), rfl⟩
  have hfits : ∀ n ∈ keptOf typed, ∀ i element dimensions values,
      n.node = .arrayOf i element dimensions values → values.length ≤ 2 ^ 31 := by
    -- None of the nodes is an array.
    simp [typed, keptOf, kept, inner_eq, TypedExpr.children, TypedExpr.isPure]
  have hused : ∃ n ∈ keptOf typed, n.isType = true ∨ n.isUsedStore = true := by
    simp [typed, keptOf, kept, inner_eq, TypedExpr.children, TypedExpr.isPure,
      Occurrence.isUsedStore, TypedExpr.throughObject]
  obtain ⟨hvalid, hrefused⟩ := refused_iff hR rfl ho htyped hfits
  obtain ⟨result, hresult, htext, hiff⟩ := hrefused o.registry (.refl _) hvalid
  obtain ⟨error, rfl⟩ := hiff.2 hused
  exact ⟨hR, o, ho, htyped, hvalid, error, hresult, htext error rfl⟩

end

end Native

end Dynascript
