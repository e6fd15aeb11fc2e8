import Dynascript.Proofs.Native.Balance
import Dynascript.Proofs.Script.Writing

/-!
# Handles in range

A handle is in range if the registry has a type behind it (`Registry.Has`). The native code of a
tree whose handles are in range of a valid registry names no others and is never stopped by a
dangling one (`Native.unitCode_inRange`). Nothing else is assumed of the tree : it need not be one
that resolution makes, nor one for the native target.

Resolution makes such trees of every unit, from any registry that a program can build and any
variables with types of that registry (`handles_in_range`).
-/

namespace Dynascript

/-! ## Native code -/

/-- The types that an instruction names. -/
def Instr.handles : Instr → List TypeId
  | declareLocal _ type => [type]
  | ldSFld owner _ | stSFld owner _ | ldFld owner _ | stFld owner _ => [owner]
  | call owner _ _ | callVirt owner _ _ => [owner]
  | newObj type _ | castClass type => [type]
  | newArr element | ldElem element | stElem element => [element]
  | newMultiArr array _ | ldElemMulti array _ | stElemMulti array _ => [array]
  | _ => []

namespace Native

variable {r : Registry} {a b em : Emission Instr} {i : Instr} {e : TypedExpr}

/-- What was written names types of the registry only, and the writing did not stop at a dangling
handle. -/
structure InRange (r : Registry) (em : Emission Instr) : Prop where
  written : ∀ i ∈ em.written, ∀ t ∈ i.handles, r.Has t
  answered : em.Answered

theorem inRange_write {items : List Instr} (h : ∀ i ∈ items, ∀ t ∈ i.handles, r.Has t) :
    InRange r (.write items) :=
  ⟨h, Emission.answered_write⟩

theorem inRange_nothing : InRange r .nothing := inRange_write (List.forall_mem_nil _)

theorem inRange_reject {error : EmitError} : InRange r (.reject error) :=
  ⟨List.forall_mem_nil _, Emission.answered_reject⟩

/-- An instruction that names no type. -/
theorem inRange_plain (h : i.handles = []) : InRange r (.write [i]) :=
  inRange_write (List.forall_mem_singleton.2 (by simp [h]))

/-- An instruction that names one type. -/
theorem inRange_one {t : TypeId} (h : i.handles = [t]) (ht : r.Has t) : InRange r (.write [i]) :=
  inRange_write (List.forall_mem_singleton.2 (by simp [h, ht]))

theorem InRange.append (ha : InRange r a) (hb : InRange r b) : InRange r (a ++ b) := by
  refine ⟨?_, ha.answered.append hb.answered⟩
  cases hs : a.stop with
  | none =>
    rw [Emission.written_append hs]
    exact List.forall_mem_append.2 ⟨ha.written, hb.written⟩
  | some stop =>
    rw [Emission.written_append_of_stop hs]
    exact ha.written

theorem inRange_asking {α : Type} {answer : Except Dangling α} {f : α → Emission Instr}
    (h : ∃ x, answer = .ok x ∧ InRange r (f x)) : InRange r (.asking answer f) := by
  obtain ⟨x, rfl, hx⟩ := h
  exact hx

/-- The instruction for an element names the array, what it is made of, or the type that declares
the indexer. -/
theorem elementInstr_inRange {target : TypeId} {late : Instr} {array : TypeId → Nat → Instr}
    {indexer : TypeId → Instr} (hr : r.Valid) (ht : r.Has target) (hlate : late.handles = [])
    (harray : ∀ element rank, (array element rank).handles = [element] ∨
      (array element rank).handles = [target])
    (hindexer : ∀ owner, (indexer owner).handles = [owner]) :
    InRange r (.asking (elementInstr r target late array indexer) fun i => .write [i]) := by
  refine inRange_asking ?_
  obtain ⟨dynamic, hdynamic⟩ := Registry.isDynamic_answers ht
  obtain ⟨found, hfound, helement⟩ := Registry.arrayElement_answers hr ht
  obtain ⟨member, hmember, howner⟩ := Registry.findMember_answers hr ht Member.indexerName
  simp only [elementInstr, hdynamic, hfound, hmember]
  cases dynamic with
  | true => exact ⟨late, rfl, inRange_plain hlate⟩
  | false =>
    cases found with
    | some p =>
      refine ⟨array p.1 p.2, rfl, ?_⟩
      rcases harray p.1 p.2 with h | h
      · exact inRange_one h (helement p rfl)
      · exact inRange_one h ht
    | none =>
      cases member with
      | some p => exact ⟨indexer p.1, rfl, inRange_one (hindexer p.1) (howner p rfl)⟩
      | none => exact ⟨late, rfl, inRange_plain hlate⟩

theorem loadElement_inRange {target : TypeId} (hr : r.Valid) (ht : r.Has target) (args : Nat) :
    InRange r (.asking (loadElement r target args) fun load => .write [load]) := by
  rw [loadElement_eq]
  refine elementInstr_inRange hr ht rfl (fun element rank => ?_) fun owner => rfl
  split
  · exact .inl rfl
  · exact .inr rfl

theorem storeElement_inRange {target : TypeId} (hr : r.Valid) (ht : r.Has target) (args : Nat) :
    InRange r (.asking (storeElement r target args) fun store => .write [store]) := by
  rw [storeElement_eq]
  refine elementInstr_inRange hr ht rfl (fun element rank => ?_) fun owner => rfl
  split
  · exact .inl rfl
  · exact .inr rfl

theorem loadConstant?_handles {value : Constant} (h : loadConstant? value = some i) :
    i.handles = [] := by
  cases value with
  | int n =>
    cases h
    rw [loadInt]
    split <;> rfl
  | regex | xml => cases h
  | string | number | bool | null =>
    cases h
    rfl

/-! ### Expressions -/

theorem codeAll_inRange : ∀ {es : List TypedExpr}, (∀ e ∈ es, InRange r (code r e)) →
    InRange r (codeAll r es)
  | [], _ => inRange_nothing
  | e :: es, h => by
    obtain ⟨he, hes⟩ := List.forall_mem_cons.1 h
    rw [codeAll]
    exact he.append (codeAll_inRange hes)

theorem fill_inRange {type : TypeId} {keyed : Bool} (htype : r.Has type) :
    ∀ {xs : List Initializer}, (∀ x ∈ xs, InRange r (code r x.value)) →
      InRange r (fill r type keyed xs)
  | [], _ => inRange_nothing
  | .element value :: xs, h => by
    obtain ⟨hvalue, hxs⟩ := List.forall_mem_cons.1 h
    rw [fill]
    exact (((inRange_plain rfl).append hvalue).append (inRange_one rfl htype)).append
      (fill_inRange htype hxs)
  | .named name value :: xs, h => by
    obtain ⟨hvalue, hxs⟩ := List.forall_mem_cons.1 h
    have hkey : InRange r (.write [.dup, .ldStr name]) := inRange_write (by simp [Instr.handles])
    rw [fill]
    split
    · exact ((hkey.append hvalue).append (inRange_one rfl htype)).append (fill_inRange htype hxs)
    · exact (((inRange_plain rfl).append hvalue).append (inRange_one rfl htype)).append
        (fill_inRange htype hxs)

theorem loadIndex_inRange (index : Nat) : InRange r (loadIndex index) := by
  rw [loadIndex]
  split
  · exact inRange_write (by simp [Instr.handles])
  · exact inRange_reject

theorem fillArray_inRange {element : TypeId} (helement : r.Has element) :
    ∀ {values : List TypedExpr} {index : Nat}, (∀ e ∈ values, InRange r (code r e)) →
      InRange r (fillArray r element index values)
  | [], _, _ => inRange_nothing
  | value :: values, index, h => by
    obtain ⟨hvalue, hvalues⟩ := List.forall_mem_cons.1 h
    rw [fillArray]
    exact (((loadIndex_inRange index).append hvalue).append (inRange_one rfl helement)).append
      (fillArray_inRange helement hvalues)

/-- The code of a tree in range is in range. -/
theorem code_inRange (hr : r.Valid) (h : e.Within r) : InRange r (code r e) := by
  induction h with
  | @node e here below ih =>
    have htype : r.Has e.type := here e.type List.mem_cons_self
    have hnamed (t : TypeId) (ht : t ∈ e.named) : r.Has t := here t (List.mem_cons_of_mem _ ht)
    cases e with
    | constant info value =>
      rw [code]
      split
      next load hload => exact inRange_plain (loadConstant?_handles hload)
      next => exact inRange_reject
    | localVar => exact inRange_plain rfl
    | typeRef => exact inRange_reject
    | staticField info owner => exact inRange_one rfl (hnamed owner List.mem_cons_self)
    | instanceField info target owner =>
      exact (ih target List.mem_cons_self).append
        (inRange_one rfl (hnamed owner List.mem_cons_self))
    | dynamicMember info target => exact (ih target List.mem_cons_self).append (inRange_plain rfl)
    | cast info operand => exact (ih operand List.mem_cons_self).append (inRange_one rfl htype)
    | element info target args =>
      obtain ⟨htarget, hargs⟩ := List.forall_mem_cons.1 ih
      have hhas : r.Has target.type := TypedExpr.Within.type (below target List.mem_cons_self)
      exact (htarget.append (codeAll_inRange hargs)).append (loadElement_inRange hr hhas _)
    | staticCall info owner method args =>
      exact (codeAll_inRange ih).append (inRange_one rfl (hnamed owner List.mem_cons_self))
    | instanceCall info receiver owner method args =>
      obtain ⟨hreceiver, hargs⟩ := List.forall_mem_cons.1 ih
      exact (hreceiver.append (codeAll_inRange hargs)).append
        (inRange_one rfl (hnamed owner List.mem_cons_self))
    | dynamicCall | dynamicInvoke | dynamicNew =>
      obtain ⟨hreceiver, hargs⟩ := List.forall_mem_cons.1 ih
      exact (hreceiver.append (codeAll_inRange hargs)).append (inRange_plain rfl)
    | new info args => exact (codeAll_inRange ih).append (inRange_one rfl htype)
    | newWith info args initializers =>
      obtain ⟨hargs, hvalues⟩ := List.forall_mem_append.1 ih
      obtain ⟨keyed, hkeyed⟩ := Registry.isDynamicCapable_answers htype
      refine ((codeAll_inRange hargs).append (inRange_one rfl htype)).append ?_
      exact inRange_asking ⟨keyed, hkeyed, fill_inRange htype fun x hx =>
        hvalues _ (List.mem_map_of_mem hx)⟩
    | newArray info element dimensions =>
      refine (codeAll_inRange ih).append ?_
      split
      · exact inRange_one rfl (hnamed element List.mem_cons_self)
      · exact inRange_one rfl htype
    | arrayOf info element dimensions values =>
      obtain ⟨hdimensions, hvalues⟩ := List.forall_mem_append.1 ih
      obtain ⟨array, harray, -⟩ := Registry.arrayElement_answers hr htype
      have helement : r.Has element := hnamed element List.mem_cons_self
      refine inRange_asking ⟨array, harray, ?_⟩
      dsimp only
      split
      · exact ((codeAll_inRange hdimensions).append (inRange_one rfl helement)).append
          (fillArray_inRange helement hvalues)
      · exact inRange_reject
    | assign info target value =>
      have hvalue := ih value (by simp [TypedExpr.children])
      have hown := (below target List.mem_cons_self).here
      cases target with
      | localVar => exact hvalue.append (inRange_write (by simp [Instr.handles]))
      | staticField info' owner name =>
        have howner : r.Has owner := hown owner (by simp [TypedExpr.own, TypedExpr.named])
        exact hvalue.append (inRange_write (by simp [Instr.handles, howner]))
      | _ => exact inRange_reject
    | scriptDelete | scriptNew | scriptTypeof | scriptIn | scriptUndefined | objectLiteral
    | arrayLiteral => exact inRange_reject

theorem store_inRange {target value : TypedExpr} (hr : r.Valid) (htarget : target.Within r)
    (hvalue : InRange r (code r value)) : InRange r (store r target value) := by
  have hcode {c : TypedExpr} (hc : c ∈ target.children) : InRange r (code r c) :=
    code_inRange hr (htarget.child hc)
  have hown := htarget.here
  cases target with
  | localVar => exact hvalue.append (inRange_plain rfl)
  | staticField info owner =>
    exact hvalue.append (inRange_one rfl (hown owner (by simp [TypedExpr.own, TypedExpr.named])))
  | instanceField info object owner =>
    exact ((hcode List.mem_cons_self).append hvalue).append
      (inRange_one rfl (hown owner (by simp [TypedExpr.own, TypedExpr.named])))
  | dynamicMember info object =>
    exact ((hcode List.mem_cons_self).append hvalue).append (inRange_plain rfl)
  | element info object args =>
    have hobject : r.Has object.type := TypedExpr.Within.type (htarget.child List.mem_cons_self)
    have hargs : InRange r (codeAll r args) :=
      codeAll_inRange fun c hc => hcode (List.mem_cons_of_mem _ hc)
    exact (((hcode List.mem_cons_self).append hargs).append hvalue).append
      (storeElement_inRange hr hobject _)
  | _ => exact inRange_reject

theorem discard_inRange (hr : r.Valid) (h : e.Within r) : InRange r (discard r e) := by
  have hcode (e : TypedExpr) (h : e.Within r) :
      InRange r (code r e ++ .write (if e.role.hasValue then [.pop] else [])) := by
    refine (code_inRange hr h).append (inRange_write ?_)
    split <;> simp [Instr.handles]
  cases e with
  | assign info target value =>
    exact store_inRange hr (h.child List.mem_cons_self)
      (code_inRange hr (h.child (by simp [TypedExpr.children])))
  | _ => exact hcode _ h

/-! ### Statements -/

mutual

theorem stmtCode_inRange (hr : r.Valid) :
    ∀ {s : TypedStmt}, s.Within r → InRange r (stmtCode r s)
  | .declare _ name type none, h => inRange_one rfl h.1
  | .declare _ name type (some value), h =>
    ((inRange_one rfl h.1).append (code_inRange hr (h.2 value rfl))).append (inRange_plain rfl)
  | .expr _ e, h => discard_inRange hr h
  | .nonAssign _ e, h => by
    rw [stmtCode]
    split
    · exact inRange_nothing
    · exact discard_inRange hr h
  | .block _ body, h => by
    rw [stmtCode]
    exact unitCode_inRange hr h
  | .localFunction .., _ | .useNamespace .., _ => inRange_nothing

/-- The code of a unit in range is in range. -/
theorem unitCode_inRange (hr : r.Valid) :
    ∀ {body : List TypedStmt}, TypedStmt.AllWithin r body → InRange r (unitCode r body)
  | [], _ => inRange_nothing
  | _ :: _, h => by
    rw [unitCode]
    exact (stmtCode_inRange hr h.1).append (unitCode_inRange hr h.2)

end

end Native

/-! ## Units -/

namespace Resolve

/-- An element of an array has the type that the array is made of. -/
theorem elementOf_array {r : Registry} {cx : Context} {loc : Location} {target : TypedExpr}
    {args : List TypedExpr} {element : TypeId} {rank : Nat}
    (hdynamic : r.isDynamic target.type = .ok false)
    (harray : r.arrayElement target.type = .ok (some (element, rank))) :
    elementOf loc target args cx r =
      .ok ⟨some (.element ⟨element, .place, loc⟩ target args), [], r⟩ := by
  have helement : elementType target.type cx r = .ok ⟨some element, [], r⟩ := by
    simp only [elementType, bind_run, ask, hdynamic, harray, Bool.false_eq_true, if_false]
    rfl
  rw [elementOf, bind_run, helement]
  rfl

end Resolve

/-- No handle dangles. From any registry that a program can build, with any variables that have
types of it, every unit is resolved to an end, and the registry that is left is one that a program
can build. The handles that it stores, the types of the variables and the handles of the resolved
statements are in range of it. Both targets write the statements without meeting a dangling
handle, there and over any valid registry with as many types : the native instructions name types
of the registry, and the types in the statements have their names, which is all that script text
asks of a type. -/
theorem handles_in_range {root : String} {R : Registry}
    (hR : Registry.Built root (fun _ => True) R) (settings : Settings) {scopes : Scopes}
    (hscopes : ∀ t ∈ scopes.types, R.Has t) (body : List Stmt) :
    ∃ o, Resolve.statements scopes body ⟨settings, scopes⟩ R = .ok o ∧
      Registry.Built root (fun _ => True) o.registry ∧ o.registry.Valid ∧ R.Grows o.registry ∧
      (∀ t ∈ o.value.2.types, o.registry.Has t) ∧
      ∀ typed ∈ o.value.1, TypedStmt.AllWithin o.registry typed ∧
        ∀ r : Registry, r.Valid → o.registry.size ≤ r.size →
          Native.InRange r (Native.unitCode r typed) ∧
          (∀ depth, (Script.unitText r depth typed).Answered) ∧
          ∀ tree ∈ TypedStmt.treesOf typed,
            tree.Everywhere fun n => ∀ t ∈ n.own, r.nameOf t = .ok (r.typeName t) := by
  obtain ⟨o, ho, hmakes, hafter, hwithin⟩ :=
    Resolve.statements_in_range hR.valid ⟨settings, scopes⟩ hscopes body
  refine ⟨o, ho, hR.makes hmakes, hmakes.valid hR.valid, hmakes.grows, hafter, ?_⟩
  intro typed htyped
  refine ⟨hwithin typed htyped, fun r hr hsize => ?_⟩
  have hall : TypedStmt.AllWithin r typed := (hwithin typed htyped).of_size_le hsize
  refine ⟨Native.unitCode_inRange hr hall, fun depth => ?_, fun tree htree => ?_⟩
  · exact Script.unitText_answered fun tree htree => (hall.tree tree htree).named hr
  · exact (hall.tree tree htree).mono fun n hn t ht => hr.nameOf (hn t ht)

/-- An element of a variable that is an array of strings : the array is a type that the program
made, and the handle of the variable is its last one. -/
theorem element_in_range :
    let R := ((Registry.bootstrap "app").makeArray .string 1).2
    let scopes := Scopes.fresh.declare "names" ⟨22⟩
    let e : Expr := .element .origin (.name .origin "names") [.literal .origin (.int 0)]
    let tree : TypedExpr := .element ⟨.string, .place, .origin⟩
      (.localVar ⟨⟨22⟩, .place, .origin⟩ "names") [.constant (.value .int .origin) (.int 0)]
    Registry.Built "app" (fun _ => True) R ∧ (∀ t ∈ scopes.types, R.Has t) ∧
      Resolve.statements scopes [.expr .origin e] ⟨{}, scopes⟩ R =
        .ok ⟨(some [.expr .origin tree], scopes), [], R⟩ ∧
      R.Valid ∧ TypedStmt.AllWithin R [.expr .origin tree] ∧
      Native.InRange R (Native.unitCode R [.expr .origin tree]) ∧
      (Script.unitText R 0 [.expr .origin tree]).Answered := by
  intro R scopes e tree
  have hstring : (Registry.bootstrap "app").Has .string :=
    (Registry.bootstrap_valid "app").has (by decide)
  have hbuilt : Registry.Built "app" (fun _ => True) R :=
    .step (.makeArray .string 1) .start trivial (List.forall_mem_singleton.2 hstring) rfl
  have hdynamic : R.isDynamic ⟨22⟩ = .ok false := by decide +kernel
  have harray : R.arrayElement ⟨22⟩ = .ok (some (.string, 1)) := by decide +kernel
  have hsize : R.size = 23 := by decide +kernel
  have hscopes : ∀ t ∈ scopes.types, R.Has t :=
    List.forall_mem_singleton.2 (by rw [Registry.Has, hsize]; decide)
  have hresolved : Resolve.resolve .unknown e ⟨{}, scopes⟩ R = .ok ⟨some tree, [], R⟩ := by
    have hof : Resolve.elementOf .origin (.localVar ⟨⟨22⟩, .place, .origin⟩ "names")
        [.constant (.value .int .origin) (.int 0)] ⟨{}, scopes⟩ R = .ok ⟨some tree, [], R⟩ :=
      Resolve.elementOf_array hdynamic harray
    have htarget : Resolve.resolve .unknown (.name .origin "names") ⟨{}, scopes⟩ R =
        .ok ⟨some (.localVar ⟨⟨22⟩, .place, .origin⟩ "names"), [], R⟩ := rfl
    have hargs : Resolve.resolveAll [.literal .origin (.int 0)] ⟨{}, scopes⟩ R =
        .ok ⟨some [.constant (.value .int .origin) (.int 0)], [], R⟩ := rfl
    rw [Resolve.resolve]
    simp only [Resolve.bind_run, htarget, hargs, Resolve.both, hof, List.nil_append]
  have hunit : Resolve.statements scopes [.expr .origin e] ⟨{}, scopes⟩ R =
      .ok ⟨(some [.expr .origin tree], scopes), [], R⟩ := by
    rw [Resolve.statements, Resolve.statement]
    simp only [bind_assoc]
    rw [Resolve.bind_run, Resolve.under, hresolved]
    rfl
  obtain ⟨o, ho, -, hvalid, -, -, hrange⟩ := handles_in_range hbuilt {} hscopes [.expr .origin e]
  cases hunit.symm.trans ho
  obtain ⟨hwithin, hemitted⟩ := hrange _ rfl
  obtain ⟨hnative, hscript, -⟩ := hemitted R hvalid (Nat.le_refl _)
  exact ⟨hbuilt, hscopes, hunit, hvalid, hwithin, hnative, hscript 0⟩

end Dynascript
