import Dynascript.Proofs.Native.Balance

/-!
# Stack discipline of well-formed trees

The trees here may come from anywhere, and what a call leaves on the stack is not read off a
registry : `Calls` says it for each owner and method. The machine counts the values above a floor
and gets stuck if an instruction would reach below it (`runAbove`); `Lifts k n` is code that finds
`k` values above any floor and leaves `n` there.

A tree is well formed (`WellFormed`) if its operands have values, its calls have a value exactly
if they leave one, and its accesses to native arrays have one index for each dimension. Such a
tree and the statements made of such trees keep to the stack : `code_lifts`, `stmtCode_lifts`, and
for the code that the emitter returns `code_keeps_floor`.
-/

namespace Dynascript

namespace TypedExpr

/-- The parts of a node whose values its code uses : all but the place that an assignment goes
to. -/
def operands : TypedExpr → List TypedExpr
  | assign _ _ value => [value]
  | e => e.children

/-- The owner and the method of a call that is bound to one. -/
def callee? : TypedExpr → Option (TypeId × String)
  | staticCall _ owner method _ | instanceCall _ _ owner method _ => some (owner, method)
  | _ => none

theorem operands_subset (e : TypedExpr) : e.operands ⊆ e.children := by
  cases e with
  | assign => simp [operands, children]
  | _ => exact List.Subset.refl _

end TypedExpr

namespace Native

/-- Which calls leave a result. The getter of an indexer does, and the setter does not. -/
structure Calls where
  pushes : TypeId → String → Bool
  get : ∀ owner, pushes owner indexerGet = true
  set : ∀ owner, pushes owner indexerSet = false

/-- The number of values an instruction leaves. -/
def Calls.leaves (calls : Calls) (r : Registry) : Instr → Nat
  | .call owner method _ | .callVirt owner method _ => (calls.pushes owner method).toNat
  | i => i.gives r

/-- What a node has to keep to. -/
structure WellFormed (r : Registry) (calls : Calls) (e : TypedExpr) : Prop where
  /-- What stands in the position of a value has one. -/
  operands : ∀ c ∈ e.operands, c.role.hasValue = true
  /-- A call has nothing exactly if it leaves nothing. -/
  call : ∀ owner method, e.callee? = some (owner, method) →
    (e.role = .nothing ↔ calls.pushes owner method = false)
  /-- Only calls have nothing. -/
  nothing : e.callee? = none → e.role ≠ .nothing
  /-- Only references to types are types. -/
  type : e.role = .type → ∃ i, e = .typeRef i
  /-- A native array has an index for each dimension. -/
  indices : ∀ i target args element rank, e = .element i target args →
    r.arrayElement target.type = .ok (some (element, rank)) → args.length = rank
  /-- Adding to a collection that is filled leaves nothing. -/
  adds : ∀ i args initializers value, e = .newWith i args initializers →
    .element value ∈ initializers → calls.pushes i.type addMethod = false

mutual

/-- A statement of well-formed trees; the value that a variable starts with is one. -/
def StmtWellFormed (r : Registry) (calls : Calls) : TypedStmt → Prop
  | .declare _ _ _ initializer =>
    ∀ e ∈ initializer, e.role.hasValue = true ∧ e.Everywhere (WellFormed r calls)
  | .expr _ e | .nonAssign _ e => e.Everywhere (WellFormed r calls)
  | .block _ body => BodyWellFormed r calls body
  | .localFunction .. | .useNamespace .. => True

def BodyWellFormed (r : Registry) (calls : Calls) : List TypedStmt → Prop
  | [] => True
  | s :: rest => StmtWellFormed r calls s ∧ BodyWellFormed r calls rest

end

/-! ## The machine -/

/-- The height after one instruction, if it stays above the floor. -/
def stepAbove (r : Registry) (calls : Calls) (floor h : Nat) (i : Instr) : Option Nat :=
  if floor + i.takes ≤ h then some (h - i.takes + calls.leaves r i) else none

/-- The height after instructions, if they stay above the floor. -/
def runAbove (r : Registry) (calls : Calls) (floor h : Nat) (code : List Instr) : Option Nat :=
  code.foldlM (stepAbove r calls floor) h

variable {r : Registry} {calls : Calls} {floor h h' j k m n : Nat} {a b : List Instr}

theorem runAbove_cons (i : Instr) (code : List Instr) :
    runAbove r calls floor h (i :: code) =
      (stepAbove r calls floor h i).bind fun m => runAbove r calls floor m code := by
  simp only [runAbove, List.foldlM_cons]
  rfl

theorem runAbove_append :
    runAbove r calls floor h (a ++ b) =
      (runAbove r calls floor h a).bind fun m => runAbove r calls floor m b := by
  simp only [runAbove, List.foldlM_append]
  rfl

/-- A run that stays above a floor stays above any lower one. -/
theorem runAbove_lower {code : List Instr}
    (hrun : runAbove r calls (floor + j) h code = some h') :
    runAbove r calls floor h code = some h' := by
  induction code generalizing h with
  | nil => exact hrun
  | cons i code ih =>
    rw [runAbove_cons] at hrun ⊢
    obtain ⟨m, hm, hrun⟩ := Option.bind_eq_some_iff.1 hrun
    have hstep : stepAbove r calls floor h i = some m := by
      unfold stepAbove at hm ⊢
      split at hm
      · rwa [if_pos (by omega)]
      · cases hm
    rw [hstep]
    exact ih hrun

/-- Where `k` values are ready above the floor, the code leaves `n` in their place. -/
def Lifts (r : Registry) (calls : Calls) (k n : Nat) (code : List Instr) : Prop :=
  ∀ floor, runAbove r calls floor (floor + k) code = some (floor + n)

theorem lifts_nil : Lifts r calls k k [] := fun _ => rfl

/-- One instruction, above `j` values that it leaves alone. -/
theorem lifts_instr {i : Instr} (j : Nat) (hk : j + i.takes = k)
    (hn : j + calls.leaves r i = n) : Lifts r calls k n [i] := by
  intro floor
  have hstep : stepAbove r calls floor (floor + k) i = some (floor + n) := by
    rw [stepAbove, if_pos (by omega)]
    congr 1
    omega
  rw [runAbove_cons, hstep]
  rfl

theorem Lifts.append (ha : Lifts r calls k m a) (hb : Lifts r calls m n b) :
    Lifts r calls k n (a ++ b) := by
  intro floor
  rw [runAbove_append, ha floor]
  exact hb floor

/-- Values that lie above the floor already are another floor. -/
theorem Lifts.above (ha : Lifts r calls k n a) (j : Nat) :
    Lifts r calls (j + k) (j + n) a := by
  intro floor
  rw [← Nat.add_assoc, ← Nat.add_assoc]
  exact runAbove_lower (ha (floor + j))

variable {x y : Emission Instr}

theorem lifts_then (hx : x.Yields (Lifts r calls k m)) (hy : y.Yields (Lifts r calls m n)) :
    (x ++ y).Yields (Lifts r calls k n) :=
  hx.append hy fun _ _ => Lifts.append

theorem lifts_above (hx : x.Yields (Lifts r calls k n)) (j : Nat) :
    x.Yields (Lifts r calls (j + k) (j + n)) :=
  hx.mono fun _ h => h.above j

theorem lifts_write {i : Instr} (j : Nat) (hk : j + i.takes = k)
    (hn : j + calls.leaves r i = n) : (Emission.write [i]).Yields (Lifts r calls k n) :=
  Emission.yields_write (lifts_instr j hk hn)

/-! ## Parts of trees -/

/-- The code leaves the value of the tree. -/
def Leaves (r : Registry) (calls : Calls) (e : TypedExpr) : Prop :=
  (code r e).Yields (Lifts r calls 0 1)

theorem codeAll_lifts :
    ∀ {es : List TypedExpr}, (∀ e ∈ es, Leaves r calls e) →
      (codeAll r es).Yields (Lifts r calls 0 es.length)
  | [], _ => Emission.yields_write lifts_nil
  | e :: es, h => by
    obtain ⟨he, hes⟩ := List.forall_mem_cons.1 h
    have hall := lifts_then he (lifts_above (codeAll_lifts hes) 1)
    rwa [Nat.add_comm 1 es.length] at hall

/-- Operands, and then one instruction that takes them all. -/
theorem apply_lifts {es : List TypedExpr} {i : Instr} (hes : ∀ e ∈ es, Leaves r calls e)
    (hk : i.takes = es.length) (hn : calls.leaves r i = n) :
    (codeAll r es ++ .write [i]).Yields (Lifts r calls 0 n) :=
  lifts_then (codeAll_lifts hes) (lifts_write 0 (by omega) (by omega))

theorem apply_one_lifts {e : TypedExpr} {i : Instr} (he : Leaves r calls e) (hk : i.takes = 1)
    (hn : calls.leaves r i = n) : (code r e ++ .write [i]).Yields (Lifts r calls 0 n) :=
  lifts_then he (lifts_write 0 (by omega) (by omega))

/-- The instruction for an element takes the target, the indices and what else there is (`extra`),
if a native array has as many dimensions as there are indices. -/
theorem elementInstr_effect {target : TypeId} {args extra : Nat} {late i : Instr}
    {array : TypeId → Nat → Instr} {indexer : TypeId → Instr}
    (hrank : ∀ element rank, r.arrayElement target = .ok (some (element, rank)) → args = rank)
    (hlate : late.takes = args + extra ∧ calls.leaves r late = n)
    (hindexer : ∀ owner, (indexer owner).takes = args + extra ∧ calls.leaves r (indexer owner) = n)
    (harray : ∀ element rank, (array element rank).takes = rank + extra ∧
      calls.leaves r (array element rank) = n)
    (h : elementInstr r target late array indexer = .ok i) :
    i.takes = args + extra ∧ calls.leaves r i = n := by
  refine elementInstr_cases (p := fun i => i.takes = args + extra ∧ calls.leaves r i = n)
    (fun element rank _ hfound => ?_) (fun _ => ⟨hlate, hindexer⟩) h
  rw [hrank element rank hfound]
  exact harray element rank

theorem loadElement_effect (calls : Calls) {target : TypeId} {args : Nat} {load : Instr}
    (hrank : ∀ element rank, r.arrayElement target = .ok (some (element, rank)) → args = rank)
    (h : loadElement r target args = .ok load) :
    load.takes = args + 1 ∧ calls.leaves r load = 1 := by
  rw [loadElement_eq] at h
  refine elementInstr_effect hrank ⟨rfl, rfl⟩ (fun owner => ?_) (fun element rank => ?_) h
  · exact ⟨rfl, by rw [Calls.leaves, calls.get, Bool.toNat_true]⟩
  · split
    · rename_i hone
      exact ⟨by rw [hone, Instr.takes], rfl⟩
    · exact ⟨rfl, rfl⟩

theorem storeElement_effect (calls : Calls) {target : TypeId} {args : Nat} {store : Instr}
    (hrank : ∀ element rank, r.arrayElement target = .ok (some (element, rank)) → args = rank)
    (h : storeElement r target args = .ok store) :
    store.takes = args + 2 ∧ calls.leaves r store = 0 := by
  rw [storeElement_eq] at h
  refine elementInstr_effect hrank ⟨rfl, rfl⟩ (fun owner => ?_) (fun element rank => ?_) h
  · exact ⟨rfl, by rw [Calls.leaves, calls.set, Bool.toNat_false]⟩
  · split
    · rename_i hone
      exact ⟨by rw [hone, Instr.takes], rfl⟩
    · exact ⟨rfl, rfl⟩

/-- The new object is doubled, and the copy is used up by storing one value into it. -/
theorem filled_lifts {value : TypedExpr} {load : List Instr} {store : Instr} (extra : Nat)
    (hvalue : Leaves r calls value) (hload : Lifts r calls 1 (2 + extra) load)
    (htakes : store.takes = extra + 2) (hleaves : calls.leaves r store = 0)
    (hx : x.Yields (Lifts r calls 1 1)) :
    (Emission.write load ++ code r value ++ .write [store] ++ x).Yields (Lifts r calls 1 1) :=
  have hready := lifts_then (Emission.yields_write hload) (lifts_above hvalue (2 + extra))
  lifts_then (lifts_then hready (lifts_write 1 (by omega) (by omega))) hx

theorem lifts_dup : Lifts r calls 1 2 [.dup] := lifts_instr 0 rfl rfl

/-- Filling leaves the new object where it was. -/
theorem fill_lifts (type : TypeId) (keyed : Bool) :
    ∀ {initializers : List Initializer}, (∀ x ∈ initializers, Leaves r calls x.value) →
      (∀ value, .element value ∈ initializers → calls.pushes type addMethod = false) →
      (fill r type keyed initializers).Yields (Lifts r calls 1 1)
  | [], _, _ => Emission.yields_write lifts_nil
  | x :: rest, hvalues, hadds => by
    obtain ⟨hvalue, hvalues⟩ := List.forall_mem_cons.1 hvalues
    have hrest := fill_lifts type keyed hvalues fun value hx =>
      hadds value (List.mem_cons_of_mem _ hx)
    cases x with
    | element value =>
      have hadd : calls.leaves r (.callVirt type addMethod 1) = 0 := by
        rw [Calls.leaves, hadds value List.mem_cons_self, Bool.toNat_false]
      exact filled_lifts 0 hvalue lifts_dup rfl hadd hrest
    | named name value =>
      rw [fill]
      split
      · have hset : calls.leaves r (.callVirt type indexerSet 2) = 0 := by
          rw [Calls.leaves, calls.set, Bool.toNat_false]
        have hkey : Lifts r calls 2 3 [.ldStr name] := lifts_instr 2 rfl rfl
        exact filled_lifts 1 hvalue (lifts_dup.append hkey) rfl hset hrest
      · exact filled_lifts 0 hvalue lifts_dup rfl rfl hrest

/-- Filling leaves the new array where it was. -/
theorem fillArray_lifts (element : TypeId) :
    ∀ {values : List TypedExpr} (index : Nat), (∀ e ∈ values, Leaves r calls e) →
      (fillArray r element index values).Yields (Lifts r calls 1 1)
  | [], _, _ => Emission.yields_write lifts_nil
  | value :: rest, index, h => by
    obtain ⟨hvalue, hrest⟩ := List.forall_mem_cons.1 h
    rw [fillArray, loadIndex]
    split
    · have hindex : Lifts r calls 2 3 [.ldcI4 (Int32.ofNat index)] := lifts_instr 2 rfl rfl
      exact filled_lifts 1 hvalue (lifts_dup.append hindex) rfl rfl
        (fillArray_lifts element (index + 1) hrest)
    · exact Emission.yields_reject

/-! ## Expressions -/

/-- A node that is neither a call nor a type has a value. -/
theorem WellFormed.hasValue {e : TypedExpr} (he : WellFormed r calls e) (hcall : e.callee? = none)
    (htype : ∀ i, e ≠ .typeRef i) : e.role.hasValue = true := by
  cases hrole : e.role with
  | value | place => rfl
  | type =>
    obtain ⟨i, hi⟩ := he.type hrole
    exact absurd hi (htype i)
  | nothing => exact absurd hrole (he.nothing hcall)

/-- A call has a value if it leaves one. -/
theorem WellFormed.hasValue_call {e : TypedExpr} {owner : TypeId} {method : String}
    (he : WellFormed r calls e) (hcall : e.callee? = some (owner, method)) :
    e.role.hasValue = calls.pushes owner method := by
  have hiff := he.call owner method hcall
  cases hrole : e.role with
  | value | place => cases hpushes : calls.pushes owner method <;> simp_all [Role.hasValue]
  | type =>
    obtain ⟨i, rfl⟩ := he.type hrole
    cases hcall
  | nothing => rw [hiff.1 hrole, Role.hasValue]

theorem constant_lifts (info : Info) (value : Constant) : Leaves r calls (.constant info value) := by
  cases value with
  | int i =>
    refine lifts_write (i := loadInt i) 0 ?_ ?_ <;>
    · unfold loadInt
      split <;> rfl
  | string | number | bool | null => exact lifts_write 0 rfl rfl
  | regex | xml => exact Emission.yields_reject

theorem newWith_lifts {info : Info} {args : List TypedExpr} {initializers : List Initializer}
    (he : WellFormed r calls (.newWith info args initializers))
    (hparts : ∀ c ∈ args ++ initializers.map Initializer.value, Leaves r calls c) :
    Leaves r calls (.newWith info args initializers) := by
  obtain ⟨hargs, hvalues⟩ := List.forall_mem_append.1 hparts
  have hnew := apply_lifts (i := .newObj info.type args.length) hargs rfl rfl
  refine lifts_then hnew (Emission.yields_asking fun keyed _ => ?_)
  exact fill_lifts info.type keyed (fun x hx => hvalues _ (List.mem_map_of_mem hx)) fun value hx =>
    he.adds info args initializers value rfl hx

theorem arrayOf_lifts {info : Info} {element : TypeId} {dimensions values : List TypedExpr}
    (hparts : ∀ c ∈ dimensions ++ values, Leaves r calls c) :
    Leaves r calls (.arrayOf info element dimensions values) := by
  obtain ⟨hdimensions, hvalues⟩ := List.forall_mem_append.1 hparts
  refine Emission.yields_asking fun array _ => ?_
  dsimp only
  split
  · rename_i hshape
    have hnew := apply_lifts (i := .newArr element) hdimensions hshape.1.symm rfl
    exact lifts_then hnew (fillArray_lifts element 0 hvalues)
  · exact Emission.yields_reject

/-- An assignment whose value is used stores a copy of it. -/
theorem assign_lifts {info : Info} {target value : TypedExpr} (hvalue : Leaves r calls value) :
    Leaves r calls (.assign info target value) := by
  have stored (store : Instr) (htakes : store.takes = 1) (hleaves : calls.leaves r store = 0) :
      (code r value ++ .write [.dup, store]).Yields (Lifts r calls 0 1) :=
    lifts_then hvalue (Emission.yields_write
      (lifts_dup.append (lifts_instr 1 (by omega) (by omega))))
  unfold Leaves code
  split
  · exact stored _ rfl rfl
  · exact stored _ rfl rfl
  · exact Emission.yields_reject

/-- The code of a well-formed tree leaves its value, or nothing if it has none. -/
theorem code_lifts {e : TypedExpr} (he : e.Everywhere (WellFormed r calls)) :
    (code r e).Yields (Lifts r calls 0 e.role.hasValue.toNat) := by
  induction he with
  | @node e here below ih =>
    have hparts : ∀ c ∈ e.operands, Leaves r calls c := by
      intro c hc
      have hcode := ih c (e.operands_subset hc)
      rwa [here.operands c hc] at hcode
    -- All but calls and types leave one value.
    have one (hcall : e.callee? = none) (htype : ∀ i, e ≠ .typeRef i)
        (hcode : Leaves r calls e) : (code r e).Yields (Lifts r calls 0 e.role.hasValue.toNat) := by
      rw [here.hasValue hcall htype]
      exact hcode
    cases e with
    | typeRef => exact Emission.yields_reject
    | staticCall info owner method args =>
      rw [here.hasValue_call rfl]
      exact apply_lifts hparts rfl rfl
    | instanceCall info receiver owner method args =>
      rw [here.hasValue_call rfl]
      exact apply_lifts (i := .callVirt owner method args.length) hparts rfl rfl
    | constant info value => exact one rfl (by simp) (constant_lifts info value)
    | localVar | staticField => exact one rfl (by simp) (lifts_write 0 rfl rfl)
    | instanceField | dynamicMember | cast =>
      exact one rfl (by simp) (apply_one_lifts (hparts _ List.mem_cons_self) rfl rfl)
    | element info target args =>
      refine one rfl (by simp) (lifts_then (codeAll_lifts hparts)
        (Emission.yields_asking fun load hload => ?_))
      obtain ⟨htakes, hleaves⟩ := loadElement_effect calls
        (fun element rank => here.indices info target args element rank rfl) hload
      exact lifts_write 0 (by simp [htakes, TypedExpr.operands, TypedExpr.children]) (by omega)
    | dynamicCall info receiver method args =>
      exact one rfl (by simp) (apply_lifts (i := .dynamicCall method args.length) hparts rfl rfl)
    | dynamicInvoke info callee args =>
      exact one rfl (by simp) (apply_lifts (i := .dynamicInvoke args.length) hparts rfl rfl)
    | new info args =>
      exact one rfl (by simp) (apply_lifts (i := .newObj info.type args.length) hparts rfl rfl)
    | dynamicNew info callee args =>
      exact one rfl (by simp) (apply_lifts (i := .dynamicNew args.length) hparts rfl rfl)
    | newWith => exact one rfl (by simp) (newWith_lifts here hparts)
    | newArray info element dimensions =>
      refine one rfl (by simp) (apply_lifts hparts ?_ ?_)
      · split
        · rename_i hone
          exact hone.symm
        · rfl
      · split <;> rfl
    | arrayOf => exact one rfl (by simp) (arrayOf_lifts hparts)
    | assign => exact one rfl (by simp) (assign_lifts (hparts _ List.mem_cons_self))
    | scriptDelete | scriptNew | scriptTypeof | scriptIn | scriptUndefined | objectLiteral
    | arrayLiteral => exact Emission.yields_reject

theorem leaves_of_hasValue {e : TypedExpr} (he : e.Everywhere (WellFormed r calls))
    (hvalue : e.role.hasValue = true) : Leaves r calls e := by
  have hcode := code_lifts he
  rwa [hvalue] at hcode

/-! ## Statements -/

/-- The parts of a place, the value, and then the instruction that stores. -/
theorem stored_lifts {parts : List TypedExpr} {value : TypedExpr}
    (hparts : ∀ c ∈ parts, Leaves r calls c) (hvalue : Leaves r calls value)
    (hx : x.Yields (Lifts r calls (parts.length + 1) 0)) :
    (codeAll r parts ++ code r value ++ x).Yields (Lifts r calls 0 0) :=
  lifts_then (lifts_then (codeAll_lifts hparts) (lifts_above hvalue _)) hx

theorem store_lifts {target value : TypedExpr} (htarget : target.Everywhere (WellFormed r calls))
    (hvalue : Leaves r calls value) : (store r target value).Yields (Lifts r calls 0 0) := by
  have hparts : ∀ c ∈ target.operands, Leaves r calls c := fun c hc =>
    leaves_of_hasValue (htarget.child (target.operands_subset hc)) (htarget.here.operands c hc)
  cases target with
  | localVar | staticField => exact apply_one_lifts hvalue rfl rfl
  | instanceField info object | dynamicMember info object =>
    rw [store, ← codeAll_singleton object]
    exact stored_lifts hparts hvalue (lifts_write 0 rfl rfl)
  | element info object args =>
    refine stored_lifts hparts hvalue (Emission.yields_asking fun store hstore => ?_)
    obtain ⟨htakes, hleaves⟩ := storeElement_effect calls
      (fun element rank => htarget.here.indices info object args element rank rfl) hstore
    exact lifts_write 0 (by simp [htakes, TypedExpr.operands, TypedExpr.children]) (by omega)
  | _ => exact Emission.yields_reject

/-- An expression whose value is not used leaves nothing. -/
theorem discard_lifts {e : TypedExpr} (he : e.Everywhere (WellFormed r calls)) :
    (discard r e).Yields (Lifts r calls 0 0) := by
  unfold discard
  split
  · rename_i info target value
    have hvalue : value.role.hasValue = true := he.here.operands value List.mem_cons_self
    have htarget := he.child (c := target) (by simp [TypedExpr.children])
    have hchild := he.child (c := value) (by simp [TypedExpr.children])
    exact store_lifts htarget (leaves_of_hasValue hchild hvalue)
  · refine lifts_then (code_lifts he) ?_
    cases e.role.hasValue with
    | true => exact lifts_write 0 rfl rfl
    | false => exact Emission.yields_write lifts_nil

mutual

theorem stmtCode_lifts :
    ∀ {s : TypedStmt}, StmtWellFormed r calls s → (stmtCode r s).Yields (Lifts r calls 0 0)
  | .declare _ name type none, _ => lifts_write 0 rfl rfl
  | .declare _ name type (some value), h => by
    obtain ⟨hvalue, hwell⟩ := h value rfl
    have hdeclare : (Emission.write [Instr.declareLocal name type]).Yields (Lifts r calls 0 0) :=
      lifts_write 0 rfl rfl
    exact lifts_then (lifts_then hdeclare (leaves_of_hasValue hwell hvalue)) (lifts_write 0 rfl rfl)
  | .expr _ e, h => discard_lifts h
  | .nonAssign _ e, h => by
    rw [stmtCode]
    split
    · exact Emission.yields_write lifts_nil
    · exact discard_lifts h
  | .block _ body, h => unitCode_lifts h
  | .localFunction .., _ | .useNamespace .., _ => Emission.yields_write lifts_nil

theorem unitCode_lifts :
    ∀ {body : List TypedStmt}, BodyWellFormed r calls body →
      (unitCode r body).Yields (Lifts r calls 0 0)
  | [], _ => Emission.yields_write lifts_nil
  | _ :: _, h => lifts_then (stmtCode_lifts h.1) (unitCode_lifts h.2)

end

/-- What is emitted for a well-formed tree, run from any height, never takes a value from below
and ends one higher if the tree has a value and at the same height if it has none. What is emitted
for a statement of such trees ends at the same height. -/
theorem code_keeps_floor (r : Registry) (calls : Calls) :
    (∀ e instrs, e.Everywhere (WellFormed r calls) → (code r e).result = .ok (.ok instrs) →
      ∀ h, runAbove r calls h h instrs = some (if e.role.hasValue then h + 1 else h)) ∧
    ∀ s instrs, StmtWellFormed r calls s → (stmtCode r s).result = .ok (.ok instrs) →
      ∀ h, runAbove r calls h h instrs = some h := by
  constructor
  · intro e instrs he hcode h
    obtain ⟨hstop, rfl⟩ := Emission.result_eq_ok.1 hcode
    have hrun := code_lifts he hstop h
    cases hvalue : e.role.hasValue <;> simpa [hvalue] using hrun
  · intro s instrs hs hcode h
    obtain ⟨hstop, rfl⟩ := Emission.result_eq_ok.1 hcode
    exact stmtCode_lifts hs hstop h

/-- Calls that leave a result unless they set or add something. -/
def Calls.plain : Calls where
  pushes _ method := method != indexerSet && method != addMethod
  get _ := rfl
  set _ := rfl

/-- `push` called on a new collection that is filled with one element : for its value, and as a
statement in a block of a block. -/
theorem filled_collection_keeps_floor :
    let r := Registry.bootstrap "app"
    let null : TypedExpr := .constant (.value .null .origin) .null
    let filled : TypedExpr := .newWith (.value .array .origin) [] [.element null]
    let e : TypedExpr := .instanceCall (.value .uint .origin) filled .array "push" [null]
    let instrs : List Instr := [.newObj .array 0, .dup, .ldNull, .callVirt .array addMethod 1,
      .ldNull, .callVirt .array "push" 1]
    let s : TypedStmt := .block .origin [.block .origin [.expr .origin e]]
    e.Everywhere (WellFormed r .plain) ∧ (code r e).result = .ok (.ok instrs) ∧
      (∀ h, runAbove r .plain h h instrs = some (h + 1)) ∧
      StmtWellFormed r .plain s ∧ (stmtCode r s).result = .ok (.ok (instrs ++ [.pop])) ∧
      ∀ h, runAbove r .plain h h (instrs ++ [.pop]) = some h := by
  intro r null filled e instrs s
  have hnull : null.Everywhere (WellFormed r .plain) := by
    refine .node ?_ (by simp [null, TypedExpr.children])
    constructor <;> simp [null, TypedExpr.operands, TypedExpr.children, TypedExpr.callee?,
      TypedExpr.role, TypedExpr.info, Info.value]
  have hfilled : filled.Everywhere (WellFormed r .plain) := by
    refine .node ?_ (by simpa [filled, TypedExpr.children, Initializer.value] using hnull)
    constructor <;> simp [filled, null, TypedExpr.operands, TypedExpr.children, TypedExpr.callee?,
      TypedExpr.role, TypedExpr.info, Info.value, Initializer.value, Role.hasValue, Calls.plain]
  have he : e.Everywhere (WellFormed r .plain) := by
    refine .node ?_ (by simpa [e, TypedExpr.children] using ⟨hfilled, hnull⟩)
    constructor <;> simp [e, filled, null, TypedExpr.operands, TypedExpr.children,
      TypedExpr.callee?, TypedExpr.role, TypedExpr.info, Info.value, Role.hasValue, Calls.plain,
      indexerSet, addMethod]
  have hcode : (code r e).result = .ok (.ok instrs) := by rfl
  have hs : StmtWellFormed r .plain s := ⟨⟨he, trivial⟩, trivial⟩
  have hstmt : (stmtCode r s).result = .ok (.ok (instrs ++ [.pop])) := by rfl
  obtain ⟨hexpr, hstmts⟩ := code_keeps_floor r .plain
  exact ⟨he, hcode, hexpr e instrs he hcode, hs, hstmt, hstmts s _ hs hstmt⟩

end Native

end Dynascript
