import Dynascript.Proofs.Native.Height
import Dynascript.Proofs.Resolve.Units

/-!
# Balance of native code

The code of an expression is meant to leave one value, and the code of a statement none.
Four kinds of nodes miss that, and `surplus` says by how much : a call that has no value but
stands where one is needed; an element of a native array with more or fewer indices than
dimensions; a collection whose method for adding gives a value, once for each element of its
initializer; and a method that is named like an accessor of an indexer but gives what the
accessor does not. `code_moves` says that these are all.
-/

namespace Dynascript

/-- The value is added to a collection. -/
def Initializer.isElement : Initializer → Bool
  | element _ => true
  | named .. => false

namespace Native

open Resolve

variable {r : Registry} {cx : Context}

/-- The indices beyond, or short of, the dimensions of a native array. -/
def indexSurplus (r : Registry) (target : TypeId) (args : Nat) : Int :=
  match r.isDynamic target, r.arrayElement target with
  | .ok false, .ok (some (_, rank)) => args - rank
  | _, _ => 0

/-- Each element that is added leaves what the method for adding gives. -/
def fillSurplus (r : Registry) (type : TypeId) (initializers : List Initializer) : Int :=
  (initializers.countP Initializer.isElement * callGives r type addMethod : Nat)

/-- How many values more than one the node itself leaves if its parts leave one each. -/
def surplus (r : Registry) : TypedExpr → Int
  | .element _ target args => indexSurplus r target.type args.length
  | .staticCall i _ _ _ => if i.role = .nothing then -1 else 0
  | .instanceCall i _ _ method _ =>
    if method = indexerGet then 0
    else if method = indexerSet ∨ i.role = .nothing then -1
    else 0
  | .newWith i _ initializers => fillSurplus r i.type initializers
  | _ => 0

/-- The imbalances of all nodes of a tree whose value is used. -/
def imbalances (r : Registry) (e : TypedExpr) : List Int := e.nodes.map (surplus r)

theorem imbalances_eq (r : Registry) (e : TypedExpr) :
    imbalances r e = surplus r e :: e.children.flatMap (imbalances r) := by
  rw [imbalances, TypedExpr.nodes_eq, List.map_cons, List.map_flatMap]
  rfl

/-- The imbalances of a tree whose value is not used : where the node has a value, it is taken
off the stack. -/
def unusedImbalances (r : Registry) (e : TypedExpr) : List Int :=
  (surplus r e + if e.role.hasValue then 0 else 1) :: e.children.flatMap (imbalances r)

mutual

/-- The imbalances of a statement. -/
def stmtImbalances (r : Registry) : TypedStmt → List Int
  | .declare _ _ _ initializer => initializer.toList.flatMap (imbalances r)
  | .expr _ e => unusedImbalances r e
  | .nonAssign _ e => if e.isPure then [] else unusedImbalances r e
  | .block _ body => bodyImbalances r body
  | .localFunction .. | .useNamespace .. => []

def bodyImbalances (r : Registry) : List TypedStmt → List Int
  | [] => []
  | s :: rest => stmtImbalances r s ++ bodyImbalances r rest

end

/-! ## Calls -/

theorem callGives_of_hasMethod {owner : TypeId} {method : String} {isStatic : Bool}
    {result : TypeId} (h : r.HasMethod owner method isStatic owner result) :
    callGives r owner method = if result = .void then 0 else 1 := by
  obtain ⟨parameters, hfind⟩ := h
  simp only [callGives, hfind]

/-! ## Elements -/

/-- The instruction for an element : `late` if it is found when the program runs, `array` for
a native array, `indexer` for a type that declares one. -/
def elementInstr (r : Registry) (target : TypeId) (late : Instr) (array : TypeId → Nat → Instr)
    (indexer : TypeId → Instr) : Except Dangling Instr := do
  if ← r.isDynamic target then return late
  match ← r.arrayElement target with
  | some (element, rank) => return array element rank
  | none =>
    match ← r.findMember target Member.indexerName with
    | some (owner, _) => return indexer owner
    | none => return late

theorem loadElement_eq (r : Registry) (target : TypeId) (args : Nat) :
    loadElement r target args = elementInstr r target (.dynamicGetIndex args)
      (fun element rank => if rank = 1 then .ldElem element else .ldElemMulti target rank)
      (.callVirt · indexerGet args) :=
  rfl

theorem storeElement_eq (r : Registry) (target : TypeId) (args : Nat) :
    storeElement r target args = elementInstr r target (.dynamicSetIndex args)
      (fun element rank => if rank = 1 then .stElem element else .stElemMulti target rank)
      (.callVirt · indexerSet (args + 1)) :=
  rfl

/-- What holds of the instruction for an array if the target is one, and of the others if it
is not, holds of the instruction for the element. -/
theorem elementInstr_cases {p : Instr → Prop} {target : TypeId} {late i : Instr}
    {array : TypeId → Nat → Instr} {indexer : TypeId → Instr}
    (harray : ∀ element rank, r.isDynamic target = .ok false →
      r.arrayElement target = .ok (some (element, rank)) → p (array element rank))
    (hother : (r.isDynamic target = .ok true ∨
      r.isDynamic target = .ok false ∧ r.arrayElement target = .ok none) →
        p late ∧ ∀ owner, p (indexer owner))
    (h : elementInstr r target late array indexer = .ok i) : p i := by
  obtain ⟨dynamic, hdynamic, h⟩ := bind_eq_ok.1 h
  cases dynamic with
  | true =>
    cases h
    exact (hother (.inl hdynamic)).1
  | false =>
    obtain ⟨found, hfound, h⟩ := bind_eq_ok.1 h
    cases found with
    | some found =>
      cases h
      exact harray _ _ hdynamic hfound
    | none =>
      obtain ⟨hlate, hindexer⟩ := hother (.inr ⟨hdynamic, hfound⟩)
      obtain ⟨member, -, h⟩ := bind_eq_ok.1 h
      cases member <;> cases h
      · exact hlate
      · exact hindexer _

/-- Only the instruction for an array can miss, by its indices. -/
theorem elementInstr_misses {target : TypeId} {args k n : Nat} {late i : Instr}
    {array : TypeId → Nat → Instr} {indexer : TypeId → Instr}
    (hlate : Misses r k n 0 late) (hindexer : ∀ owner, Misses r k n 0 (indexer owner))
    (harray : ∀ (element : TypeId) (rank : Nat), Misses r k n (args - rank) (array element rank))
    (h : elementInstr r target late array indexer = .ok i) :
    Misses r k n (indexSurplus r target args) i := by
  refine elementInstr_cases (fun element rank hdynamic hfound => ?_) (fun hother => ?_) h
  · simpa only [indexSurplus, hdynamic, hfound] using harray element rank
  · rcases hother with hdynamic | ⟨hdynamic, hfound⟩
    · simpa only [indexSurplus, hdynamic] using ⟨hlate, hindexer⟩
    · simpa only [indexSurplus, hdynamic, hfound] using ⟨hlate, hindexer⟩

theorem loadElement_misses {target : TypeId} {args : Nat} {load : Instr}
    (h : loadElement r target args = .ok load) :
    Misses r (args + 1) 1 (indexSurplus r target args) load := by
  rw [loadElement_eq] at h
  refine elementInstr_misses ?_ (fun owner => ?_) (fun element rank => ?_) h
  · simp only [Misses, Instr.gives, Instr.takes]
    omega
  · simp only [Misses, gives_indexerGet, Instr.takes]
    omega
  · unfold Misses
    split <;> simp only [Instr.gives, Instr.takes] <;> omega

theorem storeElement_misses {target : TypeId} {args : Nat} {store : Instr}
    (h : storeElement r target args = .ok store) :
    Misses r (args + 2) 0 (indexSurplus r target args) store := by
  rw [storeElement_eq] at h
  refine elementInstr_misses ?_ (fun owner => ?_) (fun element rank => ?_) h
  · simp only [Misses, Instr.gives, Instr.takes]
    omega
  · simp only [Misses, gives_indexerSet, Instr.takes]
    omega
  · unfold Misses
    split <;> simp only [Instr.gives, Instr.takes] <;> omega

/-! ## Expressions -/

/-- The code of a tree moves the height as its imbalances say. -/
def Balances (r : Registry) (e : TypedExpr) : Prop :=
  (code r e).Yields (Moves r 0 1 (imbalances r e))

theorem codeAll_moves :
    ∀ {es : List TypedExpr}, (∀ e ∈ es, Balances r e) →
      (codeAll r es).Yields (Moves r 0 es.length (es.flatMap (imbalances r)))
  | [], _ => Emission.yields_write moves_nil
  | e :: es, h => by
    obtain ⟨he, hes⟩ := List.forall_mem_cons.1 h
    rw [codeAll]
    have hall := moves_then he (moves_above (codeAll_moves hes) 1)
    rwa [Nat.add_comm 1 es.length] at hall

theorem moves_node {e : TypedExpr} {a : List Instr}
    (h : Moves r 0 1 (e.children.flatMap (imbalances r) ++ [surplus r e]) a) :
    Moves r 0 1 (imbalances r e) a := by
  rw [imbalances_eq]
  refine h.recount ?_ fun hnonneg d hd => hnonneg d ?_
  · simp [Int.add_comm]
  · simpa [or_comm] using hd

/-- A node whose code is that of its parts and then one instruction. -/
theorem apply_moves {e : TypedExpr} {i : Instr} (hparts : ∀ c ∈ e.children, Balances r c)
    (hi : Misses r e.children.length 1 (surplus r e) i) :
    (codeAll r e.children ++ .write [i]).Yields (Moves r 0 1 (imbalances r e)) := by
  refine (codeAll_moves hparts).append (Emission.yields_write (moves_instr hi)) fun a b ha hb => ?_
  exact moves_node (ha.append hb)

theorem gives_addMethod (type : TypeId) (args : Nat) :
    (Instr.callVirt type addMethod args).gives r = callGives r type addMethod := by
  simp [Instr.gives, addMethod, indexerGet, indexerSet]

theorem fillSurplus_element (type : TypeId) (value : TypedExpr) (rest : List Initializer) :
    fillSurplus r type (.element value :: rest) =
      fillSurplus r type rest + callGives r type addMethod := by
  have hcount : (Initializer.element value :: rest).countP Initializer.isElement =
      rest.countP Initializer.isElement + 1 := List.countP_cons_of_pos rfl
  rw [fillSurplus, hcount, Nat.add_mul, Nat.one_mul, Int.natCast_add]
  rfl

theorem fillSurplus_named (type : TypeId) (name : String) (value : TypedExpr)
    (rest : List Initializer) :
    fillSurplus r type (.named name value :: rest) = fillSurplus r type rest := by
  have hcount : (Initializer.named name value :: rest).countP Initializer.isElement =
      rest.countP Initializer.isElement := List.countP_cons_of_neg (by simp [Initializer.isElement])
  rw [fillSurplus, hcount]
  rfl

theorem fillSurplus_nonneg (type : TypeId) (initializers : List Initializer) :
    0 ≤ fillSurplus r type initializers :=
  Int.natCast_nonneg _

/-- The imbalances of filling a new object. -/
def fillImbalances (r : Registry) (type : TypeId) (initializers : List Initializer) : List Int :=
  (initializers.map Initializer.value).flatMap (imbalances r) ++ [fillSurplus r type initializers]

/-- The object, the value, and the method for adding. -/
theorem fillElement_moves {type : TypeId} {keyed : Bool} {value : TypedExpr}
    {rest : List Initializer} (hvalue : Balances r value)
    (hrest : (fill r type keyed rest).Yields (Moves r 1 1 (fillImbalances r type rest))) :
    (fill r type keyed (.element value :: rest)).Yields
      (Moves r 1 1 (fillImbalances r type (.element value :: rest))) := by
  have hdup : (Emission.write [Instr.dup]).Yields (Moves r 1 2 []) :=
    Emission.yields_write (moves_one 0 rfl rfl)
  have add : Misses r 3 1 (callGives r type addMethod) (.callVirt type addMethod 1) := by
    simp only [Misses, gives_addMethod, Instr.takes]
    omega
  have hadd := moves_then (moves_then hdup (moves_above hvalue 2))
    (Emission.yields_write (moves_instr add))
  rw [fill]
  refine (moves_then hadd hrest).mono fun code hcode => hcode.recount ?_ fun hnonneg d hd => ?_
  · simp [fillImbalances, fillSurplus_element, Initializer.value]
    omega
  · -- The surplus is counted for all elements at once, and neither part of it is a shortage.
    have hsurplus := fillSurplus_nonneg (r := r) type rest
    simp only [fillImbalances, List.nil_append, List.mem_append, List.mem_singleton] at hd
    rcases hd with (hd | rfl) | hd | rfl
    · exact hnonneg d (List.mem_append_left _ (List.mem_append_left _ hd))
    · omega
    · exact hnonneg d (List.mem_append_left _ (List.mem_append_right _ hd))
    · exact hsurplus

/-- The object, for a type with keys the key, the value, and the instruction that stores. -/
theorem fillNamed_moves {type : TypeId} {keyed : Bool} {name : String} {value : TypedExpr}
    {rest : List Initializer} (hvalue : Balances r value)
    (hrest : (fill r type keyed rest).Yields (Moves r 1 1 (fillImbalances r type rest))) :
    (fill r type keyed (.named name value :: rest)).Yields
      (Moves r 1 1 (fillImbalances r type (.named name value :: rest))) := by
  have hdup : Moves r 1 2 [] [.dup] := moves_one 0 rfl rfl
  have stored (x : Emission Instr) (hx : x.Yields (Moves r 1 1 (imbalances r value))) :
      (x ++ fill r type keyed rest).Yields
        (Moves r 1 1 (fillImbalances r type (.named name value :: rest))) := by
    simpa [fillImbalances, fillSurplus_named, Initializer.value] using moves_then hx hrest
  rw [fill]
  split
  · have hkey : (Emission.write [Instr.dup, .ldStr name]).Yields (Moves r 1 3 []) :=
      Emission.yields_write (hdup.append (moves_one 2 rfl rfl))
    have hset : (Emission.write [Instr.callVirt type indexerSet 2]).Yields (Moves r 4 1 []) :=
      Emission.yields_write (moves_one 1 rfl (by rw [gives_indexerSet]))
    refine stored _ ?_
    simpa using moves_then (moves_then hkey (moves_above hvalue 3)) hset
  · have hset : (Emission.write [Instr.stFld type name]).Yields (Moves r 3 1 []) :=
      Emission.yields_write (moves_one 1 rfl rfl)
    refine stored _ ?_
    simpa using moves_then (moves_then (Emission.yields_write hdup) (moves_above hvalue 2)) hset

/-- Filling leaves the new object where it was, under what adding has left. -/
theorem fill_moves (type : TypeId) (keyed : Bool) :
    ∀ {initializers : List Initializer}, (∀ x ∈ initializers, Balances r x.value) →
      (fill r type keyed initializers).Yields (Moves r 1 1 (fillImbalances r type initializers))
  | [], _ => Emission.yields_write
      (moves_nil.recount (by simp [fillImbalances, fillSurplus]) nofun)
  | .element _ :: _, h => by
    obtain ⟨hvalue, hrest⟩ := List.forall_mem_cons.1 h
    exact fillElement_moves hvalue (fill_moves type keyed hrest)
  | .named .. :: _, h => by
    obtain ⟨hvalue, hrest⟩ := List.forall_mem_cons.1 h
    exact fillNamed_moves hvalue (fill_moves type keyed hrest)

/-- Filling an array leaves it where it was. -/
theorem fillArray_moves (element : TypeId) :
    ∀ {values : List TypedExpr} (index : Nat), (∀ e ∈ values, Balances r e) →
      (fillArray r element index values).Yields
        (Moves r 1 1 (values.flatMap (imbalances r)))
  | [], _, _ => Emission.yields_write moves_nil
  | value :: rest, index, h => by
    obtain ⟨hvalue, hrest⟩ := List.forall_mem_cons.1 h
    have hindex : (loadIndex index).Yields (Moves r 1 3 []) := by
      unfold loadIndex
      split
      · have hdup : Moves r 1 2 [] [.dup] := moves_one 0 rfl rfl
        exact Emission.yields_write (hdup.append (moves_one 2 rfl rfl))
      · exact Emission.yields_reject
    have hstore : (Emission.write [Instr.stElem element]).Yields (Moves r 4 1 []) :=
      Emission.yields_write (moves_one 1 rfl rfl)
    rw [fillArray]
    have filled := moves_then (moves_then (moves_then hindex (moves_above hvalue 3)) hstore)
      (fillArray_moves element (index + 1) hrest)
    simpa using filled

/-- A call misses by one if the method gives nothing. -/
theorem call_misses {i : Info} {owner : TypeId} {method : String} {isStatic : Bool} {args : Nat}
    (hrole : i.role = callRole i.type) (h : r.HasMethod owner method isStatic owner i.type) :
    Misses r args 1 (if i.role = .nothing then -1 else 0) (.call owner method args) := by
  simp only [Misses, Instr.gives, Instr.takes, callGives_of_hasMethod h, hrole, callRole]
  by_cases hvoid : i.type = .void
  · simp [hvoid]
    omega
  · simp [hvoid]

/-- A call of a method that is named like an accessor counts as one of the accessor. -/
theorem callVirt_misses {i : Info} {receiver : TypedExpr} {owner : TypeId} {method : String}
    {args : List TypedExpr} (hrole : i.role = callRole i.type)
    (h : r.HasMethod owner method false owner i.type) :
    Misses r (args.length + 1) 1 (surplus r (.instanceCall i receiver owner method args))
      (.callVirt owner method args.length) := by
  have hcall : Misses r (args.length + 1) 1 _ (.call owner method (args.length + 1)) :=
    call_misses hrole h
  simp only [Misses, Instr.gives, Instr.takes, surplus] at hcall ⊢
  by_cases hget : method = indexerGet
  · simp [hget]
  · by_cases hset : method = indexerSet
    · simp [hset, indexerGet, indexerSet]
      omega
    · simpa [hget, hset] using hcall

theorem constant_moves (info : Info) (value : Constant) : Balances r (.constant info value) := by
  have loaded (load : Instr) (htakes : load.takes = 0) (hgives : load.gives r = 1) :
      (Emission.write [load]).Yields (Moves r 0 1 (imbalances r (.constant info value))) := by
    rw [imbalances_eq]
    exact Emission.yields_write ((moves_one 0 (by simp [htakes]) (by simp [hgives])).recount
      (by simp [surplus, TypedExpr.children]) nofun)
  cases value with
  | int n =>
    refine loaded (loadInt n) ?_ ?_ <;>
    · unfold loadInt
      split <;> rfl
  | string | number | bool | null => exact loaded _ rfl rfl
  | regex | xml => exact Emission.yields_reject

theorem codeAll_singleton (e : TypedExpr) : codeAll r [e] = code r e :=
  Emission.append_nothing _

/-- A node with one part, whose instruction takes the value of the part and gives its own. -/
theorem apply_one {e c : TypedExpr} {i : Instr} (hc : Balances r c) (hchildren : e.children = [c])
    (hsurplus : surplus r e = 0) (htakes : i.takes = 1) (hgives : i.gives r = 1) :
    (code r c ++ .write [i]).Yields (Moves r 0 1 (imbalances r e)) := by
  have happlied := apply_moves (e := e) (i := i) (by simpa [hchildren] using hc)
    ⟨by simp [hchildren, hsurplus, htakes, hgives], by simp [hchildren, htakes]⟩
  rwa [hchildren, codeAll_singleton] at happlied

theorem newWith_moves {info : Info} {args : List TypedExpr} {initializers : List Initializer}
    (ih : ∀ c ∈ (TypedExpr.newWith info args initializers).children, Balances r c) :
    Balances r (.newWith info args initializers) := by
  have hargs : ∀ e ∈ args, Balances r e := fun e he => ih e (List.mem_append_left _ he)
  have hvalues : ∀ x ∈ initializers, Balances r x.value := fun x hx =>
    ih _ (List.mem_append_right _ (List.mem_map_of_mem hx))
  have hnew : (Emission.write [Instr.newObj info.type args.length]).Yields
      (Moves r args.length 1 []) :=
    Emission.yields_write (moves_one 0 (Nat.zero_add _) rfl)
  have made := moves_then (moves_then (codeAll_moves hargs) hnew)
    (Emission.yields_asking fun keyed (_ : r.isDynamicCapable info.type = .ok keyed) =>
      fill_moves info.type keyed hvalues)
  refine made.mono fun code hcode => moves_node ?_
  simpa [TypedExpr.children, surplus, fillImbalances] using hcode

theorem arrayOf_moves {info : Info} {element : TypeId} {dimensions values : List TypedExpr}
    (ih : ∀ c ∈ (TypedExpr.arrayOf info element dimensions values).children, Balances r c) :
    Balances r (.arrayOf info element dimensions values) := by
  refine Emission.yields_asking fun array _ => ?_
  dsimp only
  split
  · rename_i hshape
    have hdimensions := codeAll_moves fun e he => ih e (List.mem_append_left _ he)
    have hvalues := fillArray_moves (r := r) element 0 fun e he => ih e (List.mem_append_right _ he)
    have hnew : (Emission.write [Instr.newArr element]).Yields (Moves r dimensions.length 1 []) :=
      Emission.yields_write (moves_one 0 (by simp [hshape.1, Instr.takes]) rfl)
    refine (moves_then (moves_then hdimensions hnew) hvalues).mono fun code hcode => ?_
    rw [imbalances_eq]
    exact hcode.recount (by simp [surplus, TypedExpr.children]) fun hnonneg d hd =>
      hnonneg d (List.mem_cons_of_mem _ (by simpa [TypedExpr.children] using hd))
  · exact Emission.yields_reject

/-- An assignment whose value is used stores a copy of it. -/
theorem assign_moves {info : Info} {target value : TypedExpr} (hvalue : Balances r value) :
    Balances r (.assign info target value) := by
  have stored (store : Instr) (htakes : store.takes = 1) (hgives : store.gives r = 0)
      (hnodes : imbalances r target = [0]) :
      (code r value ++ .write [.dup, store]).Yields
        (Moves r 0 1 (imbalances r (.assign info target value))) := by
    have hdup : Moves r 1 2 [] [.dup] := moves_one 0 rfl rfl
    have hstore : Moves r 2 1 [] [store] := moves_one 1 (by omega) (by omega)
    have hboth := moves_then hvalue (Emission.yields_write (hdup.append hstore))
    refine hboth.mono fun code hcode => ?_
    rw [imbalances_eq]
    refine hcode.recount ?_ fun hnonneg d hd => hnonneg d ?_
    · simp [surplus, TypedExpr.children, hnodes]
    · simp only [List.append_nil] at hd
      simp [TypedExpr.children, hd]
  unfold Balances code
  split
  · exact stored _ rfl rfl (imbalances_eq _ _)
  · exact stored _ rfl rfl (imbalances_eq _ _)
  · exact Emission.yields_reject

/-- The code of a well typed tree leaves one value, but for the imbalances of its nodes. -/
theorem code_moves {e : TypedExpr} (h : Typed cx r e) : Balances r e := by
  induction h with
  | @node e here below ih =>
    -- A form that only scripts have is refused, and so is a type.
    cases e with
    | constant info value => exact constant_moves info value
    | localVar info name => exact apply_moves (i := .ldLoc name) ih (misses_zero rfl rfl)
    | typeRef info => exact Emission.yields_reject
    | staticField info owner name =>
      exact apply_moves (i := .ldSFld owner name) ih (misses_zero rfl rfl)
    | instanceField | dynamicMember | cast =>
      exact apply_one (ih _ (by simp [TypedExpr.children])) rfl rfl rfl rfl
    | element info target args =>
      refine (codeAll_moves ih).append (Emission.yields_asking fun load hload =>
        Emission.yields_write (moves_instr (loadElement_misses hload))) fun a b ha hb => ?_
      exact moves_node (ha.append hb)
    | staticCall info owner method args => exact apply_moves ih (call_misses here.1 here.2)
    | instanceCall info receiver owner method args =>
      exact apply_moves ih (callVirt_misses here.1 here.2.at_owner)
    | dynamicCall info receiver method args =>
      exact apply_moves (i := .dynamicCall method args.length) ih (misses_zero rfl rfl)
    | dynamicInvoke info callee args =>
      exact apply_moves (i := .dynamicInvoke args.length) ih (misses_zero rfl rfl)
    | new info args =>
      exact apply_moves (i := .newObj info.type args.length) ih (misses_zero rfl rfl)
    | dynamicNew info callee args =>
      exact apply_moves (i := .dynamicNew args.length) ih (misses_zero rfl rfl)
    | newWith info args initializers => exact newWith_moves ih
    | newArray info element dimensions =>
      refine apply_moves ih ?_
      split
      · rename_i hone
        exact misses_zero hone.symm rfl
      · exact misses_zero rfl rfl
    | arrayOf info element dimensions values => exact arrayOf_moves ih
    | assign info target value => exact assign_moves (ih _ (by simp [TypedExpr.children]))
    | scriptDelete | scriptNew | scriptTypeof | scriptIn | scriptUndefined | objectLiteral
    | arrayLiteral => exact Emission.yields_reject

/-! ## Statements -/

/-- The parts of a place, the value, and then the instruction that stores. -/
theorem stored_moves {target value : TypedExpr} {x : Emission Instr}
    (hparts : ∀ c ∈ target.children, Balances r c) (hvalue : Balances r value)
    (hx : x.Yields (Moves r (target.children.length + 1) 0 [surplus r target])) :
    (codeAll r target.children ++ code r value ++ x).Yields
      (Moves r 0 0 (imbalances r target ++ imbalances r value)) := by
  refine (moves_then (moves_then (codeAll_moves hparts) (moves_above hvalue _)) hx).mono
    fun code hcode => ?_
  rw [imbalances_eq r target]
  refine hcode.recount ?_ fun hnonneg d hd => hnonneg d ?_
  · simp only [List.sum_append, List.sum_cons, List.sum_nil]
    omega
  · simp only [List.mem_append, List.mem_cons, List.not_mem_nil, or_false] at hd ⊢
    rcases hd with (hd | hd) | hd
    · exact .inl (.inr hd)
    · exact .inr hd
    · exact .inl (.inl hd)

theorem store_moves {target value : TypedExpr} (htarget : Typed cx r target)
    (hvalue : Typed cx r value) :
    (store r target value).Yields (Moves r 0 0 (imbalances r target ++ imbalances r value)) := by
  have hparts : ∀ c ∈ target.children, Balances r c := fun c hc => code_moves (htarget.child hc)
  have hv := code_moves hvalue
  have even (i : Instr) (hsurplus : surplus r target = 0)
      (htakes : i.takes = target.children.length + 1) (hgives : i.gives r = 0) :
      (Emission.write [i]).Yields (Moves r (target.children.length + 1) 0 [surplus r target]) :=
    Emission.yields_write (moves_instr (hsurplus ▸ misses_zero htakes hgives))
  unfold store
  split
  · exact stored_moves hparts hv (even _ rfl rfl rfl)
  · exact stored_moves hparts hv (even _ rfl rfl rfl)
  · rename_i info object owner name
    have stored := stored_moves hparts hv (even (.stFld owner name) rfl rfl rfl)
    rwa [TypedExpr.children, codeAll_singleton] at stored
  · rename_i info object name
    have stored := stored_moves hparts hv (even (.dynamicSet name) rfl rfl rfl)
    rwa [TypedExpr.children, codeAll_singleton] at stored
  · exact stored_moves hparts hv (Emission.yields_asking fun _ h =>
      Emission.yields_write (moves_instr (storeElement_misses h)))
  · exact Emission.yields_reject

/-- A call that has no value is meant to leave nothing. -/
theorem unused_moves {e : TypedExpr} {i : Instr} (hparts : ∀ c ∈ e.children, Balances r c)
    (hd : (i.gives r : Int) - i.takes = 1 - e.children.length + surplus r e)
    (hk : i.takes = e.children.length) (hrole : e.role.hasValue = false) :
    (codeAll r e.children ++ .write [i]).Yields (Moves r 0 0 (unusedImbalances r e)) := by
  have hi : Misses r e.children.length 0 (surplus r e + 1) i := ⟨by omega, fun _ => Nat.le_of_eq hk⟩
  refine (moves_then (codeAll_moves hparts) (Emission.yields_write (moves_instr hi))).mono
    fun code hcode => hcode.recount ?_ fun hnonneg d hd => hnonneg d ?_
  · simp [unusedImbalances, hrole]
    omega
  · simpa [unusedImbalances, hrole, or_comm] using hd

/-- Only a type and a call of a method can be without a value. -/
theorem without_value {e : TypedExpr} (h : Rule cx r e) (hrole : e.role.hasValue = false) :
    (∃ i, e = .typeRef i) ∨ (∃ i owner method args, e = .staticCall i owner method args) ∨
      ∃ i receiver owner method args, e = .instanceCall i receiver owner method args := by
  cases e with
  | typeRef i => exact .inl ⟨i, rfl⟩
  | staticCall i owner method args => exact .inr (.inl ⟨i, owner, method, args, rfl⟩)
  | instanceCall i receiver owner method args =>
    exact .inr (.inr ⟨i, receiver, owner, method, args, rfl⟩)
  | staticField i owner name =>
    rcases h with ⟨h, -⟩ | ⟨h, -⟩ <;>
      simp [TypedExpr.role, TypedExpr.info, h, Role.hasValue] at hrole
  | constant | localVar | instanceField | dynamicMember | element | dynamicCall | dynamicInvoke
  | cast | new | dynamicNew | newWith | newArray | arrayOf | assign | scriptDelete | scriptNew
  | scriptTypeof | scriptIn | scriptUndefined | objectLiteral | arrayLiteral =>
    simp [TypedExpr.role, TypedExpr.info, h.1, Role.hasValue] at hrole

theorem discard_moves {e : TypedExpr} (h : Typed cx r e) :
    (discard r e).Yields (Moves r 0 0 (unusedImbalances r e)) := by
  have hparts : ∀ c ∈ e.children, Balances r c := fun c hc => code_moves (h.child hc)
  unfold discard
  split
  · rename_i info target value
    have hrole : info.role = .value := h.here.1
    have stored := store_moves (h.child (c := target) (by simp [TypedExpr.children]))
      (h.child (c := value) (by simp [TypedExpr.children]))
    refine stored.mono fun code hcode => hcode.recount ?_ fun hnonneg d hd => hnonneg d ?_
    · simp [unusedImbalances, TypedExpr.children, TypedExpr.role, TypedExpr.info, hrole,
        Role.hasValue, surplus]
    · exact List.mem_cons_of_mem _ (by simpa [TypedExpr.children] using hd)
  · cases hrole : e.role.hasValue with
    | true =>
      have hpop : (Emission.write [Instr.pop]).Yields (Moves r 1 0 []) :=
        Emission.yields_write (moves_one 0 rfl rfl)
      have popped := moves_then (code_moves h) hpop
      simpa [imbalances_eq r e, unusedImbalances, hrole] using popped
    | false =>
      have nothing : (code r e).Yields (Moves r 0 0 (unusedImbalances r e)) := by
        rcases without_value h.here hrole with ⟨i, rfl⟩ | ⟨i, owner, method, args, rfl⟩ |
          ⟨i, receiver, owner, method, args, rfl⟩
        · exact Emission.yields_reject
        · exact unused_moves hparts (call_misses h.here.1 h.here.2).1 rfl hrole
        · exact unused_moves hparts (callVirt_misses h.here.1 h.here.2.at_owner).1 rfl hrole
      change (code r e ++ Emission.nothing).Yields _
      rwa [Emission.append_nothing]

end Native

end Dynascript
