import Dynascript.Proofs.Native.Balance

/-!
# Local variables in native code

A resolved tree tells which local variables its code declares, loads and stores, in which
order, and of which type resolution took each of them to be (`LocalEvent`). The code itself
keeps the names and the declared types only : `unitCode_touches` says that these are the
names and the declared types of the events, one by one.
-/

namespace Dynascript

/-- What the code of a tree does with a local variable : it declares the variable, or loads or
stores it where resolution gave it `type`. -/
inductive LocalEvent where
  | declare (name : String) (type : TypeId)
  | use (name : String) (type : TypeId)
deriving DecidableEq

/-- What the code keeps of an event : the name, and the type of a declaration. -/
def LocalEvent.touch : LocalEvent → String × Option TypeId
  | declare name type => (name, some type)
  | use name _ => (name, none)

/-- The local variable that an instruction declares, loads or stores. -/
def Instr.touch? : Instr → Option (String × Option TypeId)
  | declareLocal name type => some (name, some type)
  | ldLoc name | stLoc name => some (name, none)
  | _ => none

namespace Native

/-- The use of a local variable, if the node is one. -/
def ownUse : TypedExpr → List LocalEvent
  | .localVar i name => [.use name i.type]
  | _ => []

/-- The uses of local variables in a tree. An assignment stores after it has the value. -/
def uses (e : TypedExpr) : List LocalEvent :=
  match e with
  | .assign _ target value =>
    (target.children.attach.flatMap fun c => uses c.1) ++ uses value ++ ownUse target
  | e => (e.children.attach.flatMap fun c => uses c.1) ++ ownUse e
termination_by sizeOf e
decreasing_by
  · have := TypedExpr.sizeOf_lt_of_mem_children c.2
    simp
    omega
  · rw [TypedExpr.assign.sizeOf_spec]
    omega
  · exact TypedExpr.sizeOf_lt_of_mem_children c.2

theorem uses_assign (i : Info) (target value : TypedExpr) :
    uses (.assign i target value) =
      target.children.flatMap uses ++ uses value ++ ownUse target := by
  rw [uses]
  simp

theorem uses_eq {e : TypedExpr} (h : ∀ i target value, e ≠ .assign i target value) :
    uses e = e.children.flatMap uses ++ ownUse e := by
  rw [uses]
  · simp
  · exact fun i target value he => h i target value he

mutual

/-- What the code of a statement does with local variables. A variable is declared before its
initializer runs. -/
def stmtEvents : TypedStmt → List LocalEvent
  | .declare _ name type none => [.declare name type]
  | .declare _ name type (some value) => .declare name type :: uses value ++ [.use name type]
  | .expr _ e => uses e
  | .nonAssign _ e => if e.isPure then [] else uses e
  | .block _ body => bodyEvents body
  | .localFunction .. | .useNamespace .. => []

def bodyEvents : List TypedStmt → List LocalEvent
  | [] => []
  | s :: rest => stmtEvents s ++ bodyEvents rest

end

/-! ## The code of the events -/

/-- The instructions touch the local variables of the events, in the same order. -/
def Touches (events : List LocalEvent) (code : List Instr) : Prop :=
  code.filterMap Instr.touch? = events.map LocalEvent.touch

variable {r : Registry} {x y : Emission Instr} {events events' : List LocalEvent}

theorem touches_then (hx : x.Yields (Touches events)) (hy : y.Yields (Touches events')) :
    (x ++ y).Yields (Touches (events ++ events')) :=
  hx.append hy fun a b ha hb => by
    unfold Touches at ha hb ⊢
    rw [List.filterMap_append, List.map_append, ha, hb]

theorem touches_nothing {code : List Instr} (hcode : code.filterMap Instr.touch? = []) :
    (Emission.write code).Yields (Touches []) :=
  Emission.yields_write hcode

/-- Instructions that touch no local variable may follow. -/
theorem touches_more (hx : x.Yields (Touches events)) (hy : y.Yields (Touches [])) :
    (x ++ y).Yields (Touches events) := by
  have hmore := touches_then hx hy
  rwa [List.append_nil] at hmore

/-- The code of the tree touches the local variables that the tree uses. -/
def Follows (r : Registry) (e : TypedExpr) : Prop := (code r e).Yields (Touches (uses e))

theorem codeAll_touches :
    ∀ {es : List TypedExpr}, (∀ e ∈ es, Follows r e) →
      (codeAll r es).Yields (Touches (es.flatMap uses))
  | [], _ => touches_nothing rfl
  | e :: es, h => by
    obtain ⟨he, hes⟩ := List.forall_mem_cons.1 h
    rw [codeAll]
    exact touches_then he (codeAll_touches hes)

theorem loadElement_touch {target : TypeId} {args : Nat} {load : Instr}
    (h : loadElement r target args = .ok load) : load.touch? = none := by
  rw [loadElement_eq] at h
  refine elementInstr_cases (p := (·.touch? = none)) (fun element rank _ _ => ?_)
    (fun _ => ⟨rfl, fun _ => rfl⟩) h
  split <;> rfl

theorem storeElement_touch {target : TypeId} {args : Nat} {store : Instr}
    (h : storeElement r target args = .ok store) : store.touch? = none := by
  rw [storeElement_eq] at h
  refine elementInstr_cases (p := (·.touch? = none)) (fun element rank _ _ => ?_)
    (fun _ => ⟨rfl, fun _ => rfl⟩) h
  split <;> rfl

theorem fill_touches (type : TypeId) (keyed : Bool) :
    ∀ {initializers : List Initializer}, (∀ x ∈ initializers, Follows r x.value) →
      (fill r type keyed initializers).Yields
        (Touches ((initializers.map Initializer.value).flatMap uses))
  | [], _ => touches_nothing rfl
  | .element value :: rest, h => by
    obtain ⟨hvalue, hrest⟩ := List.forall_mem_cons.1 h
    rw [fill]
    have hdup : (Emission.write [Instr.dup]).Yields (Touches []) := touches_nothing rfl
    exact touches_then (touches_more (touches_then hdup hvalue) (touches_nothing rfl))
      (fill_touches type keyed hrest)
  | .named name value :: rest, h => by
    obtain ⟨hvalue, hrest⟩ := List.forall_mem_cons.1 h
    have ih := fill_touches type keyed hrest
    have hdup : (Emission.write [Instr.dup]).Yields (Touches []) := touches_nothing rfl
    have hkey : (Emission.write [Instr.dup, .ldStr name]).Yields (Touches []) := touches_nothing rfl
    rw [fill]
    split
    · exact touches_then (touches_more (touches_then hkey hvalue) (touches_nothing rfl)) ih
    · exact touches_then (touches_more (touches_then hdup hvalue) (touches_nothing rfl)) ih

theorem fillArray_touches (element : TypeId) :
    ∀ {values : List TypedExpr} (index : Nat), (∀ e ∈ values, Follows r e) →
      (fillArray r element index values).Yields (Touches (values.flatMap uses))
  | [], _, _ => touches_nothing rfl
  | value :: rest, index, h => by
    obtain ⟨hvalue, hrest⟩ := List.forall_mem_cons.1 h
    have hindex : (loadIndex index).Yields (Touches []) := by
      unfold loadIndex
      split
      · exact touches_nothing rfl
      · exact Emission.yields_reject
    rw [fillArray]
    exact touches_then (touches_more (touches_then hindex hvalue) (touches_nothing rfl))
      (fillArray_touches element (index + 1) hrest)

/-- A node whose code is that of its parts and then an instruction that touches nothing. -/
theorem apply_touches {e : TypedExpr} {i : Instr} (hparts : ∀ c ∈ e.children, Follows r c)
    (huses : uses e = e.children.flatMap uses) (hi : i.touch? = none) :
    (codeAll r e.children ++ .write [i]).Yields (Touches (uses e)) := by
  rw [huses]
  exact touches_more (codeAll_touches hparts) (touches_nothing (by simp [hi]))

theorem uses_parts {e : TypedExpr} (h : ∀ i target value, e ≠ .assign i target value)
    (hown : ownUse e = []) : uses e = e.children.flatMap uses := by
  rw [uses_eq h, hown, List.append_nil]

/-- A node with one part, whose instruction touches nothing. -/
theorem apply_one_touches {e c : TypedExpr} {i : Instr} (hc : Follows r c)
    (hchildren : e.children = [c]) (huses : uses e = e.children.flatMap uses)
    (hi : i.touch? = none) : (code r c ++ .write [i]).Yields (Touches (uses e)) := by
  have happlied := apply_touches (by simpa [hchildren] using hc) huses hi
  rwa [hchildren, codeAll_singleton] at happlied

theorem constant_touches (info : Info) (value : Constant) : Follows r (.constant info value) := by
  have loaded (load : Instr) (hload : load.touch? = none) :
      (Emission.write [load]).Yields (Touches (uses (.constant info value))) := by
    rw [uses_parts (e := .constant info value) nofun rfl]
    exact touches_nothing (by simp [hload])
  cases value with
  | int n =>
    refine loaded (loadInt n) ?_
    unfold loadInt
    split <;> rfl
  | string | number | bool | null => exact loaded _ rfl
  | regex | xml => exact Emission.yields_reject

theorem newWith_touches {info : Info} {args : List TypedExpr} {initializers : List Initializer}
    (hparts : ∀ c ∈ (TypedExpr.newWith info args initializers).children, Follows r c) :
    Follows r (.newWith info args initializers) := by
  have hargs : ∀ e ∈ args, Follows r e := fun e he => hparts e (List.mem_append_left _ he)
  have hvalues : ∀ x ∈ initializers, Follows r x.value := fun x hx =>
    hparts _ (List.mem_append_right _ (List.mem_map_of_mem hx))
  have huses := uses_parts (e := .newWith info args initializers) nofun rfl
  rw [TypedExpr.children, List.flatMap_append] at huses
  unfold Follows
  rw [huses]
  exact touches_then (touches_more (codeAll_touches hargs) (touches_nothing rfl))
    (Emission.yields_asking fun keyed _ => fill_touches info.type keyed hvalues)

theorem arrayOf_touches {info : Info} {element : TypeId} {dimensions values : List TypedExpr}
    (hparts : ∀ c ∈ (TypedExpr.arrayOf info element dimensions values).children, Follows r c) :
    Follows r (.arrayOf info element dimensions values) := by
  have huses := uses_parts (e := .arrayOf info element dimensions values) nofun rfl
  rw [TypedExpr.children, List.flatMap_append] at huses
  unfold Follows
  rw [huses]
  refine Emission.yields_asking fun array _ => ?_
  dsimp only
  split
  · have hdimensions := codeAll_touches fun e he => hparts e (List.mem_append_left _ he)
    have hvalues := fillArray_touches (r := r) element 0 fun e he =>
      hparts e (List.mem_append_right _ he)
    exact touches_then (touches_more hdimensions (touches_nothing rfl)) hvalues
  · exact Emission.yields_reject

theorem assign_touches {info : Info} {target value : TypedExpr} (hvalue : Follows r value) :
    Follows r (.assign info target value) := by
  unfold Follows code
  rw [uses_assign]
  split
  · exact touches_then hvalue (Emission.yields_write rfl)
  · exact touches_then hvalue (touches_nothing rfl)
  · exact Emission.yields_reject

/-- The code of a tree touches the local variables that the tree uses, in the same order. -/
theorem code_touches (r : Registry) (e : TypedExpr) : Follows r e := by
  have part (c : TypedExpr) (hc : c ∈ e.children) : Follows r c := code_touches r c
  cases e with
  | constant info value => exact constant_touches info value
  | localVar info name =>
    unfold Follows
    rw [uses_eq (e := .localVar info name) (by simp)]
    exact Emission.yields_write rfl
  | typeRef info => exact Emission.yields_reject
  | staticField info owner name =>
    exact apply_touches (i := .ldSFld owner name) part (uses_parts (by simp) rfl) rfl
  | instanceField | dynamicMember | cast =>
    exact apply_one_touches (part _ (by simp [TypedExpr.children])) rfl
      (uses_parts (by simp) rfl) rfl
  | element info target args =>
    unfold Follows
    rw [uses_parts (e := .element info target args) (by simp) rfl]
    exact touches_more (codeAll_touches part) (Emission.yields_asking fun load hload =>
      touches_nothing (by simp [loadElement_touch hload]))
  | staticCall | instanceCall | dynamicCall | dynamicInvoke | new | dynamicNew =>
    exact apply_touches part (uses_parts (by simp) rfl) rfl
  | newWith info args initializers => exact newWith_touches part
  | newArray info element dimensions =>
    refine apply_touches part (uses_parts (by simp) rfl) ?_
    split <;> rfl
  | arrayOf info element dimensions values => exact arrayOf_touches part
  | assign info target value => exact assign_touches (part _ (by simp [TypedExpr.children]))
  | scriptDelete | scriptNew | scriptTypeof | scriptIn | scriptUndefined | objectLiteral
  | arrayLiteral => exact Emission.yields_reject
termination_by sizeOf e
decreasing_by exact TypedExpr.sizeOf_lt_of_mem_children hc

/-! ## Statements -/

/-- Storing into a place touches what the assignment uses. -/
theorem store_touches (r : Registry) (info : Info) (target value : TypedExpr) :
    (store r target value).Yields (Touches (uses (.assign info target value))) := by
  have hvalue := code_touches r value
  have hparts : (codeAll r target.children).Yields (Touches (target.children.flatMap uses)) :=
    codeAll_touches fun c _ => code_touches r c
  rw [uses_assign]
  unfold store
  split
  · exact touches_then hvalue (Emission.yields_write rfl)
  · exact touches_then hvalue (touches_nothing rfl)
  · rw [TypedExpr.children, codeAll_singleton] at hparts
    exact touches_then (touches_then hparts hvalue) (touches_nothing rfl)
  · rw [TypedExpr.children, codeAll_singleton] at hparts
    exact touches_then (touches_then hparts hvalue) (touches_nothing rfl)
  · exact touches_then (touches_then hparts hvalue) (Emission.yields_asking fun store hstore =>
      touches_nothing (by simp [storeElement_touch hstore]))
  · exact Emission.yields_reject

theorem discard_touches (r : Registry) (e : TypedExpr) :
    (discard r e).Yields (Touches (uses e)) := by
  unfold discard
  split
  · exact store_touches r _ _ _
  · refine touches_more (code_touches r e) (touches_nothing ?_)
    split <;> rfl

mutual

theorem stmtCode_touches (r : Registry) :
    ∀ s : TypedStmt, (stmtCode r s).Yields (Touches (stmtEvents s))
  | .declare _ name type none => Emission.yields_write rfl
  | .declare _ name type (some value) => by
    have hdeclare : (Emission.write [Instr.declareLocal name type]).Yields
        (Touches [.declare name type]) := Emission.yields_write rfl
    exact touches_then (touches_then hdeclare (code_touches r value)) (Emission.yields_write rfl)
  | .expr _ e => discard_touches r e
  | .nonAssign _ e => by
    rw [stmtCode, stmtEvents]
    split
    · exact touches_nothing rfl
    · exact discard_touches r e
  | .block _ body => unitCode_touches r body
  | .localFunction .. | .useNamespace .. => touches_nothing rfl

/-- The code of statements touches the local variables of their events, one by one. -/
theorem unitCode_touches (r : Registry) :
    ∀ body : List TypedStmt, (unitCode r body).Yields (Touches (bodyEvents body))
  | [] => touches_nothing rfl
  | s :: rest => touches_then (stmtCode_touches r s) (unitCode_touches r rest)

end

end Native

end Dynascript
