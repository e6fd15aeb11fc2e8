import Dynascript.Proofs.Native.Actions
import Dynascript.Proofs.Native.Balance

/-!
# Filling a new object

The code that fills a new object or array doubles it for each part, evaluates the part and stores
its value into the copy (`Part.instrs`). `Filling` says what is done : the code of each part runs by
itself, and its value goes into what lies on top of the stack. That is the new object as long as
storing gives nothing; what a store gives is left on top and takes the next value.

No code of a part has to do with the new object, so all that is done with it are the stores into it,
one for each part (`Filling.involving_target`), or only the first of them if storing gives something
(`Filling.involving_first`). The stores into a native array leave each value at its index
(`array?_of_stores`).
-/

namespace Dynascript.Native

/-- A way to store a value into a new object : add it, put it under a name or into a field, or put
it at an index of an array. -/
inductive Store where
  | add (type : TypeId)
  | entry (type : TypeId) (name : String)
  | field (type : TypeId) (name : String)
  | element (type : TypeId) (index : Nat)

namespace Store

def instr : Store → Instr
  | add type => .callVirt type addMethod 1
  | entry type _ => .callVirt type indexerSet 2
  | field type name => .stFld type name
  | element type _ => .stElem type

/-- What is loaded between the object and the value. -/
def load : Store → List Instr
  | add _ | field .. => []
  | entry _ name => [.ldStr name]
  | element _ index => [.ldcI4 (Int32.ofNat index)]

/-- The name or the index as a value. -/
def key : Store → List Value
  | add _ | field .. => []
  | entry _ name => [.text name]
  | element _ index => [.int (Int32.ofNat index)]

/-- A value is stored into a target. -/
def action (s : Store) (target v : Value) : Action := ⟨s.instr, target :: (s.key ++ [v])⟩

theorem takes_instr (s : Store) : s.instr.takes = s.key.length + 2 := by cases s <;> rfl

theorem quiet?_instr (s : Store) (taken : List Value) : s.instr.quiet? taken = none := by
  cases s <;> rfl

theorem reverse_key (s : Store) : s.key.reverse = s.key := by cases s <;> rfl

theorem given_not_mem_key (s : Store) (k : Nat) : .given k ∉ s.key := by
  cases s <;> simp [key]

/-- Storing gives at most one value. -/
theorem gives_le (s : Store) (r : Registry) : s.instr.gives r ≤ 1 := by
  cases s with
  | add type =>
    rw [instr, gives_addMethod, callGives]
    split
    · split <;> omega
    · omega
  | entry => simp [instr]
  | field | element => exact Nat.zero_le 1

end Store

/-- The code of a value, and where the value goes. -/
structure Part where
  code : List Instr
  store : Store

/-- Double what lies on top, evaluate the part and store its value. -/
def Part.instrs (p : Part) : List Instr := .dup :: p.store.load ++ (p.code ++ [p.store.instr])

/-- After `actions` the parts are stored one after the other, the first one into `target` : their
values are `vs`, and `new` is what is done. What a store gives is the target of the next one. -/
inductive Filling (r : Registry) :
    Value → List Action → List Part → List Value → List Action → Prop
  | nil {target : Value} {actions : List Action} : Filling r target actions [] [] []
  | cons {target v : Value} {actions new more : List Action} {p : Part} {parts : List Part}
      {vs : List Value} : Evaluates r actions p.code v new →
      Filling r (if p.store.instr.gives r = 0 then target else .given (actions ++ new).length)
        (actions ++ new ++ [p.store.action target v]) parts vs more →
      Filling r target actions (p :: parts) (v :: vs) (new ++ p.store.action target v :: more)

variable {r : Registry} {target v : Value} {actions new : List Action} {p : Part}
  {parts : List Part} {vs : List Value} {k : Nat}

/-! ## The machine fills -/

theorem run_load (s : Store) (target : Value) (stack : List Value) (actions : List Action) :
    run r ⟨target :: stack, actions⟩ (.dup :: s.load) =
      some ⟨s.key ++ target :: target :: stack, actions⟩ := by
  have hdup : step r ⟨target :: stack, actions⟩ .dup = some ⟨target :: target :: stack, actions⟩ :=
    step_quiet (i := .dup) (List.length_singleton (a := target)) rfl stack actions
  rw [run_cons, hdup, Option.bind_some]
  cases s with
  | add | field => rfl
  | entry | element =>
    rw [Store.load, run_cons]
    rfl

/-- One part : its value is stored, and what the store gives lies on top of the target. -/
theorem run_part (h : Evaluates r actions p.code v new) (target : Value) (stack : List Value) :
    run r ⟨target :: stack, actions⟩ p.instrs =
      some ⟨List.replicate (p.store.instr.gives r) (.given (actions ++ new).length) ++
        target :: stack, actions ++ new ++ [p.store.action target v]⟩ := by
  have htaken : (v :: (p.store.key ++ [target])).length = p.store.instr.takes := by
    simp [p.store.takes_instr]
  have hstore := step_action (r := r) htaken (p.store.quiet?_instr _) (target :: stack)
    (actions ++ new)
  rw [Part.instrs, run_append, run_load, Option.bind_some, run_append, h.run, Option.bind_some,
    run_cons]
  simp only [List.cons_append, List.append_assoc, List.nil_append] at hstore ⊢
  rw [hstore]
  simp [run, Store.action, p.store.reverse_key]

/-- The code of the parts fills the target : it leaves it where it is, under what the stores
gave. -/
theorem run_parts (hparts : ∀ p ∈ parts, runHeight r 0 p.code = some 1) (target : Value)
    (stack : List Value) (actions : List Action) :
    ∃ vs new pile, Filling r target actions parts vs new ∧
      run r ⟨target :: stack, actions⟩ (parts.flatMap Part.instrs) =
        some ⟨pile ++ target :: stack, actions ++ new⟩ ∧
      pile.length = (parts.map (·.store.instr.gives r)).sum := by
  induction parts generalizing target stack actions with
  | nil => exact ⟨[], [], [], .nil, by simp [run], rfl⟩
  | cons p parts ih =>
    obtain ⟨hp, hparts⟩ := List.forall_mem_cons.1 hparts
    obtain ⟨v, new, hv⟩ := evaluates_of_height hp actions
    simp only [List.flatMap_cons, run_append, run_part hv, Option.bind_some]
    -- The next part finds on top what the store gave, or else the target itself.
    by_cases hgives : p.store.instr.gives r = 0
    · obtain ⟨vs, more, pile, hfills, hrun, hpile⟩ :=
        ih hparts target stack (actions ++ new ++ [p.store.action target v])
      refine ⟨v :: vs, new ++ p.store.action target v :: more, pile, .cons hv ?_, ?_, ?_⟩
      · rwa [if_pos hgives]
      · simpa [hgives] using hrun
      · simpa [hgives] using hpile
    · have hone : p.store.instr.gives r = 1 := by
        have hle := p.store.gives_le r
        omega
      obtain ⟨vs, more, pile, hfills, hrun, hpile⟩ := ih hparts (.given (actions ++ new).length)
        (target :: stack) (actions ++ new ++ [p.store.action target v])
      refine ⟨v :: vs, new ++ p.store.action target v :: more,
        pile ++ [.given (actions ++ new).length], .cons hv ?_, ?_, ?_⟩
      · rwa [if_neg hgives]
      · simpa [hone] using hrun
      · simp [hone, hpile, Nat.add_comm]

/-! ## What is done with the object -/

/-- Those of the actions that took the object. -/
def involving (object : Value) (actions : List Action) : List Action :=
  actions.filter fun a => object ∈ a.operands

theorem involving_cons (object : Value) (a : Action) (actions : List Action) :
    involving object (a :: actions) =
      if object ∈ a.operands then a :: involving object actions else involving object actions := by
  simp [involving, List.filter_cons]

/-- The stores of values into one object. -/
def stores (object : Value) (parts : List Part) (vs : List Value) : List Action :=
  List.zipWith (fun p v => p.store.action object v) parts vs

theorem Filling.length_values (h : Filling r target actions parts vs new) :
    vs.length = parts.length := by
  induction h with
  | nil => rfl
  | cons _ _ ih => simp [ih]

/-- Code that runs by itself has nothing to do with an older object, so one part involves it only
as the target. -/
theorem Evaluates.involving_part (h : Evaluates r actions p.code v new) (hk : k < actions.length)
    (target : Value) (more : List Action) :
    involving (.given k) (new ++ p.store.action target v :: more) =
      (if target = .given k then [p.store.action target v] else []) ++
        involving (.given k) more := by
  obtain ⟨hv, hnew⟩ := h.since
  have hnone : involving (.given k) new = [] := by
    refine List.filter_eq_nil_iff.2 fun a ha hmem => ?_
    exact (hnew a ha _ (of_decide_eq_true hmem)).ne hk rfl
  have hstore : .given k ∈ (p.store.action target v).operands ↔ target = .given k := by
    have hkey := p.store.given_not_mem_key k
    simp [Store.action, hkey, (hv.ne hk).symm, eq_comm]
  have happend : involving (.given k) (new ++ p.store.action target v :: more) =
      involving (.given k) new ++ involving (.given k) (p.store.action target v :: more) :=
    List.filter_append ..
  rw [happend, hnone, involving_cons, if_congr hstore rfl rfl]
  split <;> rfl

/-- Nothing is done with an older object that is not the target. -/
theorem Filling.involving_other (h : Filling r target actions parts vs new)
    (hk : k < actions.length) (htarget : target ≠ .given k) : involving (.given k) new = [] := by
  induction h with
  | nil => rfl
  | @cons target v actions new more p parts vs hv _ ih =>
    rw [hv.involving_part hk, if_neg htarget]
    refine ih ?_ ?_
    · simp only [List.length_append]
      omega
    · split
      · exact htarget
      · simp only [List.length_append, ne_eq, Value.given.injEq]
        omega

/-- Where storing gives nothing, the object is used for its stores and for nothing else. -/
theorem Filling.involving_target (h : Filling r target actions parts vs new)
    (hk : k < actions.length) (htarget : target = .given k)
    (hquiet : ∀ p ∈ parts, p.store.instr.gives r = 0) :
    involving (.given k) new = stores (.given k) parts vs := by
  induction h with
  | nil => rfl
  | @cons target v actions new more p parts vs hv _ ih =>
    subst htarget
    obtain ⟨hp, hquiet⟩ := List.forall_mem_cons.1 hquiet
    have hlonger : k < (actions ++ new ++ [p.store.action (.given k) v]).length := by
      simp only [List.length_append]
      omega
    rw [hv.involving_part hk, if_pos rfl, ih hlonger (if_pos hp) hquiet]
    rfl

/-- Where storing gives something, the object is used for the first store only. -/
theorem Filling.involving_first (h : Filling r (.given k) actions (p :: parts) (v :: vs) new)
    (hk : k < actions.length) (hgives : p.store.instr.gives r ≠ 0) :
    involving (.given k) new = [p.store.action (.given k) v] := by
  cases h with
  | @cons _ _ _ new more _ _ _ hv hrest =>
    rw [if_neg hgives] at hrest
    have hlater : involving (.given k) more = [] := by
      refine hrest.involving_other ?_ ?_
      · simp only [List.length_append]
        omega
      · simp only [List.length_append, ne_eq, Value.given.injEq]
        omega
    rw [hv.involving_part hk, if_pos rfl, hlater]
    rfl

/-- All stores go into the object if they give nothing, and else only if there is at most one. -/
theorem Filling.involving_iff {g : Nat} (h : Filling r (.given k) actions parts vs new)
    (hk : k < actions.length) (hgives : ∀ p ∈ parts, p.store.instr.gives r = g) :
    involving (.given k) new = stores (.given k) parts vs ↔ g = 0 ∨ parts.length ≤ 1 := by
  by_cases hg : g = 0
  · subst hg
    simp [h.involving_target hk rfl hgives]
  · have hlength := h.length_values
    cases parts with
    | nil =>
      cases h
      simp [stores, involving]
    | cons p parts =>
      obtain ⟨v, vs, rfl⟩ := List.exists_cons_of_length_eq_add_one hlength
      have hlength : vs.length = parts.length := by simpa using hlength
      have hp : p.store.instr.gives r ≠ 0 := by rwa [hgives p List.mem_cons_self]
      rw [h.involving_first hk hp]
      cases parts with
      | nil => simp [stores]
      | cons q parts =>
        obtain ⟨w, ws, rfl⟩ := List.exists_cons_of_length_eq_add_one hlength
        simp [stores, hg]

/-! ## Native arrays -/

/-- The elements of an array after an action : a store into it puts a value at an index. -/
def storeInto (array : Value) (elements : List (Option Value)) (a : Action) :
    List (Option Value) :=
  match a with
  | ⟨.stElem _, [target, .int index, v]⟩ =>
    if target = array then elements.set index.toNatClampNeg (some v) else elements
  | _ => elements

/-- The elements of the array that the action with number `k` made, where some were stored. -/
def array? (actions : List Action) (k : Nat) : Option (List (Option Value)) :=
  match actions.drop k with
  | ⟨.newArr _, [.int length]⟩ :: later =>
    some (later.foldl (storeInto (.given k)) (List.replicate length.toNatClampNeg none))
  | _ => none

theorem storeInto_other {array : Value} {a : Action} (h : array ∉ a.operands)
    (elements : List (Option Value)) : storeInto array elements a = elements := by
  unfold storeInto
  split
  · rename_i target index v
    have hne : target ≠ array := by
      rintro rfl
      exact h List.mem_cons_self
    rw [if_neg hne]
  · rfl

/-- Only the actions that took the array count. -/
theorem foldl_involving (array : Value) (later : List Action) (elements : List (Option Value)) :
    (involving array later).foldl (storeInto array) elements =
      later.foldl (storeInto array) elements := by
  induction later generalizing elements with
  | nil => rfl
  | cons a later ih =>
    rw [involving_cons, List.foldl_cons]
    split
    · rw [List.foldl_cons, ih]
    · rename_i ha
      rw [ih, storeInto_other ha]

/-- The parts of an array : the codes of its elements, from `index` on. -/
def arrayParts (element : TypeId) (index : Nat) (codes : List (List Instr)) : List Part :=
  (codes.zipIdx index).map fun c => ⟨c.1, .element element c.2⟩

/-- The stores of an array fill it up : what is `filled` stays, and each value goes to the next
place. -/
theorem foldl_stores (array : Value) (element : TypeId) (filled vs : List Value)
    (codes : List (List Instr)) (hlength : vs.length = codes.length)
    (hbound : filled.length + codes.length ≤ 2147483648) :
    (stores array (arrayParts element filled.length codes) vs).foldl (storeInto array)
        (filled.map some ++ List.replicate vs.length none) =
      (filled ++ vs).map some := by
  induction codes generalizing filled vs with
  | nil =>
    obtain rfl := List.length_eq_zero_iff.1 hlength
    simp [stores, arrayParts]
  | cons c codes ih =>
    obtain ⟨v, vs, rfl⟩ := List.exists_cons_of_length_eq_add_one hlength
    simp only [List.length_cons, Nat.add_right_cancel_iff] at hlength hbound
    have hstore : storeInto array (filled.map some ++ List.replicate (vs.length + 1) none)
        (Store.action (.element element filled.length) array v) =
          (filled ++ [v]).map some ++ List.replicate vs.length none := by
      have hindex : (Int32.ofNat filled.length).toNatClampNeg = filled.length :=
        Int32.toNatClampNeg_ofNat_of_lt (by omega)
      simp only [storeInto, Store.action, Store.instr, Store.key, List.cons_append,
        List.nil_append, if_true, hindex]
      rw [List.set_append_right _ _ (by simp)]
      simp [List.replicate_succ]
    have hfilled : (filled ++ [v]).length = filled.length + 1 := List.length_append
    have hrest := ih (filled ++ [v]) vs hlength (by omega)
    rw [hfilled] at hrest
    have hcons : stores array (arrayParts element filled.length (c :: codes)) (v :: vs) =
        Store.action (.element element filled.length) array v ::
          stores array (arrayParts element (filled.length + 1) codes) vs := rfl
    rw [hcons, List.foldl_cons, List.length_cons, hstore, hrest, List.append_assoc]
    rfl

/-- A new array with nothing but its stores done to it has each value at its index. -/
theorem array?_of_stores {element : TypeId} {codes : List (List Instr)} {later : List Action}
    (hlength : vs.length = codes.length) (hbound : codes.length < 2147483648)
    (hlater : involving (.given actions.length) later =
      stores (.given actions.length) (arrayParts element 0 codes) vs) :
    array? (actions ++ ⟨.newArr element, [.int (Int32.ofNat codes.length)]⟩ :: later)
      actions.length = some (vs.map some) := by
  have hfill := foldl_stores (.given actions.length) element [] vs codes hlength
    (by simp only [List.length_nil]; omega)
  have hsize : (Int32.ofNat codes.length).toNatClampNeg = codes.length :=
    Int32.toNatClampNeg_ofNat_of_lt (by omega)
  simp only [array?, List.drop_left, ← foldl_involving _ later, hlater, hsize]
  rw [← hlength]
  exact congrArg some hfill

example (r : Registry) (element : TypeId) :
    (run r ⟨[], []⟩ [.ldcI4 2, .newArr element, .dup, .ldcI4 0, .ldStr "a", .stElem element, .dup,
      .ldcI4 1, .ldNull, .stElem element]).map (array? ·.actions 0) =
        some (some [some (.text "a"), some .null]) :=
  rfl

end Dynascript.Native
