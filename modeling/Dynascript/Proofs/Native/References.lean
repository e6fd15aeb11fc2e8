import Dynascript.Proofs.Native.Balance
import Dynascript.Proofs.Native.Refusals

/-!
# Members that native code names

Fields, methods and indexers are named in native code by a type and a name (`Instr.Refers`). Most
of the names were found by resolution, and are there. Five kinds of nodes have code that names a
member nobody looked for, or not in that way (`Linked`) :

* `undefined`, which is a field of a class that may have been given another member of that name;
* an element of a type whose member `Item` is no indexer;
* a method that is called like an accessor of an indexer;
* a collection initializer of a type without a method for adding;
* an object initializer of a type that takes members by key but has no indexer.

`references_exist_iff` : all members that the code of a unit names are there if and only if its
nodes of these kinds are linked.
-/

namespace Dynascript

namespace Registry

/-- `ty` has an indexer. -/
def HasIndexer (r : Registry) (ty : TypeId) : Prop :=
  ∃ owner key value, r.findMember ty Member.indexerName =
    .ok (some (owner, ⟨Member.indexerName, .indexer key value, false⟩))

/-- The type that an indexer belongs to has it, too. -/
theorem hasIndexer_owner {r : Registry} {ty owner : TypeId} {m : Member}
    (h : r.findMember ty Member.indexerName = .ok (some (owner, m))) :
    r.HasIndexer owner ↔ r.HasIndexer ty := by
  have howner := findMember_owner h
  constructor
  · rintro ⟨owner', key, value, hfind⟩
    cases howner.symm.trans hfind
    exact ⟨_, key, value, h⟩
  · rintro ⟨owner', key, value, hfind⟩
    cases h.symm.trans hfind
    exact ⟨_, key, value, howner⟩

end Registry

/-- The member that an instruction names is there, of the right sort. The accessors of an indexer
have names of their own. -/
def Instr.Refers (r : Registry) : Instr → Prop
  | ldFld owner name | stFld owner name =>
    ∃ declaring type, r.HasField owner name false declaring type
  | ldSFld owner name | stSFld owner name =>
    ∃ declaring type, r.HasField owner name true declaring type
  | call owner method _ => ∃ declaring result, r.HasMethod owner method true declaring result
  | callVirt owner method _ =>
    if method = Native.indexerGet ∨ method = Native.indexerSet then r.HasIndexer owner
    else ∃ declaring result, r.HasMethod owner method false declaring result
  | _ => True

namespace Native

open Resolve

variable {r : Registry} {cx : Context} {p q : Prop} {x y : Emission Instr}

/-- The type has what its instances are filled with : a method for adding, or an indexer if it
takes members by key. -/
def Fills (r : Registry) (type : TypeId) : Initializer → Prop
  | .element _ => ∃ declaring result, r.HasMethod type addMethod false declaring result
  | .named .. => r.isDynamicCapable type = .ok true → r.HasIndexer type

/-- The members that the code of the node names, and that resolution did not look for in that
way, are there. -/
def Linked (r : Registry) : TypedExpr → Prop
  | .staticField i owner name =>
    i.role = .value → ∃ declaring type, r.HasField owner name true declaring type
  | .element _ target _ =>
    r.isDynamic target.type = .ok false → r.arrayElement target.type = .ok none →
      ∀ found, r.findMember target.type Member.indexerName = .ok (some found) →
        r.HasIndexer target.type
  | .instanceCall _ _ owner method _ =>
    method = indexerGet ∨ method = indexerSet → r.HasIndexer owner
  | .newWith i _ initializers => ∀ x ∈ initializers, Fills r i.type x
  | _ => True

/-! ## Code and the nodes it is for -/

/-- The members that the code names are there if and only if `p` holds. -/
def RefersIff (r : Registry) (p : Prop) (code : List Instr) : Prop :=
  (∀ i ∈ code, i.Refers r) ↔ p

theorem refersIff_write {code : List Instr} (h : (∀ i ∈ code, i.Refers r) ↔ p) :
    (Emission.write code).Yields (RefersIff r p) :=
  Emission.yields_write h

theorem refersIff_instr {i : Instr} (h : i.Refers r ↔ p) :
    (Emission.write [i]).Yields (RefersIff r p) :=
  refersIff_write (by simpa using h)

theorem refersIff_then (hx : x.Yields (RefersIff r p)) (hy : y.Yields (RefersIff r q)) :
    (x ++ y).Yields (RefersIff r (p ∧ q)) :=
  hx.append hy fun _ _ ha hb => List.forall_mem_append.trans (and_congr ha hb)

theorem refersIff_congr (h : x.Yields (RefersIff r p)) (hpq : p ↔ q) :
    x.Yields (RefersIff r q) :=
  h.mono fun _ hcode => hcode.trans hpq

/-- Instructions that name nothing, or only what is there, may follow. -/
theorem refersIff_more (hx : x.Yields (RefersIff r p)) (code : List Instr)
    (hcode : ∀ i ∈ code, i.Refers r) : (x ++ .write code).Yields (RefersIff r p) :=
  refersIff_congr (refersIff_then hx (refersIff_write (iff_true_intro hcode))) (by rw [and_true])

/-- Such instructions may come before. -/
theorem refersIff_after {code : List Instr} (hx : x.Yields (RefersIff r p))
    (hcode : ∀ i ∈ code, i.Refers r) : (.write code ++ x).Yields (RefersIff r p) :=
  refersIff_congr (refersIff_then (refersIff_write (iff_true_intro hcode)) hx) (by rw [true_and])

/-- Every one of the nodes is linked. -/
def AllLinked (r : Registry) (ns : List Occurrence) : Prop := ∀ n ∈ ns, Linked r n.node

theorem allLinked_append {ns ms : List Occurrence} :
    AllLinked r (ns ++ ms) ↔ AllLinked r ns ∧ AllLinked r ms :=
  List.forall_mem_append

theorem allLinked_inner {e : TypedExpr} :
    AllLinked r (inner e) ↔ AllLinked r (e.children.flatMap inner) ∧ Linked r e := by
  rw [inner_eq, and_comm]
  exact List.forall_mem_cons

theorem allLinked_outer {e : TypedExpr} : AllLinked r (outer e) ↔ AllLinked r (inner e) := by
  rw [inner_eq, AllLinked, AllLinked, outer, List.forall_mem_cons, List.forall_mem_cons]

/-- The members that the code of the tree names are there if and only if its nodes are linked. -/
def Links (r : Registry) (e : TypedExpr) : Prop :=
  (code r e).Yields (RefersIff r (AllLinked r (inner e)))

theorem codeAll_links :
    ∀ {es : List TypedExpr}, (∀ e ∈ es, Links r e) →
      (codeAll r es).Yields (RefersIff r (AllLinked r (es.flatMap inner)))
  | [], _ => refersIff_write (by simp [AllLinked])
  | e :: es, h => by
    obtain ⟨he, hes⟩ := List.forall_mem_cons.1 h
    rw [codeAll, List.flatMap_cons]
    exact refersIff_congr (refersIff_then he (codeAll_links hes)) allLinked_append.symm

/-- The code of a node is that of its parts, and then what the node itself needs. -/
theorem links_node {e : TypedExpr}
    (hx : x.Yields (RefersIff r (AllLinked r (e.children.flatMap inner))))
    (hy : y.Yields (RefersIff r (Linked r e))) :
    (x ++ y).Yields (RefersIff r (AllLinked r (inner e))) :=
  refersIff_congr (refersIff_then hx hy) allLinked_inner.symm

theorem links_leaf {e : TypedExpr} (hleaf : e.children = [])
    (hx : x.Yields (RefersIff r (Linked r e))) :
    x.Yields (RefersIff r (AllLinked r (inner e))) :=
  refersIff_congr hx (by rw [allLinked_inner, hleaf]; simp [AllLinked])

/-- A node with one part. -/
theorem links_one {e c : TypedExpr} {i : Instr} (hc : Links r c) (hchildren : e.children = [c])
    (hi : i.Refers r ↔ Linked r e) :
    (code r c ++ .write [i]).Yields (RefersIff r (AllLinked r (inner e))) := by
  refine links_node ?_ (refersIff_instr hi)
  rw [hchildren, List.flatMap_singleton]
  exact hc

/-! ## The nodes whose members are looked up -/

theorem refers_staticField {i : Info} {owner : TypeId} {name : String}
    (h : Rule cx r (.staticField i owner name)) :
    (∃ declaring type, r.HasField owner name true declaring type) ↔
      Linked r (.staticField i owner name) := by
  refine ⟨fun hfield _ => hfield, fun hlinked => ?_⟩
  rcases h with ⟨-, hfield⟩ | ⟨hrole, -⟩
  · exact ⟨owner, i.type, hfield⟩
  · exact hlinked hrole

theorem refers_instanceField {i : Info} {target : TypedExpr} {owner : TypeId} {name : String}
    (h : Rule cx r (.instanceField i target owner name)) :
    ∃ declaring type, r.HasField owner name false declaring type := by
  obtain ⟨-, -, hfield⟩ := h
  exact ⟨owner, i.type, hfield.at_owner⟩

theorem refers_instanceCall {i : Info} {receiver : TypedExpr} {owner : TypeId} {method : String}
    {args : List TypedExpr} (h : Rule cx r (.instanceCall i receiver owner method args)) :
    (Instr.callVirt owner method args.length).Refers r ↔
      Linked r (.instanceCall i receiver owner method args) := by
  obtain ⟨-, hmethod⟩ := h
  simp only [Instr.Refers, Linked]
  split
  · rename_i haccessor
    exact ⟨fun hindexer _ => hindexer, fun hlinked => hlinked haccessor⟩
  · rename_i haccessor
    exact ⟨fun _ hname => absurd hname haccessor, fun _ => ⟨owner, i.type, hmethod.at_owner⟩⟩

/-- The instruction for an element names the indexer that was found, if any. -/
theorem refers_elementInstr {i : Info} {target : TypedExpr} {args : List TypedExpr}
    {late instr : Instr} {array : TypeId → Nat → Instr} {indexer : TypeId → Instr}
    (hlate : late.Refers r) (harray : ∀ element rank, (array element rank).Refers r)
    (hindexer : ∀ owner, (indexer owner).Refers r ↔ r.HasIndexer owner)
    (h : elementInstr r target.type late array indexer = .ok instr) :
    instr.Refers r ↔ Linked r (.element i target args) := by
  obtain ⟨dynamic, hdynamic, h⟩ := bind_eq_ok.1 h
  cases dynamic with
  | true =>
    cases h
    refine iff_of_true hlate fun hstatic => ?_
    cases hdynamic.symm.trans hstatic
  | false =>
    obtain ⟨shape, hshape, h⟩ := bind_eq_ok.1 h
    cases shape with
    | some found =>
      cases h
      refine iff_of_true (harray _ _) fun _ hnone => ?_
      cases hshape.symm.trans hnone
    | none =>
      obtain ⟨found, hfound, h⟩ := bind_eq_ok.1 h
      cases found with
      | none =>
        cases h
        refine iff_of_true hlate fun _ _ found hsome => ?_
        cases hfound.symm.trans hsome
      | some found =>
        cases h
        rw [hindexer, Registry.hasIndexer_owner hfound]
        exact ⟨fun hhas _ _ _ _ => hhas, fun hlinked => hlinked hdynamic hshape found hfound⟩

theorem loadElement_links {i : Info} {target : TypedExpr} {args : List TypedExpr} :
    (Emission.asking (loadElement r target.type args.length) fun load => .write [load]).Yields
      (RefersIff r (Linked r (.element i target args))) := by
  refine Emission.yields_asking fun load hload => refersIff_instr ?_
  rw [loadElement_eq] at hload
  refine refers_elementInstr (by trivial) (fun element rank => ?_) (fun owner => ?_) hload
  · split <;> trivial
  · simp [Instr.Refers]

theorem storeElement_links {i : Info} {target : TypedExpr} {args : List TypedExpr} :
    (Emission.asking (storeElement r target.type args.length) fun store => .write [store]).Yields
      (RefersIff r (Linked r (.element i target args))) := by
  refine Emission.yields_asking fun store hstore => refersIff_instr ?_
  rw [storeElement_eq] at hstore
  refine refers_elementInstr (by trivial) (fun element rank => ?_) (fun owner => ?_) hstore
  · split <;> trivial
  · simp [Instr.Refers]

/-! ## Initializers -/

theorem refers_add (type : TypeId) (value : TypedExpr) :
    (Instr.callVirt type addMethod 1).Refers r ↔ Fills r type (.element value) := by
  simp [Instr.Refers, Fills, addMethod, indexerGet, indexerSet]

theorem refers_key {type : TypeId} {name : String} {value : TypedExpr}
    (hkeyed : r.isDynamicCapable type = .ok true) :
    (Instr.callVirt type indexerSet 2).Refers r ↔ Fills r type (.named name value) := by
  simp [Instr.Refers, Fills, hkeyed]

theorem refers_name {type : TypeId} {name : String} {value : TypedExpr}
    (hkeyed : r.isDynamicCapable type = .ok false) (htakes : r.Takes type name) :
    (Instr.stFld type name).Refers r ↔ Fills r type (.named name value) := by
  refine iff_of_true ?_ fun hcapable => ?_
  · rcases htakes with hcapable | hfield
    · cases hkeyed.symm.trans hcapable
    · exact hfield
  · cases hkeyed.symm.trans hcapable

/-- Filling a new object needs what its initializers need, and their values. -/
theorem fill_links {type : TypeId} {keyed : Bool} (hkeyed : r.isDynamicCapable type = .ok keyed) :
    ∀ {xs : List Initializer}, (∀ x ∈ xs, Links r x.value) →
      (∀ name value, .named name value ∈ xs → r.Takes type name) →
      (fill r type keyed xs).Yields (RefersIff r
        (AllLinked r ((xs.map Initializer.value).flatMap inner) ∧ ∀ x ∈ xs, Fills r type x))
  | [], _, _ => refersIff_write (by simp [AllLinked])
  | x :: xs, h, htakes => by
    obtain ⟨hvalue, hxs⟩ := List.forall_mem_cons.1 h
    have hrest := fill_links hkeyed hxs fun name value hx =>
      htakes name value (List.mem_cons_of_mem _ hx)
    -- The step for the first initializer, and its one instruction that names a member.
    have first (before : List Instr) (i : Instr) (hbefore : ∀ i ∈ before, i.Refers r)
        (hi : i.Refers r ↔ Fills r type x) :
        (Emission.write before ++ code r x.value ++ .write [i] ++ fill r type keyed xs).Yields
          (RefersIff r (AllLinked r (((x :: xs).map Initializer.value).flatMap inner) ∧
            ∀ z ∈ x :: xs, Fills r type z)) := by
      have hfirst := refersIff_then (refersIff_after hvalue hbefore) (refersIff_instr hi)
      refine refersIff_congr (refersIff_then hfirst hrest) ?_
      rw [List.map_cons, List.flatMap_cons, allLinked_append, List.forall_mem_cons]
      exact and_and_and_comm
    cases x with
    | element value => exact first [.dup] _ (by simp [Instr.Refers]) (refers_add type value)
    | named name value =>
      cases keyed with
      | true => exact first [.dup, .ldStr name] _ (by simp [Instr.Refers]) (refers_key hkeyed)
      | false =>
        exact first [.dup] _ (by simp [Instr.Refers])
          (refers_name hkeyed (htakes name value List.mem_cons_self))

theorem newWith_links {i : Info} {args : List TypedExpr} {initializers : List Initializer}
    (hrule : Rule cx r (.newWith i args initializers))
    (hparts : ∀ c ∈ (TypedExpr.newWith i args initializers).children, Links r c) :
    Links r (.newWith i args initializers) := by
  obtain ⟨hargs, hvalues⟩ := List.forall_mem_append.1 hparts
  obtain ⟨-, -, -, -, hfill⟩ := hrule
  have htakes (name : String) (value : TypedExpr) (hx : .named name value ∈ initializers) :
      r.Takes i.type name := by
    rcases hfill with ⟨-, helements⟩ | hnamed
    · obtain ⟨_, hx'⟩ := helements _ hx
      cases hx'
    · obtain ⟨_, _, hx', htakes⟩ := hnamed _ hx
      cases hx'
      exact htakes
  have hfilled : (Emission.asking (r.isDynamicCapable i.type) fun keyed =>
      fill r i.type keyed initializers).Yields (RefersIff r
        (AllLinked r ((initializers.map Initializer.value).flatMap inner) ∧
          Linked r (.newWith i args initializers))) :=
    Emission.yields_asking fun keyed hkeyed =>
      fill_links hkeyed (fun x hx => hvalues _ (List.mem_map_of_mem hx)) htakes
  have hnew := refersIff_more (codeAll_links hargs) [.newObj i.type args.length]
    (by simp [Instr.Refers])
  refine refersIff_congr (refersIff_then hnew hfilled) ?_
  rw [allLinked_inner, TypedExpr.children, List.flatMap_append, allLinked_append, and_assoc]

theorem fillArray_links (element : TypeId) :
    ∀ {values : List TypedExpr} (index : Nat), (∀ e ∈ values, Links r e) →
      (fillArray r element index values).Yields
        (RefersIff r (AllLinked r (values.flatMap inner)))
  | [], _, _ => refersIff_write (by simp [AllLinked])
  | value :: rest, index, h => by
    obtain ⟨hvalue, hrest⟩ := List.forall_mem_cons.1 h
    have hindex : (loadIndex index).Yields (RefersIff r True) := by
      unfold loadIndex
      split
      · exact refersIff_write (by simp [Instr.Refers])
      · exact Emission.yields_reject
    have hfirst := refersIff_more (refersIff_then hindex hvalue) [.stElem element]
      (by simp [Instr.Refers])
    refine refersIff_congr (refersIff_then hfirst (fillArray_links element (index + 1) hrest)) ?_
    rw [List.flatMap_cons, allLinked_append, true_and]

theorem arrayOf_links {i : Info} {element : TypeId} {dimensions values : List TypedExpr}
    (hparts : ∀ c ∈ (TypedExpr.arrayOf i element dimensions values).children, Links r c) :
    Links r (.arrayOf i element dimensions values) := by
  obtain ⟨hdimensions, hvalues⟩ := List.forall_mem_append.1 hparts
  refine Emission.yields_asking fun array _ => ?_
  dsimp only
  split
  · have hnew := refersIff_more (codeAll_links hdimensions) [.newArr element]
      (by simp [Instr.Refers])
    refine refersIff_congr (refersIff_then hnew (fillArray_links element 0 hvalues)) ?_
    rw [allLinked_inner, TypedExpr.children, List.flatMap_append, allLinked_append]
    exact (and_iff_left trivial).symm
  · exact Emission.yields_reject

/-! ## Expressions -/

theorem constant_links (i : Info) (value : Constant) : Links r (.constant i value) := by
  have loaded (load : Instr) (hload : load.Refers r) :
      (Emission.write [load]).Yields (RefersIff r (AllLinked r (inner (.constant i value)))) :=
    links_leaf rfl (refersIff_instr (iff_of_true hload trivial))
  cases value with
  | int n =>
    refine loaded (loadInt n) ?_
    unfold loadInt
    split <;> trivial
  | string | number | bool | null => exact loaded _ trivial
  | regex | xml => exact Emission.yields_reject

theorem allLinked_assign {i : Info} {target value : TypedExpr} :
    AllLinked r (inner (.assign i target value)) ↔
      AllLinked r (inner target) ∧ AllLinked r (inner value) := by
  rw [allLinked_inner, inner_assign, allLinked_append]
  exact and_iff_left trivial

/-- Storing into a place needs what reading it needs. -/
theorem stored_links (target : TypedExpr) {value : TypedExpr} (before : List Instr) (i : Instr)
    (hleaf : target.children = []) (hbefore : ∀ i ∈ before, i.Refers r)
    (hi : i.Refers r ↔ Linked r target) (hvalue : Links r value) :
    (code r value ++ .write (before ++ [i])).Yields
      (RefersIff r (AllLinked r (inner target) ∧ AllLinked r (inner value))) := by
  have hstore : (Emission.write (before ++ [i])).Yields
      (RefersIff r (AllLinked r (inner target))) :=
    links_leaf hleaf (refersIff_write (by
      rw [List.forall_mem_append, List.forall_mem_singleton, hi]
      exact and_iff_right hbefore))
  exact refersIff_congr (refersIff_then hvalue hstore) and_comm

theorem code_links {e : TypedExpr} (h : Typed cx r e) : Links r e := by
  induction h with
  | @node e hrule below ih =>
    cases e with
    | constant i value => exact constant_links i value
    | localVar i name => exact links_leaf rfl (refersIff_instr (iff_of_true trivial trivial))
    | typeRef i => exact Emission.yields_reject
    | staticField i owner name =>
      exact links_leaf rfl (refersIff_instr (refers_staticField hrule))
    | instanceField i target owner name =>
      exact links_one (ih target List.mem_cons_self) rfl
        (iff_of_true (refers_instanceField hrule) trivial)
    | dynamicMember i target | cast i target =>
      exact links_one (ih target List.mem_cons_self) rfl (iff_of_true trivial trivial)
    | element i target args => exact links_node (codeAll_links ih) loadElement_links
    | staticCall i owner method args =>
      exact links_node (codeAll_links ih)
        (refersIff_instr (iff_of_true ⟨owner, i.type, hrule.2⟩ trivial))
    | instanceCall i receiver owner method args =>
      exact links_node (codeAll_links ih) (refersIff_instr (refers_instanceCall hrule))
    | dynamicCall | dynamicInvoke | new | dynamicNew =>
      exact links_node (codeAll_links ih) (refersIff_instr (iff_of_true trivial trivial))
    | newWith i args initializers => exact newWith_links hrule ih
    | newArray i element dimensions =>
      refine links_node (codeAll_links ih) (refersIff_instr (iff_of_true ?_ trivial))
      split <;> trivial
    | arrayOf i element dimensions values => exact arrayOf_links ih
    | assign i target value =>
      have hvalue : Links r value := ih value (by simp [TypedExpr.children])
      have htarget := (below target List.mem_cons_self).here
      unfold Links code
      split
      · rename_i j name
        have hstored := stored_links (.localVar j name) [.dup] (.stLoc name) rfl
          (by simp [Instr.Refers]) (iff_of_true trivial trivial) hvalue
        exact refersIff_congr hstored allLinked_assign.symm
      · rename_i j owner name
        have hstored := stored_links _ [.dup] (.stSFld owner name) rfl (by simp [Instr.Refers])
          (refers_staticField htarget) hvalue
        exact refersIff_congr hstored allLinked_assign.symm
      · exact Emission.yields_reject
    | scriptDelete | scriptNew | scriptTypeof | scriptIn | scriptUndefined | objectLiteral
    | arrayLiteral => exact Emission.yields_reject

theorem store_links {target value : TypedExpr} (htarget : Typed cx r target)
    (hvalue : Links r value) : (store r target value).Yields
      (RefersIff r (AllLinked r (inner target) ∧ AllLinked r (inner value))) := by
  have hparts := codeAll_links fun c hc => code_links (htarget.child hc)
  have hrule := htarget.here
  -- The parts of the place, then the value, then the instruction that stores.
  have through {y : Emission Instr} (hy : y.Yields (RefersIff r (Linked r target))) :
      (codeAll r target.children ++ code r value ++ y).Yields
        (RefersIff r (AllLinked r (inner target) ∧ AllLinked r (inner value))) := by
    refine refersIff_congr (refersIff_then (refersIff_then hparts hvalue) hy) ?_
    rw [allLinked_inner (e := target)]
    exact and_right_comm
  unfold store
  split
  · rename_i j name
    exact stored_links (.localVar j name) [] (.stLoc name) rfl nofun
      (iff_of_true trivial trivial) hvalue
  · rename_i j owner name
    exact stored_links _ [] (.stSFld owner name) rfl nofun (refers_staticField hrule) hvalue
  · rename_i j object owner name
    have hfield : (Instr.stFld owner name).Refers r := refers_instanceField hrule
    have hstored := through (refersIff_instr (iff_of_true hfield trivial))
    rwa [TypedExpr.children, codeAll_singleton] at hstored
  · rename_i j object name
    have hmember : (Instr.dynamicSet name).Refers r := trivial
    have hstored := through (refersIff_instr (iff_of_true hmember trivial))
    rwa [TypedExpr.children, codeAll_singleton] at hstored
  · exact through storeElement_links
  · exact Emission.yields_reject

theorem discard_links {e : TypedExpr} (h : Typed cx r e) :
    (discard r e).Yields (RefersIff r (AllLinked r (outer e))) := by
  unfold discard
  split
  · rename_i i target value
    have hvalue := code_links (h.child (c := value) (by simp [TypedExpr.children]))
    have hstore := store_links (h.child List.mem_cons_self) hvalue
    exact refersIff_congr hstore (allLinked_outer.trans allLinked_assign).symm
  · refine refersIff_congr (refersIff_more (code_links h) _ ?_) allLinked_outer.symm
    split <;> simp [Instr.Refers]

/-! ## Statements -/

/-- The trees keep to the typing rules, each in scopes of its own. -/
def TreesTyped (settings : Settings) (r : Registry) (es : List TypedExpr) : Prop :=
  ∀ e ∈ es, ∃ scopes, Typed ⟨settings, scopes⟩ r e

mutual

theorem stmtCode_links {settings : Settings} :
    ∀ {s : TypedStmt}, TreesTyped settings r s.trees →
      (stmtCode r s).Yields (RefersIff r (AllLinked r (kept s)))
  | .declare _ name type none, _ => refersIff_write (by simp [Instr.Refers, AllLinked, kept])
  | .declare _ name type (some value), h => by
    obtain ⟨scopes, hvalue⟩ := h value List.mem_cons_self
    rw [stmtCode, kept, Option.toList_some, List.flatMap_singleton]
    exact refersIff_more (refersIff_after (code_links hvalue) (by simp [Instr.Refers])) _
      (by simp [Instr.Refers])
  | .expr _ e, h => by
    obtain ⟨scopes, he⟩ := h e List.mem_cons_self
    exact discard_links he
  | .nonAssign _ e, h => by
    obtain ⟨scopes, he⟩ := h e List.mem_cons_self
    rw [stmtCode, kept]
    split
    · exact refersIff_write (by simp [AllLinked])
    · exact discard_links he
  | .block _ body, h => by
    rw [stmtCode, kept]
    exact unitCode_links h
  | .localFunction .., _ | .useNamespace .., _ => refersIff_write (by simp [AllLinked, kept])

theorem unitCode_links {settings : Settings} :
    ∀ {body : List TypedStmt}, TreesTyped settings r (TypedStmt.treesOf body) →
      (unitCode r body).Yields (RefersIff r (AllLinked r (keptOf body)))
  | [], _ => refersIff_write (by simp [AllLinked, keptOf])
  | s :: rest, h => by
    obtain ⟨hs, hrest⟩ := List.forall_mem_append.1 h
    rw [unitCode, keptOf]
    exact refersIff_congr (refersIff_then (stmtCode_links hs) (unitCode_links hrest))
      allLinked_append.symm

end

/-- The members that the code of a unit names are there, of the right sort, if and only if every
node of the unit that is kept is linked. The unit may be written out over any later registry. -/
theorem references_exist_iff {R r : Registry} {settings : Settings} {body : List Stmt}
    {o : Resolve.Resolved} {typed : List TypedStmt} {code : List Instr}
    (ho : Resolve.statements .fresh body ⟨settings, .fresh⟩ R = .ok o)
    (htyped : o.value.1 = some typed) (hgrows : o.registry.Grows r)
    (hcode : (unitCode r typed).result = .ok (.ok code)) :
    (∀ i ∈ code, i.Refers r) ↔ ∀ n ∈ keptOf typed, Linked r n.node := by
  obtain ⟨-, hbody, -⟩ := (Resolve.statements_thread body .fresh _ R o ho).quiet typed htyped
  have htrees : TreesTyped settings r (TypedStmt.treesOf typed) := (hbody.grow hgrows).tree
  obtain ⟨hstop, rfl⟩ := Emission.result_eq_ok.1 hcode
  exact unitCode_links htrees hstop

/-- `var o: Object = [null]`, and what it resolves to. -/
def boxDeclaration : Stmt :=
  .declare .origin ⟨"o", some (.mk "Object" [] 0 .origin),
    some (.array .origin [.literal .origin .null] none), .origin⟩

def boxTyped : TypedStmt :=
  .declare .origin "o" .object (some (.newWith (.value .object .origin) []
    [.element (.constant (.value .null .origin) .null)]))

theorem boxDeclaration_resolves :
    statements .fresh [boxDeclaration] ⟨{ dialect := .extended }, .fresh⟩
        (.bootstrap defaultRoot) =
      .ok ⟨(some [boxTyped], Scopes.fresh.declare "o" .object), [], .bootstrap defaultRoot⟩ := by
  have hstatement : statement .fresh boxDeclaration ⟨{ dialect := .extended }, .fresh⟩
      (.bootstrap defaultRoot) =
        .ok ⟨(some boxTyped, Scopes.fresh.declare "o" .object), [], .bootstrap defaultRoot⟩ := rfl
  rw [statements, bind_run, hstatement]
  rfl

/-- The code calls a method of `Object` that `Object` does not have. -/
theorem object_has_no_add :
    let R := Registry.bootstrap defaultRoot
    let code : List Instr := [.declareLocal "o" .object, .newObj .object 0, .dup, .ldNull,
      .callVirt .object addMethod 1, .stLoc "o"]
    (∃ o, statements .fresh [boxDeclaration] ⟨{ dialect := .extended }, .fresh⟩ R = .ok o ∧
      o.value.1 = some [boxTyped] ∧ o.registry = R) ∧
      (unitCode R [boxTyped]).result = .ok (.ok code) ∧ ¬∀ i ∈ code, i.Refers R := by
  intro R code
  have hcode : (unitCode R [boxTyped]).result = .ok (.ok code) := rfl
  have hnone : R.findMember .object addMethod = .ok none := rfl
  refine ⟨⟨_, boxDeclaration_resolves, rfl, rfl⟩, hcode, fun hall => ?_⟩
  have hlinked := (references_exist_iff boxDeclaration_resolves rfl (.refl R) hcode).1 hall
  have hnew : Linked R (.newWith (.value .object .origin) []
      [.element (.constant (.value .null .origin) .null)]) :=
    hlinked ⟨false, _⟩
      (List.mem_append_left _ (List.mem_flatMap.2 ⟨_, List.mem_cons_self, mem_inner _⟩))
  obtain ⟨declaring, result, parameters, hfind⟩ := hnew _ List.mem_cons_self
  cases hnone.symm.trans hfind

end Native

end Dynascript
