import Dynascript.Proofs.Native.Filling
import Dynascript.Proofs.Native.StackSafety
import Dynascript.Proofs.Resolve.Initializers

/-!
# What an initializer builds

For the native target an array initializer becomes a native array of its length or a new object that
its elements are added to, and an object initializer a new object with one named store for each of
its fields. `Construction` is a run of such code on any stack : what makes the object, what is
stored, and what is left above it. It is `Faithful` if all that is done with the object are the
stores, one for each part and in their order.

`initializers_build` : arrays and objects are always built that way and left on top. A collection is
unless adding gives a value : then only the first element is added to it, every other one to what
came back from the one before.
-/

namespace Dynascript

open Resolve

namespace Native

variable {r : Registry}

/-! ## The code of initializers -/

/-- An element that is added. -/
def addedPart (r : Registry) (type : TypeId) (e : TypedExpr) : Part :=
  ⟨(code r e).written, .add type⟩

/-- A field, which is stored by key if the type of the object is `keyed`. -/
def namedPart (r : Registry) (type : TypeId) (keyed : Bool) (p : Property) : Part :=
  ⟨(code r p.value).written, if keyed then .entry type p.name else .field type p.name⟩

/-- The code of a part : the object is doubled and the key loaded, then the value is stored. -/
theorem yields_part {load rest : Emission Instr} {e : TypedExpr} {s : Store} {parts : List Part}
    (hload : load.Yields (· = .dup :: s.load))
    (hrest : rest.Yields (· = parts.flatMap Part.instrs)) :
    (load ++ code r e ++ .write [s.instr] ++ rest).Yields
      (· = (⟨(code r e).written, s⟩ :: parts).flatMap Part.instrs) := by
  have hvalue : (code r e).Yields (· = (code r e).written) := fun _ => rfl
  have hstore : (Emission.write [s.instr]).Yields (· = [s.instr]) := Emission.yields_write rfl
  have hpart := ((hload.append_eq hvalue).append_eq hstore).append_eq hrest
  simpa [Part.instrs] using hpart

theorem fill_elements (type : TypeId) (keyed : Bool) (es : List TypedExpr) :
    (fill r type keyed (es.map .element)).Yields
      (· = (es.map (addedPart r type)).flatMap Part.instrs) := by
  induction es with
  | nil => exact Emission.yields_write rfl
  | cons e es ih => exact yields_part (s := .add type) (Emission.yields_write rfl) ih

theorem fill_fields (type : TypeId) (keyed : Bool) (properties : List Property) :
    (fill r type keyed (properties.map fun p => .named p.name p.value)).Yields
      (· = (properties.map (namedPart r type keyed)).flatMap Part.instrs) := by
  induction properties with
  | nil => exact Emission.yields_write rfl
  | cons p properties ih =>
    cases keyed with
    | true => exact yields_part (s := .entry type p.name) (Emission.yields_write rfl) ih
    | false => exact yields_part (s := .field type p.name) (Emission.yields_write rfl) ih

theorem fillArray_elements (element : TypeId) (index : Nat) (es : List TypedExpr) :
    (fillArray r element index es).Yields
      (· = (arrayParts element index (es.map fun e => (code r e).written)).flatMap
        Part.instrs) := by
  induction es generalizing index with
  | nil => exact Emission.yields_write rfl
  | cons e es ih =>
    have hload : (loadIndex index).Yields (· = .dup :: (Store.element element index).load) := by
      unfold loadIndex
      split
      · exact Emission.yields_write rfl
      · exact Emission.yields_reject
    exact yields_part hload (ih (index + 1))

/-- A new object is made without arguments, and filled. -/
theorem newWith_yields {info : Info} {initializers : List Initializer} {parts : Bool → List Part}
    (hfill : ∀ keyed, (fill r info.type keyed initializers).Yields
      (· = (parts keyed).flatMap Part.instrs)) :
    (code r (.newWith info [] initializers)).Yields fun instrs =>
      ∃ keyed, r.isDynamicCapable info.type = .ok keyed ∧
        instrs = [.newObj info.type 0] ++ (parts keyed).flatMap Part.instrs := by
  have hnew : (Emission.write [Instr.newObj info.type 0]).Yields (· = [.newObj info.type 0]) :=
    Emission.yields_write rfl
  have hfilled : (Emission.asking (r.isDynamicCapable info.type) fun keyed =>
      fill r info.type keyed initializers).Yields fun instrs =>
        ∃ keyed, r.isDynamicCapable info.type = .ok keyed ∧
          instrs = (parts keyed).flatMap Part.instrs :=
    Emission.yields_asking fun keyed hkeyed => (hfill keyed).mono fun _ h => ⟨keyed, hkeyed, h⟩
  refine hnew.append hfilled fun _ _ h h' => ?_
  obtain ⟨keyed, hkeyed, hinstrs⟩ := h'
  exact ⟨keyed, hkeyed, congrArg₂ (· ++ ·) h hinstrs⟩

/-- A length below 2³¹ is loaded in four bytes. -/
theorem loadInt_length {n : Nat} (hn : n < 2147483648) :
    loadInt (Int64.ofNat n) = .ldcI4 (Int32.ofNat n) := by
  have hvalue : (Int64.ofNat n).toInt = n := Int64.toInt_ofNat_of_lt (by omega)
  rw [loadInt, hvalue, if_pos (by omega)]
  simp

theorem lengthConstant_yields (loc : Location) {n : Nat} (hn : n < 2147483648) :
    (code r (lengthConstant loc n)).Yields (· = [.ldcI4 (Int32.ofNat n)]) := by
  rw [lengthConstant, if_pos (by omega), code, loadConstant?, loadInt_length hn]
  exact Emission.yields_write rfl

/-- A native array is made with its length, and filled. -/
theorem arrayOf_yields {info : Info} {element : TypeId} {loc : Location} {n : Nat}
    {es : List TypedExpr} (hn : n < 2147483648) :
    (code r (.arrayOf info element [lengthConstant loc n] es)).Yields
      (· = [.ldcI4 (Int32.ofNat n), .newArr element] ++
        (arrayParts element 0 (es.map fun e => (code r e).written)).flatMap Part.instrs) := by
  have hnew : (Emission.write [Instr.newArr element]).Yields (· = [.newArr element]) :=
    Emission.yields_write rfl
  have hlength : (codeAll r [lengthConstant loc n]).Yields (· = [.ldcI4 (Int32.ofNat n)]) := by
    rw [codeAll_singleton]
    exact lengthConstant_yields loc hn
  refine Emission.yields_asking fun array _ => ?_
  dsimp only
  split
  · exact (hlength.append_eq hnew).append_eq (fillArray_elements element 0 es)
  · exact Emission.yields_reject

/-! ## Constructions -/

/-- A run of code that makes an object by `make` and fills it with the parts : the values of the
parts, what is done once the object is there, and what is left on the stack above it. -/
structure Construction (r : Registry) (make : Action) (parts : List Part) (m : Machine)
    (instrs : List Instr) where
  values : List Value
  later : List Action
  pile : List Value
  run : Native.run r m instrs =
    some ⟨pile ++ .given m.actions.length :: m.stack, m.actions ++ make :: later⟩
  fills : Filling r (.given m.actions.length) (m.actions ++ [make]) parts values later

variable {make : Action} {parts : List Part} {m : Machine} {instrs first : List Instr}

/-- An object is made without arguments. -/
def Action.newObject (type : TypeId) : Action := ⟨.newObj type 0, []⟩

/-- An array is made with its length. -/
def Action.newArray (element : TypeId) (length : Nat) : Action :=
  ⟨.newArr element, [.int (Int32.ofNat length)]⟩

/-- The elements of the object, if it is an array. -/
def Construction.elements? (c : Construction r make parts m instrs) :
    Option (List (Option Value)) :=
  array? (m.actions ++ make :: c.later) m.actions.length

/-- All that is done with the object are the stores, one for each part. -/
def Construction.Faithful (c : Construction r make parts m instrs) : Prop :=
  involving (.given m.actions.length) c.later = stores (.given m.actions.length) parts c.values

/-- Code that makes an object and then fills it is a construction. It is faithful, with the object
on top, if storing gives nothing; what the stores give else is left above the object. -/
theorem exists_construction {g : Nat}
    (hmake : run r m first = some ⟨.given m.actions.length :: m.stack, m.actions ++ [make]⟩)
    (hcodes : ∀ p ∈ parts, runHeight r 0 p.code = some 1)
    (hgives : ∀ p ∈ parts, p.store.instr.gives r = g) :
    ∃ c : Construction r make parts m (first ++ parts.flatMap Part.instrs),
      (c.Faithful ↔ g = 0 ∨ parts.length ≤ 1) ∧ c.pile.length = parts.length * g := by
  obtain ⟨vs, later, pile, hfills, hrun, hpile⟩ :=
    run_parts hcodes (.given m.actions.length) m.stack (m.actions ++ [make])
  have hwhole : run r m (first ++ parts.flatMap Part.instrs) =
      some ⟨pile ++ .given m.actions.length :: m.stack, m.actions ++ make :: later⟩ := by
    rw [run_append, hmake, Option.bind_some, hrun, List.append_assoc]
    rfl
  refine ⟨⟨vs, later, pile, hwhole, hfills⟩, hfills.involving_iff (by simp) hgives, ?_⟩
  rw [hpile, List.map_congr_left hgives]
  simp

theorem run_newObj (type : TypeId) (m : Machine) :
    run r m [.newObj type 0] =
      some ⟨.given m.actions.length :: m.stack, m.actions ++ [.newObject type]⟩ :=
  rfl

theorem run_newArr (element : TypeId) (n : Nat) (m : Machine) :
    run r m [.ldcI4 (Int32.ofNat n), .newArr element] =
      some ⟨.given m.actions.length :: m.stack, m.actions ++ [.newArray element n]⟩ :=
  rfl

/-- The code of the tree pushes one value and does not touch the stack below. -/
def PushesOne (r : Registry) (e : TypedExpr) : Prop := runHeight r 0 (code r e).written = some 1

variable {es : List TypedExpr}

/-- The parts of an array with these elements. -/
def elementParts (r : Registry) (element : TypeId) (es : List TypedExpr) : List Part :=
  arrayParts element 0 (es.map fun e => (code r e).written)

theorem array_construction (element : TypeId) (hes : ∀ e ∈ es, PushesOne r e)
    (hlength : es.length < 2147483648) (m : Machine) :
    ∃ c : Construction r (.newArray element es.length) (elementParts r element es) m
        ([.ldcI4 (Int32.ofNat es.length), .newArr element] ++
          (elementParts r element es).flatMap Part.instrs),
      c.pile = [] ∧ c.Faithful ∧ c.elements? = some (c.values.map some) := by
  have hparts : ∀ p ∈ elementParts r element es,
      runHeight r 0 p.code = some 1 ∧ p.store.instr.gives r = 0 := by
    intro p hp
    obtain ⟨c, hc, rfl⟩ := List.mem_map.1 hp
    obtain ⟨e, he, heq⟩ := List.mem_map.1 (List.fst_mem_of_mem_zipIdx hc)
    exact ⟨heq ▸ hes e he, rfl⟩
  obtain ⟨c, hfaithful, hpile⟩ := exists_construction (run_newArr element es.length m)
    (fun p hp => (hparts p hp).1) fun p hp => (hparts p hp).2
  have hfaithful := hfaithful.2 (.inl rfl)
  have hvalues : c.values.length = (es.map fun e => (code r e).written).length := by
    simpa [elementParts, arrayParts] using c.fills.length_values
  have harray := array?_of_stores hvalues (by simpa using hlength) hfaithful
  refine ⟨c, List.length_eq_zero_iff.1 hpile, hfaithful, ?_⟩
  rwa [List.length_map] at harray

theorem collection_construction (type : TypeId) (hes : ∀ e ∈ es, PushesOne r e) (m : Machine) :
    ∃ c : Construction r (.newObject type) (es.map (addedPart r type)) m
        ([.newObj type 0] ++ (es.map (addedPart r type)).flatMap Part.instrs),
      (c.Faithful ↔ callGives r type addMethod = 0 ∨ es.length ≤ 1) ∧
        c.pile.length = es.length * callGives r type addMethod := by
  have hgives : ∀ p ∈ es.map (addedPart r type),
      p.store.instr.gives r = callGives r type addMethod :=
    List.forall_mem_map.2 fun e _ => gives_addMethod type 1
  have hconstruction := exists_construction (run_newObj type m) (List.forall_mem_map.2 hes) hgives
  rwa [List.length_map] at hconstruction

theorem object_construction (type : TypeId) (keyed : Bool) {properties : List Property}
    (hvalues : ∀ p ∈ properties, PushesOne r p.value) (m : Machine) :
    ∃ c : Construction r (.newObject type) (properties.map (namedPart r type keyed)) m
        ([.newObj type 0] ++ (properties.map (namedPart r type keyed)).flatMap Part.instrs),
      c.pile = [] ∧ c.Faithful := by
  have hgives : ∀ p ∈ properties.map (namedPart r type keyed), p.store.instr.gives r = 0 := by
    refine List.forall_mem_map.2 fun p _ => ?_
    cases keyed with
    | true => exact gives_indexerSet type 2
    | false => rfl
  obtain ⟨c, hfaithful, hpile⟩ := exists_construction (run_newObj type m)
    (List.forall_mem_map.2 hvalues) hgives
  exact ⟨c, List.length_eq_zero_iff.1 hpile, hfaithful.2 (.inl rfl)⟩

/-! ## Compiled initializers -/

/-- The step resolves to the tree, and the tree is written as the instructions. -/
structure Compiles (x : Resolve (Option TypedExpr)) (cx : Context) (r₀ : Registry)
    (tree : TypedExpr) (r : Registry) (instrs : List Instr) : Prop where
  resolves : ∃ filed, x cx r₀ = .ok ⟨some tree, filed, r⟩
  emits : (code r tree).result = .ok (.ok instrs)

variable {x : Resolve (Option TypedExpr)} {cx : Context} {r₀ : Registry} {tree : TypedExpr}

theorem Compiles.yields {p : List Instr → Prop} (h : Compiles x cx r₀ tree r instrs)
    (hp : (code r tree).Yields p) : p instrs := by
  obtain ⟨hstop, rfl⟩ := Emission.result_eq_ok.1 h.emits
  exact hp hstop

/-- Initializers for the native target, on any stack, with elements whose code pushes one value
each. An array initializer of a native array makes one array of its length with the values at their
indices, each stored once and in their order, and leaves it on top. An object initializer makes one
object with one named store for each of its fields, in their order, and leaves it on top. Any other
array initializer makes one object, but each element is added to it only if adding gives nothing or
there is no second element. -/
theorem initializers_build (hs : cx.settings.isScript = false)
    (h : Compiles x cx r₀ tree r instrs) :
    (∀ loc elements, ArrayInitializer loc elements x → elements.length < 2147483648 →
      ∃ r₁ filed trees array, r₀.Grows r₁ ∧
        resolveAll elements cx r₁ = .ok ⟨some trees, filed, r⟩ ∧
        trees.length = elements.length ∧ r.arrayElement tree.type = .ok array ∧
        ((∀ e ∈ trees, PushesOne r e) → ∀ m,
          (∀ element rank, array = some (element, rank) →
            ∃ c : Construction r (.newArray element elements.length)
                (elementParts r element trees) m instrs,
              c.pile = [] ∧ c.Faithful ∧ c.elements? = some (c.values.map some)) ∧
          (array = none →
            ∃ c : Construction r (.newObject tree.type) (trees.map (addedPart r tree.type)) m
                instrs,
              (c.Faithful ↔ callGives r tree.type addMethod = 0 ∨ elements.length ≤ 1) ∧
                c.pile.length = elements.length * callGives r tree.type addMethod))) ∧
    (∀ loc fields, ObjectInitializer loc fields x →
      ∃ r₁ filed properties keyed, r₀.Grows r₁ ∧
        resolveFields fields cx r₁ = .ok ⟨some properties, filed, r⟩ ∧
        properties.map Property.name = fields.map Field.name ∧
        r.isDynamicCapable tree.type = .ok keyed ∧
        ((∀ p ∈ properties, PushesOne r p.value) → ∀ m,
          ∃ c : Construction r (.newObject tree.type)
              (properties.map (namedPart r tree.type keyed)) m instrs,
            c.pile = [] ∧ c.Faithful)) := by
  obtain ⟨filed, hresolves⟩ := h.resolves
  constructor
  · intro loc elements hx hlength
    obtain ⟨r₁, filed, trees, hgrows, hrun, htrees, hshape⟩ := hx.resolved hs _ hresolves tree rfl
    rw [← htrees] at hlength ⊢
    cases hshape with
    | @array type element loc harray =>
      obtain rfl := h.yields (arrayOf_yields hlength)
      refine ⟨r₁, filed, trees, _, hgrows, hrun, rfl, harray, fun hes m => ⟨?_, by simp⟩⟩
      rintro element rank ⟨⟩
      exact array_construction element hes hlength m
    | @collection type loc harray =>
      obtain ⟨keyed, -, rfl⟩ := h.yields
        (newWith_yields fun keyed => fill_elements (r := r) type keyed trees)
      refine ⟨r₁, filed, trees, none, hgrows, hrun, rfl, harray, fun hes m => ⟨by simp, ?_⟩⟩
      exact fun _ => collection_construction type hes m
  · intro loc fields hx
    obtain ⟨r₁, filed, properties, loc, type, hgrows, hrun, hnames, rfl⟩ :=
      hx.resolved hs _ hresolves tree rfl
    obtain ⟨keyed, hkeyed, rfl⟩ := h.yields
      (newWith_yields fun keyed => fill_fields (r := r) type keyed properties)
    exact ⟨r₁, filed, properties, keyed, hgrows, hrun, hnames, hkeyed,
      object_construction type keyed⟩

/-- Two elements for a tally, and the tree that they become. -/
def tallyPair : List Expr := [.literal .origin (.string "a"), .literal .origin (.string "b")]

def tallyPairTrees : List TypedExpr :=
  [.constant (.value .string .origin) (.string "a"),
    .constant (.value .string .origin) (.string "b")]

def tallyPairTree : TypedExpr := .newWith (.value ⟨22⟩ .origin) [] (tallyPairTrees.map .element)

theorem tallyPair_resolves :
    resolve (.ofDeclared (.typed ⟨22⟩)) (.array .origin tallyPair none)
        ⟨{ dialect := .extended }, .fresh⟩ tallyRegistry =
      .ok ⟨some tallyPairTree, [], tallyRegistry⟩ := by
  unfold tallyPair
  rfl

/-- Adding to a tally gives a number, so with two elements the second one is added to the number,
and both numbers are left above the tally. -/
theorem second_element_added_to_number :
    let add : Instr := .callVirt ⟨22⟩ addMethod 1
    let instrs := [.newObj ⟨22⟩ 0, .dup, .ldStr "a", add, .dup, .ldStr "b", add]
    Compiles (resolve (.ofDeclared (.typed ⟨22⟩)) (.array .origin tallyPair none))
      ⟨{ dialect := .extended }, .fresh⟩ tallyRegistry tallyPairTree tallyRegistry instrs ∧
    run tallyRegistry ⟨[], []⟩ instrs = some ⟨[.given 2, .given 1, .given 0],
      [.newObject ⟨22⟩, ⟨add, [.given 0, .text "a"]⟩, ⟨add, [.given 1, .text "b"]⟩]⟩ ∧
    ∀ m, ∃ c : Construction tallyRegistry (.newObject ⟨22⟩)
        (tallyPairTrees.map (addedPart tallyRegistry ⟨22⟩)) m instrs,
      ¬c.Faithful ∧ c.pile.length = 2 := by
  intro add instrs
  have hcompiles : Compiles (resolve (.ofDeclared (.typed ⟨22⟩)) (.array .origin tallyPair none))
      ⟨{ dialect := .extended }, .fresh⟩ tallyRegistry tallyPairTree tallyRegistry instrs :=
    ⟨⟨[], tallyPair_resolves⟩, rfl⟩
  refine ⟨hcompiles, rfl, fun m => ?_⟩
  obtain ⟨r₁, filed, trees, array, -, hrun, -, harray, hbuilds⟩ :=
    (initializers_build rfl hcompiles).1 .origin tallyPair (.literal _ _) (by decide)
  have hpair (cx : Context) : resolveAll tallyPair cx r₁ = .ok ⟨some tallyPairTrees, [], r₁⟩ := rfl
  obtain ⟨htrees, -, -⟩ := Outcome.mk.inj (Except.ok.inj ((hpair _).symm.trans hrun))
  obtain rfl := Option.some.inj htrees
  have hone : ∀ e ∈ tallyPairTrees, PushesOne tallyRegistry e :=
    List.forall_mem_cons.2 ⟨rfl, List.forall_mem_singleton.2 rfl⟩
  have hnative : tallyRegistry.arrayElement tallyPairTree.type = .ok none := rfl
  obtain ⟨c, hfaithful, hpile⟩ := (hbuilds hone m).2 (Except.ok.inj (harray.symm.trans hnative))
  have hgives : callGives tallyRegistry tallyPairTree.type addMethod = 1 := rfl
  rw [hgives] at hfaithful hpile
  exact ⟨c, fun hc => absurd (hfaithful.1 hc) (by decide), hpile⟩

end Native

end Dynascript
