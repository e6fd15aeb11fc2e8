import Dynascript.Proofs.Resolve.Parts
import Dynascript.Resolve.Expr

/-!
# What becomes of an initializer

For the native target an array initializer resolves to a native array with its length as a constant
or to a new object with one element for each of its own (`ArrayShape`), an object initializer to a
new object with its fields in their order. That does not depend on how the type was found, so it is
shown for initializers of a known type, and every way to resolve one comes down to that
(`ArrayInitializer.resolved`, `ObjectInitializer.resolved`).
-/

namespace Dynascript.Resolve

variable {cx : Context} {r r₀ : Registry} {loc : Location} {elements : List Expr}
  {fields : List Field} {x : Resolve (Option TypedExpr)}

/-- The ways to resolve an array initializer : in place, after `new`, or for a known type. -/
inductive ArrayInitializer (loc : Location) (elements : List Expr) :
    Resolve (Option TypedExpr) → Prop
  | literal (site : Site) (vector : Option TypeName) :
      ArrayInitializer loc elements (resolve site (.array loc elements vector))
  | created (site : Site) (place : Location) (vector : Option TypeName) :
      ArrayInitializer loc elements (resolve site (.new place (.array loc elements vector)))
  | typed (type : TypeId) : ArrayInitializer loc elements (resolveArrayAs loc type elements)

/-- The ways to resolve an object initializer : in place, or for a known type. -/
inductive ObjectInitializer (loc : Location) (fields : List Field) :
    Resolve (Option TypedExpr) → Prop
  | literal (site : Site) : ObjectInitializer loc fields (resolve site (.object loc fields))
  | typed (type : TypeId) : ObjectInitializer loc fields (resolveObjectAs loc type fields)

/-! ## The parts -/

theorem resolveAll_length (es : List Expr) :
    Always (resolveAll es) cx r fun o =>
      ∀ trees, o.value = some trees → trees.length = es.length := by
  induction es generalizing r with
  | nil => exact always_pure fun trees h => Option.some.inj h ▸ rfl
  | cons e es ih =>
    refine always_bind fun a _ => always_bind fun b hb => always_both (fun tree trees _ hb' => ?_)
      (by simp)
    refine always_pure fun all hall => ?_
    obtain rfl := Option.some.inj hall
    simp [ih b hb trees hb']

theorem resolveFields_names (fields : List Field) :
    Always (resolveFields fields) cx r fun o =>
      ∀ properties, o.value = some properties →
        properties.map Property.name = fields.map Field.name := by
  induction fields generalizing r with
  | nil => exact always_pure fun properties h => Option.some.inj h ▸ rfl
  | cons f fields ih =>
    obtain ⟨name, place, value⟩ := f
    refine always_bind fun a _ => always_bind fun b hb =>
      always_both (fun tree properties _ hb' => ?_) (by simp)
    refine always_pure fun all hall => ?_
    obtain rfl := Option.some.inj hall
    rw [List.map_cons, List.map_cons, ih b hb properties hb']
    rfl

/-! ## The whole -/

/-- The step leaves the registry alone, and a tree that comes of it is `good`. -/
def Forms (good : TypedExpr → Prop) (x : Resolve (Option TypedExpr)) (cx : Context)
    (r : Registry) : Prop :=
  Always x cx r fun o => o.registry = r ∧ ∀ tree, o.value = some tree → good tree

variable {good : TypedExpr → Prop}

theorem forms_some {tree : TypedExpr} (h : good tree) : Forms good (pure (some tree)) cx r :=
  always_pure ⟨rfl, fun _ htree => Option.some.inj htree ▸ h⟩

theorem forms_none : Forms good (pure none) cx r := always_pure ⟨rfl, by simp⟩

/-- A check may complain, but it leaves the registry alone. -/
theorem Forms.after_check {ok : Prop} {check : Resolve Bool}
    {k : Bool → Resolve (Option TypedExpr)} (hc : Always check cx r (Checked ok r))
    (hk : ∀ passed, Forms good (k passed) cx r) : Forms good (check >>= k) cx r := by
  refine always_bind (hc.mono fun o ho => ?_)
  rw [ho.registry]
  exact hk o.value

/-- What becomes of an array initializer with these elements. -/
inductive ArrayShape (r : Registry) (trees : List TypedExpr) : TypedExpr → Prop
  | array {type element : TypeId} {loc : Location} :
      r.arrayElement type = .ok (some (element, 1)) →
      ArrayShape r trees
        (.arrayOf (.value type loc) element [lengthConstant loc trees.length] trees)
  | collection {type : TypeId} {loc : Location} : r.arrayElement type = .ok none →
      ArrayShape r trees (.newWith (.value type loc) [] (trees.map .element))

theorem arrayOf_forms (loc : Location) (type : TypeId) (trees : List TypedExpr)
    (hs : cx.settings.isScript = false) :
    Forms (ArrayShape r trees) (arrayOf loc type trees) cx r := by
  refine always_isScript ?_
  rw [hs]
  refine always_ask fun array harray => ?_
  cases array with
  | some found =>
    obtain ⟨element, rank⟩ := found
    dsimp only
    split
    · rename_i hrank
      exact forms_some (.array (hrank ▸ harray))
    · exact always_typeName (always_fail fun d => ⟨rfl, by simp⟩)
  | none =>
    refine Forms.after_check (checkConstructible_checked loc type) fun passed => ?_
    cases passed with
    | true => exact forms_some (.collection harray)
    | false => exact forms_none

/-- The new object that an object initializer becomes. -/
def objectTree (loc : Location) (type : TypeId) (properties : List Property) : TypedExpr :=
  .newWith (.value type loc) [] (properties.map fun p => .named p.name p.value)

theorem objectOf_forms (loc : Location) (type : TypeId) (fields : List Field)
    (properties : List Property) (hs : cx.settings.isScript = false) :
    Forms (· = objectTree loc type properties) (objectOf loc type fields properties) cx r := by
  have filled (accepted : Bool) : Forms (· = objectTree loc type properties)
      (if accepted then pure (some (objectTree loc type properties)) else pure none) cx r := by
    cases accepted with
    | true => exact forms_some rfl
    | false => exact forms_none
  refine always_isScript ?_
  rw [hs]
  refine Forms.after_check (checkConstructible_checked loc type) fun passed => ?_
  cases passed with
  | true =>
    refine always_ask fun keyed _ => ?_
    cases keyed with
    | true => exact always_pure_bind (filled true)
    | false => exact Forms.after_check (checkFields_checked type fields) filled
  | false => exact forms_none

/-- A tree that comes of an array initializer, begun at `r₀`, has its elements, as they were
resolved once the type was there, and the shape that its type calls for. -/
def ArrayResolved (cx : Context) (elements : List Expr) (r₀ : Registry)
    (o : Outcome (Option TypedExpr)) : Prop :=
  ∀ tree, o.value = some tree →
    ∃ r filed trees, r₀.Grows r ∧
      resolveAll elements cx r = .ok ⟨some trees, filed, o.registry⟩ ∧
      trees.length = elements.length ∧ ArrayShape o.registry trees tree

/-- A tree that comes of an object initializer, begun at `r₀`, has its fields, as they were
resolved once the type was there. -/
def ObjectResolved (cx : Context) (fields : List Field) (r₀ : Registry)
    (o : Outcome (Option TypedExpr)) : Prop :=
  ∀ tree, o.value = some tree →
    ∃ r filed properties loc type, r₀.Grows r ∧
      resolveFields fields cx r = .ok ⟨some properties, filed, o.registry⟩ ∧
      properties.map Property.name = fields.map Field.name ∧
      tree = objectTree loc type properties

theorem resolveArrayAs_resolved (loc : Location) (type : TypeId) (elements : List Expr)
    (hs : cx.settings.isScript = false) (hr : r₀.Grows r) :
    Always (resolveArrayAs loc type elements) cx r (ArrayResolved cx elements r₀) := by
  refine always_bind fun a ha => ?_
  obtain ⟨value, filed, r'⟩ := a
  refine always_andThen (fun trees htrees => ?_) (by simp [ArrayResolved])
  have hlength := resolveAll_length elements _ ha trees htrees
  dsimp only at htrees
  subst htrees
  refine (arrayOf_forms loc type trees hs).mono fun o ho tree htree => ?_
  obtain ⟨hregistry, hshape⟩ := ho
  dsimp only at hregistry ⊢
  rw [hregistry]
  exact ⟨r, filed, trees, hr, ha, hlength, hshape tree htree⟩

theorem resolveObjectAs_resolved (loc : Location) (type : TypeId) (fields : List Field)
    (hs : cx.settings.isScript = false) (hr : r₀.Grows r) :
    Always (resolveObjectAs loc type fields) cx r (ObjectResolved cx fields r₀) := by
  refine always_bind fun a ha => ?_
  obtain ⟨value, filed, r'⟩ := a
  refine always_andThen (fun properties hproperties => ?_) (by simp [ObjectResolved])
  have hnames := resolveFields_names fields _ ha properties hproperties
  dsimp only at hproperties
  subst hproperties
  refine (objectOf_forms loc type fields properties hs).mono fun o ho tree htree => ?_
  obtain ⟨hregistry, hshape⟩ := ho
  dsimp only at hregistry ⊢
  rw [hregistry]
  exact ⟨r, filed, properties, loc, type, hr, ha, hnames, hshape tree htree⟩

theorem ArrayInitializer.resolved (hx : ArrayInitializer loc elements x)
    (hs : cx.settings.isScript = false) : Always x cx r (ArrayResolved cx elements r) := by
  have inferred (site : Site) (vector : Option TypeName) :
      Always (arrayType vector site >>= fun type => resolveArrayAs loc type elements) cx r
        (ArrayResolved cx elements r) :=
    always_bind fun a ha =>
      resolveArrayAs_resolved loc a.value elements hs (arrayType_silent vector site a ha).2
  cases hx with
  | literal site vector => exact inferred site vector
  | created site place vector =>
    refine always_isScript ?_
    rw [hs]
    exact inferred site vector
  | typed type => exact resolveArrayAs_resolved loc type elements hs (.refl r)

theorem ObjectInitializer.resolved (hx : ObjectInitializer loc fields x)
    (hs : cx.settings.isScript = false) : Always x cx r (ObjectResolved cx fields r) := by
  cases hx with
  | literal site =>
    exact always_bind fun a ha =>
      resolveObjectAs_resolved loc a.value fields hs (objectType_silent site a ha).2
  | typed type => exact resolveObjectAs_resolved loc type fields hs (.refl r)

end Dynascript.Resolve
