import Dynascript.Proofs.Resolve.Parts
import Dynascript.Resolve.Expr

/-!
# Expressions read as types

`new` for the native target first reads its callee as a type, filing nothing (`exprType`), and
resolves it as a value only if that gives none. The two readings go different ways : the first
joins a chain of names and asks what variable it starts at, the other takes the chain apart from
the end. They agree on every expression (`exprType_agrees`). Three facts carry this :

- reading without a report is reading with one and dropping what was filed (`writtenType_false`);
- a written type that is read again is found with all its parts (`writtenType_repeats`), so it
  makes no difference that a reading made some of them and then failed;
- what is not written as a type resolves to a value (`Valued`), by the last step of its resolution
  alone.
-/

namespace Dynascript

/-! ## Types that are asked for again -/

namespace TypeTable

variable {t t' : TypeTable} {p : TypeKind → Bool}

theorem findKind?_mono (h : t.Extends t') {id : TypeId} (hf : t.findKind? p = some id) :
    t'.findKind? p = some id := by
  obtain ⟨added, hadded⟩ := h
  obtain ⟨i, hi, rfl⟩ := Option.map_eq_some_iff.1 hf
  have hentries : t'.entries = t.entries ++ added.toArray := Array.ext' (by simp [hadded])
  rw [findKind?, hentries, Array.findIdx?_append, hi]
  rfl

theorem findKind?_add (h : t.findKind? p = none) {kind : TypeKind} (hp : p kind = true)
    (flags : TypeFlags) (name space : String) :
    (t.add flags name space kind).findKind? p = some t.next := by
  have hnone : t.entries.findIdx? (p ·.kind) = none := Option.map_eq_none_iff.1 h
  rw [findKind?, add, Array.findIdx?_push, hnone]
  simp [hp, next]

end TypeTable

namespace Registry

variable {r r' r'' : Registry}

theorem makeGeneric_again {definition id : TypeId} {args : List TypeId}
    (h : r.makeGeneric definition args = .ok (id, r')) (hr : r'.Grows r'') :
    r''.makeGeneric definition args = .ok (id, r'') := by
  have hfound : r''.table.instance? definition args = some id := by
    unfold makeGeneric at h
    cases hi : r.table.instance? definition args with
    | some found =>
      simp only [hi] at h
      cases h
      exact TypeTable.findKind?_mono hr.table hi
    | none =>
      simp only [hi] at h
      obtain ⟨d, -, h⟩ := bind_eq_ok.1 h
      cases h
      exact TypeTable.findKind?_mono hr.table (TypeTable.findKind?_add hi (by simp) _ _ _)
  rw [makeGeneric, hfound]

theorem makeArray_again {element : TypeId} {rank : Nat}
    (hr : (r.makeArray element rank).2.Grows r') :
    r'.makeArray element rank = ((r.makeArray element rank).1, r') := by
  have hfound : r'.table.array? element rank = some (r.makeArray element rank).1 := by
    unfold makeArray at hr ⊢
    cases hi : r.table.array? element rank with
    | some found =>
      simp only [hi] at hr
      exact TypeTable.findKind?_mono hr.table hi
    | none =>
      simp only [hi] at hr
      exact TypeTable.findKind?_mono hr.table (TypeTable.findKind?_add hi (by simp) _ _ _)
  rw [makeArray, hfound]

end Registry

namespace Resolve

variable {α β γ : Type} {cx : Context} {r : Registry} {loc : Location} {type : TypeId}
  {name : String} {target : TypedExpr} {args : List TypedExpr}

/-- Done again later, the step gives and files the same and makes no types. -/
def Repeats (cx : Context) (x : Resolve α) : Prop :=
  ∀ r o, x cx r = .ok o → r.Grows o.registry ∧
    ∀ r', o.registry.Grows r' → x cx r' = .ok ⟨o.value, o.filed, r'⟩

theorem repeats_pure (a : α) : Repeats cx (pure a : Resolve α) := by
  rintro r o ⟨⟩
  exact ⟨.refl r, fun _ _ => rfl⟩

theorem repeats_complain (message : Message) (loc : Location) (strings : List String) :
    Repeats cx (complain message loc strings) := by
  rintro r o ⟨⟩
  exact ⟨.refl r, fun _ _ => rfl⟩

theorem repeats_see {f : Registry → α} (hf : ∀ r r' : Registry, r.Grows r' → f r' = f r) :
    Repeats cx (see f) := by
  rintro r o ⟨⟩
  refine ⟨.refl r, fun r' hr => ?_⟩
  rw [see, hf r r' hr]

theorem repeats_makeGeneric (definition : TypeId) (types : List TypeId) :
    Repeats cx (makeGeneric definition types) := by
  intro r o ho
  unfold makeGeneric at ho ⊢
  cases hm : r.makeGeneric definition types with
  | error e => simp [hm] at ho
  | ok made =>
    simp only [hm, Except.ok.injEq] at ho
    subst ho
    refine ⟨Registry.grows_makeGeneric hm, fun r' hr => ?_⟩
    rw [Registry.makeGeneric_again hm hr]

theorem repeats_makeArray (element : TypeId) (rank : Nat) :
    Repeats cx (makeArray element rank) := by
  rintro r o ⟨⟩
  refine ⟨Registry.grows_makeArray .., fun r' hr => ?_⟩
  rw [makeArray, Registry.makeArray_again hr]

theorem Repeats.bind {x : Resolve α} {f : α → Resolve β} (hx : Repeats cx x)
    (hf : ∀ a, Repeats cx (f a)) : Repeats cx (x >>= f) := by
  intro r o ho
  rw [bind_run] at ho
  cases ha : x cx r with
  | error e => simp [ha] at ho
  | ok a =>
    cases hb : f a.value cx a.registry with
    | error e => simp [ha, hb] at ho
    | ok b =>
      simp only [ha, hb, Except.ok.injEq] at ho
      subst ho
      obtain ⟨hgrows, hagain⟩ := hx r a ha
      obtain ⟨hgrows', hagain'⟩ := hf a.value a.registry b hb
      refine ⟨hgrows.trans hgrows', fun r' hr => ?_⟩
      rw [bind_run, hagain r' (hgrows'.trans hr)]
      simp only [hagain' r' hr]

theorem complainOfName_repeats (name : String) (loc : Location) :
    Repeats cx (complainOfName name loc) := by
  refine (repeats_see fun r r' hr => ?_).bind fun expected => ?_
  · simp only [hr.lookup]
  · cases expected with
    | none => exact repeats_complain _ _ _
    | some arity => exact repeats_complain _ _ _

theorem withRank_repeats (base : TypeId) (rank : Nat) : Repeats cx (withRank base rank) := by
  unfold withRank
  split
  · exact repeats_makeArray base rank
  · exact repeats_pure base

mutual

theorem writtenType_repeats (report : Bool) :
    ∀ t : TypeName, Repeats cx (writtenType report t)
  | .mk name args rank loc => by
    rw [writtenType]
    refine (repeats_see fun r r' hr => hr.lookup name _).bind fun found => ?_
    cases found with
    | none =>
      cases report with
      | false => exact repeats_pure none
      | true => exact (complainOfName_repeats name loc).bind fun _ => repeats_pure none
    | some definition =>
      cases args with
      | nil => exact (withRank_repeats definition rank).bind fun _ => repeats_pure _
      | cons arg args =>
        refine (writtenTypes_repeats report (arg :: args)).bind fun types => ?_
        cases types with
        | none => exact repeats_pure none
        | some types =>
          exact (repeats_makeGeneric definition types).bind fun base =>
            (withRank_repeats base rank).bind fun _ => repeats_pure _

theorem writtenTypes_repeats (report : Bool) :
    ∀ ts : List TypeName, Repeats cx (writtenTypes report ts)
  | [] => repeats_pure _
  | t :: ts => by
    rw [writtenTypes]
    refine (writtenType_repeats report t).bind fun type =>
      (writtenTypes_repeats report ts).bind fun types => ?_
    cases type <;> cases types <;> exact repeats_pure _

end

theorem ofTypeName_repeats (t : TypeName) : Repeats cx (ofTypeName t) := by
  refine (writtenType_repeats true t).bind fun type => ?_
  cases type <;> exact repeats_pure _

/-! ## Values -/

/-- What the step gives, if anything, is no type. -/
def Valued (x : Resolve (Option TypedExpr)) : Prop :=
  ∀ cx r, Always x cx r fun o => ∀ t, o.value = some t → (t.role == .type) = false

theorem valued_some {t : TypedExpr} (h : (t.role == .type) = false) : Valued (pure (some t)) :=
  fun _ _ => always_pure fun _ ht => Option.some.inj ht ▸ h

theorem valued_none : Valued (pure none) :=
  fun _ _ => always_pure fun _ h => nomatch h

theorem valued_fail {message : Message} {strings : List String} :
    Valued (fail message loc strings) :=
  fun _ _ => always_fail fun _ _ h => nomatch h

/-- The last step decides. -/
theorem valued_bind {x : Resolve α} {f : α → Resolve (Option TypedExpr)}
    (hf : ∀ a, Valued (f a)) : Valued (x >>= f) :=
  fun cx _ => always_bind fun a _ => hf a.value cx a.registry

theorem Valued.ite {c : Prop} [Decidable c] {x y : Resolve (Option TypedExpr)} (hx : Valued x)
    (hy : Valued y) : Valued (if c then x else y) := by
  split
  · exact hx
  · exact hy

/-- Go on after one of two steps. -/
theorem valued_joined {c : Prop} [Decidable c] {x y : Resolve α}
    {f : α → Resolve (Option TypedExpr)} (hf : ∀ a, Valued (f a)) :
    Valued (if c then x >>= f else y >>= f) :=
  (valued_bind hf).ite (valued_bind hf)

theorem valued_andThen {a : Option α} {f : α → Resolve (Option TypedExpr)}
    (hf : ∀ a, Valued (f a)) : Valued (andThen a f) := by
  cases a with
  | none => exact valued_none
  | some a => exact hf a

theorem valued_both {a : Option α} {b : Option β} {f : α → β → Resolve (Option TypedExpr)}
    (hf : ∀ a b, Valued (f a b)) : Valued (both a b f) := by
  cases a with
  | none => exact valued_none
  | some a =>
    cases b with
    | none => exact valued_none
    | some b => exact hf a b

theorem failNoMember_valued : Valued (failNoMember loc type name) :=
  valued_bind fun _ => valued_fail

theorem memberOf_valued : Valued (memberOf loc target name) := by
  have late : Valued (pure (some (.dynamicMember ⟨.dynamic, .place, loc⟩ target name))) :=
    valued_some rfl
  have otherwise : Valued (do
      let keyed ← if target.role == .type then pure false
        else ask (·.isDynamicClass target.type)
      if keyed then return some (TypedExpr.dynamicMember ⟨.dynamic, .place, loc⟩ target name)
      else failNoMember loc target.type name) :=
    valued_joined fun _ => late.ite failNoMember_valued
  unfold memberOf
  refine valued_joined fun dynamic => late.ite (valued_bind fun found => ?_)
  cases found with
  | none => exact otherwise
  | some found =>
    refine Valued.ite ?_ otherwise
    split
    · exact (valued_some rfl).ite (valued_some rfl)
    · exact valued_fail
    · exact valued_fail

theorem elementOf_valued : Valued (elementOf loc target args) := by
  refine valued_bind fun element => ?_
  cases element with
  | some element => exact valued_some rfl
  | none => exact valued_bind fun _ => valued_fail

theorem callInfo_role (loc : Location) (result : TypeId) :
    ((callInfo loc result).role == .type) = false := by
  unfold callInfo
  split <;> rfl

theorem staticCall_valued : Valued (staticCall loc type name args) :=
  valued_bind fun _ => valued_andThen fun _ => valued_some (callInfo_role ..)

theorem instanceCall_valued : Valued (instanceCall loc target type name args) :=
  valued_bind fun _ => valued_andThen fun _ => valued_some (callInfo_role ..)

theorem methodCall_valued : Valued (methodCall loc target name args) := by
  refine staticCall_valued.ite (valued_bind fun dynamic => (valued_some rfl).ite ?_)
  refine valued_bind fun found => ?_
  cases found with
  | none => exact valued_bind fun _ => (valued_some rfl).ite instanceCall_valued
  | some found =>
    refine Valued.ite (valued_bind fun _ => ?_) instanceCall_valued
    exact (valued_bind fun _ => valued_andThen fun _ => valued_some rfl).ite valued_fail

theorem invoke_valued {source : Expr} : Valued (invoke loc source target args) :=
  valued_joined fun _ => (valued_some rfl).ite valued_fail

theorem construct_valued : Valued (construct loc type args) :=
  valued_bind fun _ => (valued_some rfl).ite valued_none

theorem newOf_valued {source : Expr} : Valued (newOf loc source target args) :=
  construct_valued.ite (valued_bind fun _ => (valued_some rfl).ite valued_fail)

theorem objectOf_valued {fields : List Field} {properties : List Property} :
    Valued (objectOf loc type fields properties) := by
  refine valued_bind fun script => (valued_some rfl).ite (valued_bind fun _ => ?_)
  refine Valued.ite (valued_bind fun keyed => ?_) valued_none
  exact valued_joined fun _ => (valued_some rfl).ite valued_none

theorem arrayOf_valued : Valued (arrayOf loc type args) := by
  refine valued_bind fun script => (valued_some rfl).ite (valued_bind fun array => ?_)
  cases array with
  | none => exact valued_bind fun _ => (valued_some rfl).ite valued_none
  | some array => exact (valued_some rfl).ite (valued_bind fun _ => valued_fail)

theorem deleteOf_valued {key : TypedExpr} {indexed : Bool} :
    Valued (deleteOf loc target key indexed) :=
  valued_joined fun _ =>
    valued_fail.ite (valued_bind fun _ => instanceCall_valued.ite valued_fail)

theorem typeofOf_valued : Valued (typeofOf loc target) := by
  refine valued_bind fun script => (valued_some rfl).ite ?_
  refine valued_bind fun cx => valued_bind fun helper => ?_
  cases helper with
  | none => exact valued_fail
  | some owner => exact staticCall_valued

theorem inOf_valued {container : TypedExpr} : Valued (inOf loc target container) :=
  valued_bind fun _ => (valued_some rfl).ite (valued_bind fun _ =>
    (valued_bind fun _ => instanceCall_valued).ite (valued_bind fun _ => instanceCall_valued))

theorem undefinedOf_valued : Valued (do return some (← undefinedOf loc)) := by
  intro cx r
  simp only [undefinedOf, bind_assoc]
  refine always_isScript ?_
  split <;> exact valued_some rfl cx r

theorem call_valued {site : Site} {callee : Expr} {es : List Expr} :
    Valued (resolve site (.call loc callee es)) := by
  unfold resolve
  split
  · refine valued_bind fun type => ?_
    cases type with
    | none =>
      exact valued_bind fun _ => valued_bind fun _ => valued_both fun _ _ => methodCall_valued
    | some type => exact valued_bind fun _ => valued_andThen fun _ => valued_fail
  · exact valued_bind fun _ => valued_bind fun _ => valued_both fun _ _ => invoke_valued

theorem delete_valued {site : Site} {operand : Expr} :
    Valued (resolve site (.delete loc operand)) := by
  unfold resolve
  refine valued_bind fun script => Valued.ite ?_ ?_
  · exact valued_bind fun _ => valued_andThen fun _ => valued_some rfl
  · split
    · exact valued_bind fun _ => valued_bind fun _ => valued_both fun _ _ => deleteOf_valued
    · exact valued_fail
    · exact valued_bind fun _ => valued_andThen fun _ => deleteOf_valued
    · exact valued_fail

theorem new_valued {site : Site} {operand : Expr} : Valued (resolve site (.new loc operand)) := by
  unfold resolve
  refine valued_bind fun script => Valued.ite ?_ ?_
  · split
    · exact valued_bind fun _ => valued_bind fun _ => valued_bind fun _ =>
        valued_andThen fun _ => valued_some rfl
    · exact valued_bind fun _ => valued_andThen fun _ => valued_some rfl
  · split
    · exact valued_bind fun _ => valued_bind fun _ => valued_andThen fun _ => arrayOf_valued
    · refine valued_bind fun type => ?_
      cases type with
      | some type => exact valued_bind fun _ => valued_andThen fun _ => construct_valued
      | none => exact valued_bind fun _ => valued_bind fun _ => valued_both fun _ _ => newOf_valued
    · refine valued_bind fun checked => Valued.ite ?_ valued_none
      exact valued_bind fun _ => valued_bind fun _ => valued_both fun _ _ =>
        valued_bind fun _ => valued_some rfl
    · exact valued_bind fun _ => valued_andThen fun _ => newOf_valued

/-! ## Agreement -/

/-- How a reading as a type goes together with the step `x` that gives a node : both meet the same
dangling handle, or both give one type and file nothing, or `x` gives no type, and gives the same
after the reading as before. -/
inductive Agreed (x : Resolve (Option TypedExpr)) (cx : Context) (r : Registry) :
    Except Dangling (Outcome (Option TypeId)) → Prop
  | dangling {e : Dangling} (hx : x cx r = .error e) : Agreed x cx r (.error e)
  | type {t : TypedExpr} {r' : Registry} (ht : t.role = .type)
      (hx : x cx r = .ok ⟨some t, [], r'⟩) : Agreed x cx r (.ok ⟨some t.type, [], r'⟩)
  | value {r' : Registry} (hx : Always x cx r fun o => ∀ t, o.value = some t → t.role ≠ .type)
      (hagain : x cx r' = x cx r) : Agreed x cx r (.ok ⟨none, [], r'⟩)

theorem Valued.agreed {x : Resolve (Option TypedExpr)} (h : Valued x) (cx : Context)
    (r : Registry) : Agreed x cx r (.ok ⟨none, [], r⟩) := by
  refine .value (fun o ho t ht => ?_) rfl
  simpa using h cx r o ho t ht

/-- The type that a chain of names denotes, unless it starts at a variable. -/
def namedType (cx : Context) (r : Registry) (e : Expr) : Option TypeId :=
  match e.root?, e.path? with
  | some root, some path =>
    match cx.scopes.lookup root with
    | some _ => none
    | none => r.lookup path 0
  | _, _ => none

theorem pathType_run (e : Expr) (cx : Context) (r : Registry) :
    pathType e cx r = .ok ⟨namedType cx r e, [], r⟩ := by
  unfold pathType namedType
  cases e.root? with
  | none => rfl
  | some root =>
    cases e.path? with
    | none => rfl
    | some path =>
      have hlocal : localType root cx r = .ok ⟨cx.scopes.lookup root, [], r⟩ := rfl
      refine (bind_of_quiet hlocal).trans ?_
      dsimp only
      cases cx.scopes.lookup root <;> rfl

theorem name_agrees (site : Site) (loc : Location) (name : String) (cx : Context) (r : Registry) :
    Agreed (resolve site (.name loc name)) cx r (pathType (.name loc name) cx r) := by
  have hlocal : localType name cx r = .ok ⟨cx.scopes.lookup name, [], r⟩ := rfl
  have hsee : see (·.lookup name 0) cx r = .ok ⟨r.lookup name 0, [], r⟩ := rfl
  rw [pathType_run, namedType]
  simp only [Expr.root?, Expr.path?]
  cases hscopes : cx.scopes.lookup name with
  | some type =>
    have hrun : resolve site (.name loc name) cx r =
        .ok ⟨some (.localVar ⟨type, .place, loc⟩ name), [], r⟩ := by
      rw [resolve, ofName, bind_of_quiet hlocal, hscopes]
      rfl
    exact .value (by simp [Always, hrun, TypedExpr.role, TypedExpr.info]) rfl
  | none =>
    cases htype : r.lookup name 0 with
    | some type =>
      refine .type (t := .typeRef ⟨type, .type, loc⟩) rfl ?_
      rw [resolve, ofName, bind_of_quiet hlocal, hscopes]
      exact (bind_of_quiet hsee).trans (by rw [htype]; rfl)
    | none =>
      have hrun : resolve site (.name loc name) cx r =
          .ok ⟨none, [.ofMessage .unknownName loc [name]], r⟩ := by
        rw [resolve, ofName, bind_of_quiet hlocal, hscopes]
        exact (bind_of_quiet hsee).trans (by rw [htype]; rfl)
      exact .value (by simp [Always, hrun]) rfl

/-- A chain that denotes a type resolves to it. -/
theorem resolve_of_namedType {target : Expr} {id : TypeId}
    (h : namedType cx r (.member loc target name) = some id) (site : Site) :
    resolve site (.member loc target name) cx r =
      .ok ⟨some (.typeRef ⟨id, .type, loc⟩), [], r⟩ := by
  rw [resolve, bind_of_quiet (pathType_run ..), h]
  rfl

theorem member_agrees (site : Site) (loc : Location) (target : Expr) (name : String) (cx : Context)
    (r : Registry) :
    Agreed (resolve site (.member loc target name)) cx r
      (pathType (.member loc target name) cx r) := by
  rw [pathType_run]
  cases hnamed : namedType cx r (.member loc target name) with
  | some type =>
    exact .type (t := .typeRef ⟨type, .type, loc⟩) rfl (resolve_of_namedType hnamed site)
  | none =>
    refine .value (fun o ho t ht => ?_) rfl
    rw [resolve, bind_of_quiet (pathType_run ..), hnamed] at ho
    simpa using (valued_bind fun _ => valued_andThen fun _ => memberOf_valued) cx r o ho t ht

theorem typeRef_agrees (site : Site) (loc : Location) (t : TypeName) (cx : Context)
    (r : Registry) :
    Agreed (resolve site (.typeRef loc t)) cx r (writtenType false t cx r) := by
  have hresolve : resolve site (.typeRef loc t) = ofTypeName t := by rw [resolve]
  rw [writtenType_false, hresolve, silenced]
  cases hw : writtenType true t cx r with
  | error e => exact .dangling (by rw [ofTypeName, bind_run, hw])
  | ok o =>
    obtain ⟨value, filed, r'⟩ := o
    cases value with
    | some type =>
      obtain ⟨hfiled, -⟩ := (writtenType_settles true t cx r _ hw).quiet type rfl
      cases hfiled
      exact .type (t := .typeRef ⟨type, .type, t.loc⟩) rfl (bind_of_quiet hw)
    | none =>
      have hrun : ofTypeName t cx r = .ok ⟨none, filed ++ [], r'⟩ := by
        rw [ofTypeName, bind_run, hw]
        rfl
      refine .value (fun o ho t ht => ?_) ?_
      · rw [hrun] at ho
        cases ho
        cases ht
      · rw [hrun]
        exact (ofTypeName_repeats t r _ hrun).2 r' (.refl r')

theorem exprType_agrees (site : Site) (e : Expr) (cx : Context) (r : Registry) :
    Agreed (resolve site e) cx r (exprType e cx r) := by
  cases e with
  | name loc name => exact name_agrees site loc name cx r
  | member loc target name => exact member_agrees site loc target name cx r
  | typeRef loc t => exact typeRef_agrees site loc t cx r
  | literal loc value => exact (valued_some (by cases value <;> rfl)).agreed cx r
  | element loc target args =>
    exact Valued.agreed (valued_bind fun _ => valued_bind fun _ => valued_both fun _ _ =>
      elementOf_valued) cx r
  | call loc callee args => exact call_valued.agreed cx r
  | assign loc target value =>
    refine Valued.agreed (valued_bind fun _ => valued_andThen fun _ => Valued.ite ?_ valued_fail)
      cx r
    exact valued_bind fun _ => valued_andThen fun _ => valued_some rfl
  | object loc fields =>
    exact Valued.agreed (valued_bind fun _ => valued_bind fun _ => valued_andThen fun _ =>
      objectOf_valued) cx r
  | array loc elements vector =>
    exact Valued.agreed (valued_bind fun _ => valued_bind fun _ => valued_andThen fun _ =>
      arrayOf_valued) cx r
  | delete loc operand => exact delete_valued.agreed cx r
  | new loc operand => exact new_valued.agreed cx r
  | typeof loc operand =>
    exact Valued.agreed (valued_bind fun _ => valued_fail.ite (valued_bind fun _ =>
      valued_andThen fun _ => typeofOf_valued)) cx r
  | isIn loc key container =>
    exact Valued.agreed (valued_bind fun _ => valued_bind fun _ => valued_both fun _ _ =>
      inOf_valued) cx r
  | undefined loc => exact undefinedOf_valued.agreed cx r
  | regex loc value | xml loc value =>
    exact Valued.agreed (valued_bind fun _ => (valued_some rfl).ite construct_valued) cx r
  | xmlQuery loc source query => exact valued_none.agreed cx r

theorem Agreed.type_iff {x : Resolve (Option TypedExpr)}
    {reading : Except Dangling (Outcome (Option TypeId))} (h : Agreed x cx r reading) :
    (∃ o, reading = .ok o ∧ o.value = some type) ↔
      ∃ o t, x cx r = .ok o ∧ o.value = some t ∧ t.role = .type ∧ t.type = type := by
  cases h with
  | dangling hx => simp [hx]
  | type ht hx => simp [hx, ht]
  | value hx =>
    constructor
    · rintro ⟨_, ⟨⟩, ⟨⟩⟩
    · rintro ⟨o, t, ho, ht, hrole, -⟩
      exact absurd hrole (hx o ho t ht)

theorem Agreed.quiet {x : Resolve (Option TypedExpr)}
    {reading : Except Dangling (Outcome (Option TypeId))} (h : Agreed x cx r reading)
    {o : Outcome (Option TypedExpr)} (ho : x cx r = .ok o) {t : TypedExpr}
    (ht : o.value = some t) (hrole : t.role = .type) : o.filed = [] := by
  cases h with
  | dangling hx => simp [hx] at ho
  | type _ hx =>
    rw [hx] at ho
    cases ho
    rfl
  | value hx => exact absurd hrole (hx o ho t ht)

/-- To construct a type is what becomes of `new` with a node that is one. -/
theorem both_newOf {source : Expr} {t : TypedExpr} (ht : t.role = .type)
    (args : Option (List TypedExpr)) :
    both (some t) args (newOf loc source) = andThen args (construct loc t.type) := by
  cases args with
  | none => rfl
  | some args => simp [both, andThen, newOf, ht]

/-- Reading the callee of `new` as a type first makes no difference. -/
theorem nativeNew_run (hs : cx.settings.isScript = false) (site : Site) (loc place : Location)
    (e : Expr) (args : List Expr) :
    resolve site (.new loc (.call place e args)) cx r = (do
      let callee ← resolve .unknown e
      let args ← resolveAll args
      both callee args (newOf loc e) : Resolve (Option TypedExpr)) cx r := by
  have hscript : isScript cx r = .ok ⟨false, [], r⟩ := by rw [← hs]; rfl
  rw [resolve, bind_of_quiet hscript]
  change (exprType e >>= _) cx r = _
  have hagreed := exprType_agrees .unknown e cx r
  generalize hx : exprType e cx r = reading at hagreed
  cases hagreed with
  | dangling h => rw [bind_run, bind_run, hx, h]
  | type ht h =>
    rw [bind_of_quiet hx, bind_of_quiet h]
    simp only [both_newOf ht]
  | value _ hagain =>
    -- The reading may have made types before it failed, but the callee finds them again.
    rw [bind_of_quiet hx]
    dsimp only
    rw [bind_run, bind_run (resolve .unknown e), hagain]

/-- Reading an expression as a type gives a type if and only if resolving it gives a node that is
that type, and then resolving it files nothing. So in `new` for the native target it makes no
difference that the callee is read as a type first. -/
theorem exprType_iff_resolve (cx : Context) (r : Registry) (e : Expr) :
    (∀ site type,
      (∃ o, exprType e cx r = .ok o ∧ o.value = some type) ↔
        ∃ o t, resolve site e cx r = .ok o ∧ o.value = some t ∧ t.role = .type ∧
          t.type = type) ∧
    (∀ site o t, resolve site e cx r = .ok o → o.value = some t → t.role = .type →
      o.filed = []) ∧
    (cx.settings.isScript = false → ∀ site loc place args,
      resolve site (.new loc (.call place e args)) cx r = (do
        let callee ← resolve .unknown e
        let args ← resolveAll args
        both callee args (newOf loc e) : Resolve (Option TypedExpr)) cx r) :=
  ⟨fun site _ => (exprType_agrees site e cx r).type_iff,
    fun site _ _ ho ht hrole => (exprType_agrees site e cx r).quiet ho ht hrole,
    fun hs site loc place args => nativeNew_run hs site loc place e args⟩

/-- A class in a namespace is a type by its dotted name, and no longer one where the namespace is
hidden by a variable. -/
theorem exprType_iff_resolve_dotted :
    let r := (Registry.empty "_root").addClass ((ClassDecl.ofClass "Dog").inSpace "app")
    let e : Expr := .member .origin (.name .origin "app") "Dog"
    let free : Context := { settings := {} }
    let hidden : Context := { settings := {}, scopes := Scopes.fresh.declare "app" .dynamic }
    (∃ o t, resolve .unknown e free r = .ok o ∧ o.value = some t ∧ t.role = .type ∧
      t.type = ⟨0⟩ ∧ o.filed = []) ∧
    (¬∃ o t, resolve .unknown e hidden r = .ok o ∧ o.value = some t ∧ t.role = .type ∧
      t.type = ⟨0⟩) ∧
    free.settings.isScript = false ∧
    resolve .unknown (.new .origin (.call .origin e [])) free r =
      .ok ⟨some (.new (.value ⟨0⟩ .origin) []), [], r⟩ := by
  intro r e free hidden
  obtain ⟨hiff, hquiet, hnew⟩ := exprType_iff_resolve free r e
  have hread : exprType e free r = .ok ⟨some ⟨0⟩, [], r⟩ := by rfl
  obtain ⟨o, t, ho, ht, hrole, htype⟩ := (hiff .unknown ⟨0⟩).1 ⟨_, hread, rfl⟩
  refine ⟨⟨o, t, ho, ht, hrole, htype, hquiet _ o t ho ht hrole⟩, ?_, rfl, ?_⟩
  · rw [← (exprType_iff_resolve hidden r e).1]
    rintro ⟨_, ⟨⟩, ⟨⟩⟩
  · have hnode : resolve .unknown e free r =
        .ok ⟨some (.typeRef ⟨⟨0⟩, .type, .origin⟩), [], r⟩ := rfl
    rw [hnew rfl, bind_of_quiet hnode]
    dsimp only [r, e, free]
    rfl

end Resolve

end Dynascript
