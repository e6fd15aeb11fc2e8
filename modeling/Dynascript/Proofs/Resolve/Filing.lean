import Dynascript.Proofs.Resolve.Coupling
import Dynascript.Proofs.Resolve.Scopes
import Dynascript.Proofs.Syntax.Below

/-!
# What resolution files

Complaints are all that resolution files (`Complaint`) : each has a place, and one of an unknown
name is about a name that is no variable. `Complains scopes cx x` says so of a step, for any
registry and whatever becomes of the step. There is one rule for each way to make steps, and with
the rules one lemma for each part of resolution; `statements_complain` says it for whole units. The
scopes grow from statement to statement, so what is filed later is a complaint in the first scopes
too (`Complains.of_declared`).
-/

namespace Dynascript.Resolve

variable {α β γ : Type} {message : Message} {loc : Location} {strings : List String}
  {type owner : TypeId} {name : String} {target operand : TypedExpr} {args : List TypedExpr}
  {cx : Context} {scopes : Scopes} {d : Diagnostic}

/-- What may be filed in these scopes. Only a name that they do not declare is unknown. -/
def Complaint (scopes : Scopes) (d : Diagnostic) : Prop :=
  ∃ message loc strings, d = .ofMessage message loc strings ∧
    (message = .unknownName → ∃ name, strings = [name] ∧ scopes.lookup name = none)

theorem Complaint.placed (h : Complaint scopes d) : d.location.isSome = true := by
  obtain ⟨message, loc, strings, rfl, -⟩ := h
  rfl

/-- Everything that the step files under `cx` is a complaint in these scopes. -/
def Complains (scopes : Scopes) (cx : Context) (x : Resolve α) : Prop :=
  ∀ r, Always x cx r fun o => ∀ d ∈ o.filed, Complaint scopes d

/-- Fewer names are unknown where more are declared. -/
theorem Complains.of_declared {scopes' : Scopes} {x : Resolve α} (hx : Complains scopes' cx x)
    (h : ∀ name, scopes'.lookup name = none → scopes.lookup name = none) :
    Complains scopes cx x := by
  intro r o ho d hd
  obtain ⟨message, loc, strings, rfl, hunknown⟩ := hx r o ho d hd
  refine ⟨message, loc, strings, rfl, fun hmessage => ?_⟩
  obtain ⟨name, hstrings, hlookup⟩ := hunknown hmessage
  exact ⟨name, hstrings, h name hlookup⟩

/-! ## Rules -/

/-- A step that files nothing, whatever else it does. -/
theorem complains_of_quiet {x : Resolve α} (h : ∀ r o, x cx r = .ok o → o.filed = []) :
    Complains scopes cx x := by
  intro r o ho
  rw [h r o ho]
  exact List.forall_mem_nil _

theorem complains_pure {a : α} : Complains scopes cx (pure a : Resolve α) := by
  refine complains_of_quiet fun r o ho => ?_
  cases ho
  rfl

theorem complains_see {f : Registry → α} : Complains scopes cx (see f) := by
  refine complains_of_quiet fun r o ho => ?_
  cases ho
  rfl

theorem complains_ask {f : Registry → Except Dangling α} : Complains scopes cx (ask f) := by
  refine complains_of_quiet fun r o ho => ?_
  unfold ask at ho
  split at ho <;> cases ho
  rfl

theorem complains_context : Complains scopes cx context := by
  refine complains_of_quiet fun r o ho => ?_
  cases ho
  rfl

theorem complains_makeGeneric {definition : TypeId} {types : List TypeId} :
    Complains scopes cx (makeGeneric definition types) := by
  refine complains_of_quiet fun r o ho => ?_
  unfold makeGeneric at ho
  split at ho <;> cases ho
  rfl

theorem complains_makeArray {element : TypeId} {rank : Nat} :
    Complains scopes cx (makeArray element rank) := by
  refine complains_of_quiet fun r o ho => ?_
  cases ho
  rfl

/-- The one step that files anything. -/
theorem complains_complain (h : message ≠ .unknownName) :
    Complains scopes cx (complain message loc strings) := by
  intro r o ho
  cases ho
  exact List.forall_mem_singleton.2 ⟨message, loc, strings, rfl, fun heq => absurd heq h⟩

theorem Complains.bind {x : Resolve α} {f : α → Resolve β} (hx : Complains scopes cx x)
    (hf : ∀ a, Complains scopes cx (f a)) : Complains scopes cx (x >>= f) :=
  fun r => always_bind ((hx r).mono fun o ho =>
    (hf o.value o.registry).mono fun _ ho' => List.forall_mem_append.2 ⟨ho, ho'⟩)

theorem Complains.under {x : Resolve α} (hx : Complains scopes { cx with scopes } x) :
    Complains scopes cx (under scopes x) :=
  fun r => always_under (hx r)

theorem complains_fail (h : message ≠ .unknownName) :
    Complains scopes cx (fail message loc strings : Resolve (Option α)) :=
  (complains_complain h).bind fun _ => complains_pure

theorem complains_localType : Complains scopes cx (localType name) :=
  complains_context.bind fun _ => complains_pure

theorem complains_isScript : Complains scopes cx isScript :=
  complains_context.bind fun _ => complains_pure

theorem complains_isExtended : Complains scopes cx isExtended :=
  complains_context.bind fun _ => complains_pure

theorem complains_typeName : Complains scopes cx (typeName type) := complains_ask

theorem Complains.ite {c : Prop} [Decidable c] {x y : Resolve α} (hx : Complains scopes cx x)
    (hy : Complains scopes cx y) : Complains scopes cx (if c then x else y) := by
  split
  · exact hx
  · exact hy

/-- Go on after one of two steps. -/
theorem Complains.joined {c : Prop} [Decidable c] {x y : Resolve α} {f : α → Resolve β}
    (hx : Complains scopes cx x) (hy : Complains scopes cx y)
    (hf : ∀ a, Complains scopes cx (f a)) :
    Complains scopes cx (if c then x >>= f else y >>= f) :=
  (hx.bind hf).ite (hy.bind hf)

theorem Complains.andThen {x : Resolve (Option α)} {f : α → Resolve (Option β)}
    (hx : Complains scopes cx x) (hf : ∀ a, Complains scopes cx (f a)) :
    Complains scopes cx (do andThen (← x) f) := by
  refine hx.bind fun a => ?_
  cases a with
  | none => exact complains_pure
  | some a => exact hf a

theorem Complains.both {x : Resolve (Option α)} {y : Resolve (Option β)}
    {f : α → β → Resolve (Option γ)} (hx : Complains scopes cx x) (hy : Complains scopes cx y)
    (hf : ∀ a b, Complains scopes cx (f a b)) :
    Complains scopes cx (do let a ← x; let b ← y; both a b f) := by
  refine hx.bind fun a => hy.bind fun b => ?_
  cases a with
  | none => exact complains_pure
  | some a =>
    cases b with
    | none => exact complains_pure
    | some b => exact hf a b

/-! ## Types -/

theorem complainOfName_complains : Complains scopes cx (complainOfName name loc) := by
  refine complains_see.bind fun expected => ?_
  cases expected with
  | none => exact complains_complain (by decide)
  | some arity => exact complains_complain (by decide)

theorem withRank_complains {rank : Nat} : Complains scopes cx (withRank type rank) :=
  complains_makeArray.ite complains_pure

mutual

theorem writtenType_complains (report : Bool) :
    ∀ type : TypeName, Complains scopes cx (writtenType report type)
  | .mk name args rank loc => by
    rw [writtenType]
    refine complains_see.bind fun found => ?_
    cases found with
    | none =>
      cases report with
      | false => exact complains_pure
      | true => exact complainOfName_complains.bind fun _ => complains_pure
    | some definition =>
      cases args with
      | nil => exact withRank_complains.bind fun _ => complains_pure
      | cons arg args =>
        exact (writtenTypes_complains report (arg :: args)).andThen fun _ =>
          complains_makeGeneric.bind fun _ => withRank_complains.bind fun _ => complains_pure

theorem writtenTypes_complains (report : Bool) :
    ∀ types : List TypeName, Complains scopes cx (writtenTypes report types)
  | [] => complains_pure
  | type :: types =>
    (writtenType_complains report type).both (writtenTypes_complains report types) fun _ _ =>
      complains_pure

end

theorem pathType_complains (e : Expr) : Complains scopes cx (pathType e) := by
  unfold pathType
  split
  · refine complains_localType.bind fun found => ?_
    cases found with
    | none => exact complains_see
    | some type => exact complains_pure
  · exact complains_pure

theorem exprType_complains (e : Expr) : Complains scopes cx (exprType e) := by
  unfold exprType
  split
  · exact writtenType_complains false _
  · exact pathType_complains _
  · exact pathType_complains _
  · exact complains_pure

theorem concrete_complains {default : TypeId} : Complains scopes cx (concrete default type) :=
  complains_ask.bind fun _ => complains_pure.ite complains_pure

theorem objectType_complains (site : Site) : Complains scopes cx (objectType site) :=
  complains_isExtended.bind fun _ => concrete_complains.ite complains_pure

theorem vectorType_complains (element : Option TypeName) :
    Complains scopes cx (vectorType element) := by
  cases element with
  | none => exact complains_pure
  | some element =>
    exact (writtenType_complains false element).andThen fun _ =>
      complains_makeGeneric.bind fun _ => complains_pure

theorem arrayType_complains (element : Option TypeName) (site : Site) :
    Complains scopes cx (arrayType element site) := by
  refine complains_isExtended.bind fun extended => ?_
  split
  · exact concrete_complains
  · refine (vectorType_complains element).bind fun found => ?_
    cases found with
    | none => exact concrete_complains.ite complains_pure
    | some type => exact complains_pure

/-! ## Members, elements and calls -/

theorem complains_unknownName (h : scopes.lookup name = none) :
    Complains scopes cx (fail .unknownName loc [name] : Resolve (Option α)) := by
  intro r o ho
  cases ho
  exact List.forall_mem_singleton.2 ⟨.unknownName, loc, [name], rfl, fun _ => ⟨name, rfl, h⟩⟩

/-- A name that is neither a variable nor a type. -/
theorem ofName_unknown {settings : Settings} {r : Registry} (hlocal : scopes.lookup name = none)
    (h : r.lookup name 0 = none) :
    ofName loc name ⟨settings, scopes⟩ r =
      .ok ⟨none, [.ofMessage .unknownName loc [name]], r⟩ := by
  simp [ofName, bind_run, localType, context, see, fail, complain, pure, Resolve.pure, hlocal, h]

theorem ofName_complains : Complains cx.scopes cx (ofName loc name) := by
  -- Not by the rule for sequences, which forgets that the answer is that of the scopes.
  refine fun r => always_bind fun o ho => ?_
  cases ho
  cases hlookup : cx.scopes.lookup name with
  | some type => exact complains_pure r
  | none =>
    refine complains_see.bind (fun found => ?_) r
    cases found with
    | some type => exact complains_pure
    | none => exact complains_unknownName hlookup

theorem ofTypeName_complains (type : TypeName) : Complains scopes cx (ofTypeName type) :=
  (writtenType_complains true type).andThen fun _ => complains_pure

theorem failNoMember_complains :
    Complains scopes cx (failNoMember loc type name : Resolve (Option α)) :=
  complains_typeName.bind fun _ => complains_fail (by decide)

theorem memberOf_complains : Complains scopes cx (memberOf loc target name) := by
  have otherwise : Complains scopes cx (do
      let keyed ← if target.role == .type then pure false
        else ask (·.isDynamicClass target.type)
      if keyed then return some (TypedExpr.dynamicMember ⟨.dynamic, .place, loc⟩ target name)
      else failNoMember loc target.type name) :=
    Complains.joined complains_pure complains_ask fun _ => complains_pure.ite failNoMember_complains
  unfold memberOf
  refine Complains.joined complains_pure complains_ask fun dynamic => complains_pure.ite ?_
  refine complains_ask.bind fun found => ?_
  cases found with
  | none => exact otherwise
  | some found =>
    refine Complains.ite ?_ otherwise
    split
    · exact complains_pure.ite complains_pure
    · exact complains_fail (by decide)
    · exact complains_fail (by decide)

theorem elementType_complains : Complains scopes cx (elementType type) := by
  refine complains_ask.bind fun dynamic => complains_pure.ite ?_
  refine complains_ask.bind fun array => ?_
  cases array with
  | some array => exact complains_pure
  | none =>
    refine complains_ask.bind fun found => ?_
    cases found with
    | some found => exact complains_pure
    | none => exact complains_ask.bind fun _ => complains_pure.ite complains_pure

theorem elementOf_complains : Complains scopes cx (elementOf loc target args) := by
  refine elementType_complains.bind fun type => ?_
  cases type with
  | some type => exact complains_pure
  | none => exact complains_typeName.bind fun _ => complains_fail (by decide)

theorem findMethod_complains {isStatic : Bool} :
    Complains scopes cx (findMethod loc owner name isStatic) := by
  refine complains_ask.bind fun found => ?_
  cases found with
  | none => exact failNoMember_complains
  | some found =>
    refine Complains.ite ?_ failNoMember_complains
    split
    · exact complains_pure
    · exact complains_fail (by decide)
    · exact complains_fail (by decide)

theorem staticCall_complains : Complains scopes cx (staticCall loc owner name args) :=
  findMethod_complains.andThen fun _ => complains_pure

theorem instanceCall_complains : Complains scopes cx (instanceCall loc target owner name args) :=
  findMethod_complains.andThen fun _ => complains_pure

theorem methodCall_complains : Complains scopes cx (methodCall loc target name args) := by
  refine staticCall_complains.ite (complains_ask.bind fun dynamic => complains_pure.ite ?_)
  refine complains_ask.bind fun found => ?_
  cases found with
  | none => exact complains_ask.bind fun _ => complains_pure.ite instanceCall_complains
  | some found =>
    refine Complains.ite (complains_ask.bind fun _ => ?_) instanceCall_complains
    exact (memberOf_complains.andThen fun _ => complains_pure).ite (complains_fail (by decide))

theorem invoke_complains {source : Expr} : Complains scopes cx (invoke loc source operand args) :=
  Complains.joined complains_pure complains_ask fun _ =>
    complains_pure.ite (complains_fail (by decide))

/-! ## Construction, initializers and operators -/

theorem checkConstructible_complains : Complains scopes cx (checkConstructible loc type) :=
  complains_ask.bind fun _ => (complains_typeName.bind fun _ =>
    (complains_complain (by decide)).bind fun _ => complains_pure).ite complains_pure

theorem construct_complains : Complains scopes cx (construct loc type args) :=
  checkConstructible_complains.bind fun _ => complains_pure.ite complains_pure

theorem newOf_complains {source : Expr} : Complains scopes cx (newOf loc source operand args) :=
  construct_complains.ite (complains_ask.bind fun _ =>
    complains_pure.ite (complains_fail (by decide)))

theorem newElementType_complains (target : Expr) : Complains scopes cx (newElementType target) := by
  unfold newElementType
  split
  · exact writtenType_complains true _
  · refine (exprType_complains target).bind fun type => ?_
    cases type with
    | some type => exact complains_pure
    | none =>
      dsimp only
      split
      · exact complains_localType.bind fun _ => complains_pure.bind fun _ =>
          (complains_fail (by decide)).ite (complains_fail (by decide))
      · exact complains_pure.bind fun _ =>
          (complains_fail (by decide)).ite (complains_fail (by decide))

theorem checkNewArray_complains {target : Expr} {args : List Expr} :
    Complains scopes cx (checkNewArray loc target args) := by
  have refuse {message : Message} (h : message ≠ .unknownName) :
      Complains scopes cx (do complain message loc []; return false) :=
    (complains_complain h).bind fun _ => complains_pure
  refine complains_isExtended.bind fun extended => (refuse (by decide)).ite ?_
  split
  · exact refuse (by decide)
  · exact (refuse (by decide)).ite complains_pure

theorem newArray_complains : Complains scopes cx (newArray loc type args) :=
  complains_makeArray.bind fun _ => complains_pure

theorem checkFields_complains : ∀ fields : List Field, Complains scopes cx (checkFields type fields)
  | [] => complains_pure
  | .mk name loc value :: rest => by
    have hrest (known : Bool) :
        Complains scopes cx (do return known && (← checkFields type rest)) :=
      (checkFields_complains rest).bind fun _ => complains_pure
    unfold checkFields
    refine complains_ask.bind fun found => ?_
    have told (known : Bool) : Complains scopes cx (do
        if !known then complain .noSuchMember loc [← typeName type, name]
        return known && (← checkFields type rest)) := by
      cases known with
      | true => exact hrest true
      | false =>
        exact complains_typeName.bind fun _ =>
          (complains_complain (by decide)).bind fun _ => hrest false
    cases found with
    | none => exact complains_pure.bind fun _ => told _
    | some found => exact complains_pure.bind fun _ => told _

theorem objectOf_complains {fields : List Field} {properties : List Property} :
    Complains scopes cx (objectOf loc type fields properties) := by
  refine complains_isScript.bind fun script => complains_pure.ite ?_
  refine checkConstructible_complains.bind fun _ => Complains.ite ?_ complains_pure
  refine complains_ask.bind fun keyed => ?_
  exact Complains.joined complains_pure (checkFields_complains fields) fun _ =>
    complains_pure.ite complains_pure

theorem arrayOf_complains : Complains scopes cx (arrayOf loc type args) := by
  refine complains_isScript.bind fun script => complains_pure.ite ?_
  refine complains_ask.bind fun array => ?_
  cases array with
  | none => exact checkConstructible_complains.bind fun _ => complains_pure.ite complains_pure
  | some array =>
    exact complains_pure.ite (complains_typeName.bind fun _ => complains_fail (by decide))

theorem deleteOf_complains {key : TypedExpr} {indexed : Bool} :
    Complains scopes cx (deleteOf loc target key indexed) := by
  refine Complains.joined complains_ask complains_pure fun onArray =>
    (complains_fail (by decide)).ite (complains_ask.bind fun _ => ?_)
  exact instanceCall_complains.ite (complains_fail (by decide))

theorem typeofOf_complains : Complains scopes cx (typeofOf loc operand) := by
  refine complains_isScript.bind fun script => complains_pure.ite ?_
  refine complains_context.bind fun cx => complains_see.bind fun helper => ?_
  cases helper with
  | none => exact complains_fail (by decide)
  | some owner => exact staticCall_complains

theorem inOf_complains {key container : TypedExpr} :
    Complains scopes cx (inOf loc key container) := by
  refine complains_isScript.bind fun script => complains_pure.ite ?_
  refine complains_ask.bind fun dynamic => Complains.ite ?_ ?_
  · exact complains_makeGeneric.bind fun _ => instanceCall_complains
  · exact complains_ask.bind fun _ => instanceCall_complains

theorem undefinedOf_complains : Complains scopes cx (undefinedOf loc) :=
  complains_isScript.bind fun _ => complains_pure.ite complains_pure

theorem regexOf_complains {value : RegexLiteral} : Complains scopes cx (regexOf loc value) :=
  complains_isScript.bind fun _ => complains_pure.ite construct_complains

theorem xmlOf_complains {value : XmlLiteral} : Complains scopes cx (xmlOf loc value) :=
  complains_isScript.bind fun _ => complains_pure.ite construct_complains

/-! ## Expressions -/

/-- Resolving the expression files only complaints, wherever it stands. -/
def ComplainsAt (cx : Context) (e : Expr) : Prop := ∀ site, Complains cx.scopes cx (resolve site e)

theorem resolveAll_complains :
    ∀ {es : List Expr}, (∀ e ∈ es, ComplainsAt cx e) → Complains cx.scopes cx (resolveAll es)
  | [], _ => complains_pure
  | e :: es, h => by
    obtain ⟨he, hes⟩ := List.forall_mem_cons.1 h
    rw [resolveAll]
    exact (he .unknown).both (resolveAll_complains hes) fun _ _ => complains_pure

theorem resolveFields_complains :
    ∀ {fields : List Field}, (∀ f ∈ fields, ComplainsAt cx f.value) →
      Complains cx.scopes cx (resolveFields fields)
  | [], _ => complains_pure
  | .mk name loc value :: fields, h => by
    obtain ⟨hvalue, hfields⟩ := List.forall_mem_cons.1 h
    rw [resolveFields]
    exact (hvalue .unknown).both (resolveFields_complains hfields) fun _ _ => complains_pure

theorem member_complains {target : Expr} (ht : ComplainsAt cx target) :
    ComplainsAt cx (.member loc target name) := by
  intro site
  rw [resolve]
  refine (pathType_complains _).bind fun type => ?_
  cases type with
  | some type => exact complains_pure
  | none => exact (ht .unknown).andThen fun _ => memberOf_complains

theorem call_complains {callee : Expr} {args : List Expr}
    (ih : ∀ c, Node.Below (.expr c) (.expr (.call loc callee args)) → ComplainsAt cx c) :
    ComplainsAt cx (.call loc callee args) := by
  intro site
  have hargs : Complains cx.scopes cx (resolveAll args) := resolveAll_complains fun e he =>
    ih e (.child (by simp [Node.children, Node.ofExpr, he]))
  unfold resolve
  split
  · rename_i place target name
    have ht : ComplainsAt cx target :=
      ih _ (.deeper (m := .expr (.member place target name)) (by simp [Node.children, Node.ofExpr])
        (.child (by simp [Node.children, Node.ofExpr])))
    refine (pathType_complains _).bind fun type => ?_
    cases type with
    | none => exact (ht .unknown).both hargs fun _ _ => methodCall_complains
    | some type => exact hargs.andThen fun _ => complains_fail (by decide)
  · have hcallee : ComplainsAt cx callee := ih _ (.child (by simp [Node.children, Node.ofExpr]))
    exact (hcallee .unknown).both hargs fun _ _ => invoke_complains

theorem assign_complains {target value : Expr} (ht : ComplainsAt cx target)
    (hv : ComplainsAt cx value) : ComplainsAt cx (.assign loc target value) := by
  intro site
  rw [resolve]
  refine (ht .unknown).andThen fun place => Complains.ite ?_ (complains_fail (by decide))
  exact (hv _).andThen fun _ => complains_pure

theorem delete_complains {operand : Expr}
    (ih : ∀ c, Node.Below (.expr c) (.expr (.delete loc operand)) → ComplainsAt cx c) :
    ComplainsAt cx (.delete loc operand) := by
  intro site
  have below_operand : Node.Below (.expr operand) (.expr (.delete loc operand)) :=
    .child (by simp [Node.children, Node.ofExpr])
  have deeper {c : Expr} (h : Node.expr c ∈ Node.ofExpr operand) : ComplainsAt cx c :=
    ih c (.deeper (m := .expr operand) h below_operand)
  unfold resolve
  refine complains_isScript.bind fun script => Complains.ite ?_ ?_
  · exact (ih _ below_operand .unknown).andThen fun _ => complains_pure
  · split
    · rename_i place target key
      exact (deeper (c := target) (by simp [Node.ofExpr]) .unknown).both
        (deeper (c := key) (by simp [Node.ofExpr]) .unknown) fun _ _ => deleteOf_complains
    · exact complains_fail (by decide)
    · rename_i place target name
      exact (deeper (c := target) (by simp [Node.ofExpr]) .unknown).andThen fun _ =>
        deleteOf_complains
    · exact complains_fail (by decide)

theorem new_complains {operand : Expr}
    (ih : ∀ c, Node.Below (.expr c) (.expr (.new loc operand)) → ComplainsAt cx c) :
    ComplainsAt cx (.new loc operand) := by
  intro site
  have below_operand : Node.Below (.expr operand) (.expr (.new loc operand)) :=
    .child (by simp [Node.children, Node.ofExpr])
  have deeper {c : Expr} (h : Node.expr c ∈ Node.ofExpr operand) : ComplainsAt cx c :=
    ih c (.deeper (m := .expr operand) h below_operand)
  unfold resolve
  refine complains_isScript.bind fun script => Complains.ite ?_ ?_
  · have wrapped (operand : Option TypedExpr) :
        Complains cx.scopes cx (andThen operand fun operand =>
          return some (TypedExpr.scriptNew (.value .dynamic loc) operand)) := by
      cases operand <;> exact complains_pure
    split
    · rename_i place callee args
      have hargs : Complains cx.scopes cx (resolveAll args) := resolveAll_complains fun e he =>
        deeper (by simp [Node.ofExpr, he])
      refine (deeper (c := callee) (by simp [Node.ofExpr]) .unknown).bind fun callee =>
        hargs.bind fun args => Complains.bind ?_ wrapped
      cases callee <;> cases args <;> exact complains_pure
    · exact (ih _ below_operand .unknown).bind wrapped
  · split
    · rename_i place elements vector
      refine (arrayType_complains vector site).bind fun type => ?_
      exact (resolveAll_complains fun e he => deeper (by simp [Node.ofExpr, he])).andThen fun _ =>
        arrayOf_complains
    · rename_i place callee args
      have hargs : Complains cx.scopes cx (resolveAll args) := resolveAll_complains fun e he =>
        deeper (by simp [Node.ofExpr, he])
      refine (exprType_complains callee).bind fun type => ?_
      cases type with
      | some type => exact hargs.andThen fun _ => construct_complains
      | none =>
        exact (deeper (c := callee) (by simp [Node.ofExpr]) .unknown).both hargs fun _ _ =>
          newOf_complains
    · rename_i place target args
      have hargs : Complains cx.scopes cx (resolveAll args) := resolveAll_complains fun e he =>
        deeper (by simp [Node.ofExpr, he])
      refine checkNewArray_complains.bind fun checked => Complains.ite ?_ complains_pure
      exact (newElementType_complains target).both hargs fun _ _ => newArray_complains
    · exact (ih _ below_operand .unknown).andThen fun _ => newOf_complains

/-- One step of the induction. -/
theorem complainsAt_of_below {e : Expr}
    (ih : ∀ c, Node.Below (.expr c) (.expr e) → ComplainsAt cx c) : ComplainsAt cx e := by
  have child {c : Expr} (h : Node.expr c ∈ Node.ofExpr e) : ComplainsAt cx c := ih c (.child h)
  cases e with
  | literal => exact fun _ => complains_pure
  | name => exact fun _ => ofName_complains
  | typeRef => exact fun _ => ofTypeName_complains _
  | undefined => exact fun _ => undefinedOf_complains.bind fun _ => complains_pure
  | regex => exact fun _ => regexOf_complains
  | xml => exact fun _ => xmlOf_complains
  | member loc target name => exact member_complains (child (by simp [Node.ofExpr]))
  | element loc target args =>
    intro site
    rw [resolve]
    exact (child (by simp [Node.ofExpr]) .unknown).both
      (resolveAll_complains fun e he => child (by simp [Node.ofExpr, he])) fun _ _ =>
        elementOf_complains
  | call loc callee args => exact call_complains ih
  | assign loc target value =>
    exact assign_complains (child (by simp [Node.ofExpr])) (child (by simp [Node.ofExpr]))
  | object loc fields =>
    intro site
    rw [resolve]
    refine (objectType_complains site).bind fun type => ?_
    refine (resolveFields_complains fun f hf => ?_).andThen fun _ => objectOf_complains
    refine ih _ (.deeper (m := .field f) ?_ (.child ?_))
    · simp [Node.children]
    · simp [Node.children, Node.ofExpr, hf]
  | array loc elements vector =>
    intro site
    rw [resolve]
    refine (arrayType_complains vector site).bind fun type => ?_
    exact (resolveAll_complains fun e he => child (by simp [Node.ofExpr, he])).andThen fun _ =>
      arrayOf_complains
  | delete loc operand => exact delete_complains ih
  | new loc operand => exact new_complains ih
  | typeof loc operand =>
    intro site
    rw [resolve]
    refine complains_isExtended.bind fun extended => (complains_fail (by decide)).ite ?_
    exact (child (by simp [Node.ofExpr]) .unknown).andThen fun _ => typeofOf_complains
  | isIn loc key container =>
    intro site
    rw [resolve]
    exact (child (by simp [Node.ofExpr]) .unknown).both (child (by simp [Node.ofExpr]) .unknown)
      fun _ _ => inOf_complains
  | xmlQuery loc source query => exact fun _ => complains_pure

theorem resolve_complains (e : Expr) : ComplainsAt cx e := by
  have complains (n : Node) : ∀ e, n = .expr e → ComplainsAt cx e := by
    induction n using Node.below_induction with
    | step n ih =>
      rintro e rfl
      exact complainsAt_of_below fun c hc => ih _ hc c rfl
  exact complains _ e rfl

/-! ## Statements -/

theorem declaration_complains (d : Declaration) :
    Complains cx.scopes cx (declaration loc d) := by
  have htype : Complains cx.scopes cx (declarationType d) := by
    unfold declarationType
    split
    · exact complains_pure
    · exact (writtenType_complains true _).bind fun _ => complains_pure
  have hvalue (site : Site) : Complains cx.scopes cx (declarationValue site d) := by
    unfold declarationValue
    split
    · exact complains_pure
    · exact (resolve_complains _ site).bind fun _ => complains_pure
  exact htype.bind fun _ => (hvalue _).bind fun _ => complains_pure

mutual

theorem statement_complains : ∀ (s : Stmt) (scopes : Scopes),
    Complains scopes cx (statement scopes s)
  | .declare loc d, scopes => by
    rw [statement]
    exact Complains.bind (Complains.under (declaration_complains d)) fun _ => complains_pure
  | .expr loc e, scopes | .nonAssign loc e, scopes => by
    rw [statement]
    exact Complains.bind (Complains.under (resolve_complains e .unknown)) fun _ => complains_pure
  | .block loc body, scopes => by
    rw [statement]
    have hbody : Complains scopes cx (statements scopes.push body) :=
      (statements_complain body scopes.push).of_declared fun _ h => h
    exact hbody.bind fun _ => complains_pure
  | .localFunction .., _ | .useNamespace .., _ => complains_pure

/-- A unit files nothing but complaints, judged by the scopes that it starts with. -/
theorem statements_complain : ∀ (body : List Stmt) (scopes : Scopes),
    Complains scopes cx (statements scopes body)
  | [], _ => complains_pure
  | s :: rest, scopes => by
    rw [statements]
    refine fun r => always_bind fun o ho => ?_
    obtain ⟨bindings, -, hscopes⟩ := statement_extends s scopes cx r o ho
    have hrest : Complains scopes cx (statements o.value.2 rest) := by
      rw [hscopes]
      refine (statements_complain rest (scopes.extend bindings)).of_declared fun name h => ?_
      rw [Scopes.lookup_extend, Option.or_eq_none_iff] at h
      exact h.2
    refine ((hrest.bind fun _ => complains_pure) o.registry).mono fun _ ho' => ?_
    exact List.forall_mem_append.2 ⟨statement_complains s scopes r o ho, ho'⟩

end

theorem statements_places (body : List Stmt) (scopes : Scopes) (cx : Context) (r : Registry) :
    Always (statements scopes body) cx r fun o => o.filed.Placed :=
  (statements_complain body scopes r).mono fun _ ho d hd => (ho d hd).placed

end Dynascript.Resolve
