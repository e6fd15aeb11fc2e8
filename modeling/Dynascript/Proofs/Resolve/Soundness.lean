import Dynascript.Proofs.Resolve.Parts
import Dynascript.Proofs.Syntax.Below
import Dynascript.Proofs.Types.Built
import Dynascript.Resolve.Expr

/-!
# How expressions settle

`resolve_settles` : resolving an expression only adds types; if it gives a tree, every node
of the tree obeys its typing rule and nothing is filed; if it gives none, the reason is filed
unless an XML query stands in the expression. There is a lemma for each form of expression
whose parts are resolved, and the theorem goes by induction on the nodes below.
-/

namespace Dynascript.Resolve

variable {cx : Context} {r : Registry} {excuse : Prop}

/-- Resolving the expression settles with a well typed tree, wherever it stands. -/
def Resolves (excuse : Prop) (e : Expr) : Prop :=
  ∀ site cx r, Settles excuse (Typed cx) (resolve site e) cx r

/-- What becomes of a list of expressions : as many trees, all well typed. -/
def TreesOf (cx : Context) (es : List Expr) (r : Registry) (trees : List TypedExpr) : Prop :=
  trees.length = es.length ∧ ∀ e ∈ trees, Typed cx r e

/-- Go on with a tree and another value; the tree stays well typed in the meantime. -/
theorem Settles.withTree {β γ : Type} {x : Resolve (Option TypedExpr)} {y : Resolve (Option β)}
    {f : TypedExpr → β → Resolve (Option γ)} {good : Registry → β → Prop}
    {best : Registry → γ → Prop} (hx : Settles excuse (Typed cx) x cx r)
    (hy : ∀ r', Settles excuse good y cx r')
    (hf : ∀ r' e b, Typed cx r' e → good r' b → Settles excuse best (f e b) cx r') :
    Settles excuse best (do let e ← x; let b ← y; Resolve.both e b f) cx r :=
  .both hx (fun r' _ => hy r') (fun _ _ _ h he => he.grow h) fun r' e b _ => hf r' e b

theorem resolveAll_settles :
    ∀ {es : List Expr} {r : Registry}, (∀ e ∈ es, Resolves excuse e) →
      Settles excuse (TreesOf cx es) (resolveAll es) cx r
  | [], _, _ => settles_some ⟨rfl, nofun⟩
  | e :: es, r, h => by
    rw [resolveAll]
    obtain ⟨he, hes⟩ := List.forall_mem_cons.1 h
    exact .withTree (he .unknown cx r) (fun _ => resolveAll_settles hes)
      fun _ _ _ ha ⟨hlength, hrest⟩ =>
        settles_some ⟨by simp [hlength], List.forall_mem_cons.2 ⟨ha, hrest⟩⟩

theorem resolveFields_settles :
    ∀ {fields : List Field} {r : Registry}, (∀ f ∈ fields, Resolves excuse f.value) →
      Settles excuse (PropertiesOf cx fields) (resolveFields fields) cx r
  | [], _, _ => settles_some ⟨rfl, nofun⟩
  | .mk name loc value :: fields, r, h => by
    rw [resolveFields]
    obtain ⟨hvalue, hfields⟩ := List.forall_mem_cons.1 h
    refine .withTree (hvalue .unknown cx r) (fun _ => resolveFields_settles hfields)
      fun _ typed rest ha ⟨hnames, hrest⟩ => ?_
    exact settles_some ⟨by simp [hnames, Property.name, Field.name],
      List.forall_mem_cons.2 ⟨ha, hrest⟩⟩

theorem member_settles {loc : Location} {target : Expr} {name : String}
    (ht : Resolves excuse target) : Resolves excuse (.member loc target name) := by
  intro site cx r
  rw [resolve]
  refine always_answer (pathType_answered _) fun type hknown => ?_
  split
  · exact settles_some (.node ⟨rfl, hknown _ rfl⟩ nofun)
  · exact Settles.andThen (ht .unknown cx r) fun _ _ _ htarget =>
      (memberOf_settles loc name htarget).imp id fun _ _ h => h.1

theorem element_settles {loc : Location} {target : Expr} {args : List Expr}
    (ht : Resolves excuse target) (hargs : ∀ e ∈ args, Resolves excuse e) :
    Resolves excuse (.element loc target args) := by
  intro site cx r
  exact .withTree (ht .unknown cx r) (fun _ => resolveAll_settles hargs)
    fun _ _ _ htarget hargs => elementOf_settles loc htarget hargs.2

/-- The form of the callee decides which parts are resolved, so all nodes below are asked
for. -/
theorem call_settles {loc : Location} {callee : Expr} {args : List Expr}
    (ih : ∀ c, Node.Below (.expr c) (.expr (.call loc callee args)) → Resolves excuse c) :
    Resolves excuse (.call loc callee args) := by
  intro site cx r
  have hcallee : Resolves excuse callee := ih _ (.child (by simp [Node.children, Node.ofExpr]))
  have hargs : ∀ e ∈ args, Resolves excuse e := fun e he =>
    ih e (.child (by simp [Node.children, Node.ofExpr, he]))
  unfold resolve
  split
  · rename_i place target name
    have ht : Resolves excuse target :=
      ih _ (.deeper (m := .expr (.member place target name)) (by simp [Node.children, Node.ofExpr])
        (.child (by simp [Node.children, Node.ofExpr])))
    refine Settles.after (pathType_silent _) fun r' type _ => ?_
    split
    · exact .withTree (ht .unknown cx r') (fun _ => resolveAll_settles hargs)
        fun _ _ _ hreceiver hargs => methodCall_settles loc name hreceiver hargs.2
    · exact .andThen (resolveAll_settles hargs) fun _ _ _ _ => settles_fail
  · exact .withTree (hcallee .unknown cx r) (fun _ => resolveAll_settles hargs)
      fun _ _ _ hcallee hargs => invoke_settles loc callee hcallee hargs.2

theorem assign_settles {loc : Location} {target value : Expr} (ht : Resolves excuse target)
    (hv : Resolves excuse value) : Resolves excuse (.assign loc target value) := by
  intro site cx r
  refine .andThen (ht .unknown cx r) fun r' place _ hplace => ?_
  split
  · rename_i hrole
    refine .andThen (hv _ cx r') fun r'' value hgrows hvalue => ?_
    refine settles_some (.node ⟨rfl, hrole, rfl⟩ ?_)
    simp [TypedExpr.children, hplace.grow hgrows, hvalue]
  · exact settles_fail

theorem object_settles {loc : Location} {fields : List Field}
    (hfields : ∀ f ∈ fields, Resolves excuse f.value) : Resolves excuse (.object loc fields) := by
  intro site cx r
  refine .after (objectType_silent site) fun r' type _ => ?_
  exact .andThen (resolveFields_settles hfields) fun _ _ _ => objectOf_settles loc type

/-- An array initializer, also behind `new`. -/
theorem initializer_settles {elements : List Expr} (loc : Location) (vector : Option TypeName)
    (site : Site) (helements : ∀ e ∈ elements, Resolves excuse e) :
    Settles excuse (Typed cx) (do
      let type ← arrayType vector site
      andThen (← resolveAll elements) fun elements => arrayOf loc type elements) cx r := by
  refine .after (arrayType_silent vector site) fun r' type _ => ?_
  exact .andThen (resolveAll_settles helements) fun _ _ _ h => arrayOf_settles loc type h.2

theorem delete_settles {loc : Location} {operand : Expr}
    (ih : ∀ c, Node.Below (.expr c) (.expr (.delete loc operand)) → Resolves excuse c) :
    Resolves excuse (.delete loc operand) := by
  intro site cx r
  have below_operand : Node.Below (.expr operand) (.expr (.delete loc operand)) :=
    .child (by simp [Node.children, Node.ofExpr])
  unfold resolve
  refine always_isScript ?_
  split
  · rename_i hs
    refine Settles.andThen (ih _ below_operand .unknown cx r) fun _ typed _ htyped =>
      settles_some (.node ⟨rfl, rfl, hs⟩ ?_)
    simpa [TypedExpr.children] using htyped
  · rename_i hscript
    have hs : cx.settings.isScript = false := by simpa using hscript
    split
    · rename_i place target key
      have ht := ih target (.deeper (by simp [Node.children, Node.ofExpr]) below_operand)
      have hkey := ih key (.deeper (by simp [Node.children, Node.ofExpr]) below_operand)
      exact Settles.withTree (ht .unknown cx r) (fun r' => hkey .unknown cx r')
        fun _ _ _ => deleteOf_settles loc true hs
    · exact settles_fail
    · rename_i place target name
      have ht := ih target (.deeper (by simp [Node.children, Node.ofExpr]) below_operand)
      exact Settles.andThen (ht .unknown cx r) fun _ _ _ htarget =>
        deleteOf_settles loc false hs htarget (stringConstant_typed place name)
    · exact settles_fail

theorem scriptNew_settles {loc : Location} {operand : Expr} (hs : cx.settings.isScript = true)
    (ih : ∀ c, Node.Below (.expr c) (.expr (.new loc operand)) → Resolves excuse c) (site : Site) :
    Settles excuse (Typed cx) (resolve site (.new loc operand)) cx r := by
  have below_operand : Node.Below (.expr operand) (.expr (.new loc operand)) :=
    .child (by simp [Node.children, Node.ofExpr])
  have wrap (r' : Registry) (e : TypedExpr) (he : Typed cx r' e) : Settles excuse (Typed cx)
      (pure (some (.scriptNew (.value .dynamic loc) e))) cx r' :=
    settles_some (.node ⟨rfl, rfl, hs⟩ (by simpa [TypedExpr.children] using he))
  unfold resolve
  refine always_isScript ?_
  rw [if_pos hs]
  split
  · rename_i place callee args
    have hcallee := ih callee (.deeper (by simp [Node.children, Node.ofExpr]) below_operand)
    have hargs : ∀ e ∈ args, Resolves excuse e := fun e he =>
      ih e (.deeper (by simp [Node.children, Node.ofExpr, he]) below_operand)
    have invoked : Settles excuse (Typed cx) (do
        let callee ← resolve .unknown callee
        let args ← resolveAll args
        both callee args fun callee args =>
          return some (.dynamicInvoke (.value .dynamic place) callee args)) cx r :=
      .withTree (hcallee .unknown cx r) (fun _ => resolveAll_settles hargs) fun _ _ _ hc has =>
        settles_some (.node ⟨rfl, rfl, .inl hs⟩ (List.forall_mem_cons.2 ⟨hc, has.2⟩))
    have wrapped := invoked.andThen fun r' e _ => wrap r' e
    simp only [bind_assoc] at wrapped
    exact wrapped
  · exact Settles.andThen (ih _ below_operand .unknown cx r) fun r' e _ => wrap r' e

theorem nativeNew_settles {loc : Location} {operand : Expr} (hs : cx.settings.isScript = false)
    (ih : ∀ c, Node.Below (.expr c) (.expr (.new loc operand)) → Resolves excuse c) (site : Site) :
    Settles excuse (Typed cx) (resolve site (.new loc operand)) cx r := by
  have below_operand : Node.Below (.expr operand) (.expr (.new loc operand)) :=
    .child (by simp [Node.children, Node.ofExpr])
  unfold resolve
  refine always_isScript ?_
  rw [if_neg (by simp [hs])]
  split
  · rename_i place elements vector
    exact initializer_settles place vector site fun e he =>
      ih e (.deeper (by simp [Node.children, Node.ofExpr, he]) below_operand)
  · rename_i place callee args
    have hcallee := ih callee (.deeper (by simp [Node.children, Node.ofExpr]) below_operand)
    have hargs : ∀ e ∈ args, Resolves excuse e := fun e he =>
      ih e (.deeper (by simp [Node.children, Node.ofExpr, he]) below_operand)
    refine Settles.after (exprType_silent callee) fun r' type _ => ?_
    split
    · exact Settles.andThen (resolveAll_settles hargs) fun _ _ _ h =>
        construct_settles loc _ hs h.2
    · exact Settles.withTree (hcallee .unknown cx r') (fun _ => resolveAll_settles hargs)
        fun _ _ _ hcallee hargs => newOf_settles loc callee hs hcallee hargs.2
  · rename_i place target args
    have hargs : ∀ e ∈ args, Resolves excuse e := fun e he =>
      ih e (.deeper (by simp [Node.children, Node.ofExpr, he]) below_operand)
    refine Settles.guarded (checkNewArray_checked loc target args) fun hchecked => ?_
    obtain ⟨hx, hne⟩ := hchecked
    refine Settles.both (newElementType_settles target) (fun _ _ => resolveAll_settles hargs)
      (fun _ _ _ _ => id) fun _ element dimensions _ _ htrees => ?_
    obtain ⟨hlength, hdimensions⟩ := htrees
    have hne' : dimensions ≠ [] := by
      rwa [← List.length_pos_iff, hlength, List.length_pos_iff]
    exact newArray_settles loc element hs hx hne' hdimensions
  · exact Settles.andThen (ih _ below_operand .unknown cx r) fun _ _ _ hoperand =>
      newOf_settles loc operand hs hoperand (List.forall_mem_nil _)

theorem typeof_settles {loc : Location} {operand : Expr} (ho : Resolves excuse operand) :
    Resolves excuse (.typeof loc operand) := by
  intro site cx r
  refine always_isExtended ?_
  split
  · exact settles_fail
  · rename_i hx
    exact Settles.andThen (ho .unknown cx r) fun _ _ _ =>
      typeofOf_settles loc (by simpa using hx)

theorem isIn_settles {loc : Location} {key container : Expr} (hk : Resolves excuse key)
    (hc : Resolves excuse container) : Resolves excuse (.isIn loc key container) := by
  intro site cx r
  exact .withTree (hk .unknown cx r) (fun r' => hc .unknown cx r') fun _ _ _ => inOf_settles loc

/-- One step of the induction : an expression settles if all that stands below does. -/
theorem resolves_of_below {e : Expr}
    (hquery : ∀ loc source query, e = .xmlQuery loc source query → excuse)
    (ih : ∀ c, Node.Below (.expr c) (.expr e) → Resolves excuse c) : Resolves excuse e := by
  have child {c : Expr} (h : Node.expr c ∈ Node.ofExpr e) : Resolves excuse c := ih c (.child h)
  cases e with
  | literal loc value => exact fun _ _ _ => settles_some (literal_typed loc value)
  | name loc name => exact fun _ _ _ => ofName_settles loc name
  | member loc target name => exact member_settles (child (by simp [Node.ofExpr]))
  | element loc target args =>
    exact element_settles (child (by simp [Node.ofExpr]))
      fun e he => child (by simp [Node.ofExpr, he])
  | call loc callee args => exact call_settles ih
  | assign loc target value =>
    exact assign_settles (child (by simp [Node.ofExpr])) (child (by simp [Node.ofExpr]))
  | typeRef loc type => exact fun _ _ _ => ofTypeName_settles type
  | object loc fields =>
    refine object_settles fun f hf => ih _ (.deeper (m := .field f) ?_ (.child ?_))
    · simp [Node.children]
    · simp [Node.children, Node.ofExpr, hf]
  | array loc elements vector =>
    intro site cx r
    rw [resolve]
    exact initializer_settles loc vector site fun e he => child (by simp [Node.ofExpr, he])
  | delete loc operand => exact delete_settles ih
  | new loc operand =>
    intro site cx r
    cases hs : cx.settings.isScript with
    | true => exact scriptNew_settles hs ih site
    | false => exact nativeNew_settles hs ih site
  | typeof loc operand => exact typeof_settles (child (by simp [Node.ofExpr]))
  | isIn loc key container =>
    exact isIn_settles (child (by simp [Node.ofExpr])) (child (by simp [Node.ofExpr]))
  | undefined loc => exact fun _ _ _ => undefinedOf_settles loc
  | regex loc value => exact fun _ _ _ => regexOf_settles loc value
  | xml loc value => exact fun _ _ _ => xmlOf_settles loc value
  | xmlQuery loc source query =>
    exact fun _ _ _ => settles_none (hquery loc source query rfl)

/-- Resolving an expression settles with a well typed tree; only an expression with an XML
query may fail without a word. -/
theorem resolve_settles (e : Expr) : Resolves (Node.expr e).HasQuery e := by
  -- By induction on all that stands below, and not on the children only : a call, `delete` and
  -- `new` resolve parts of their operand without the operand.
  have settles (n : Node) : ∀ e, n = .expr e → Resolves n.HasQuery e := by
    induction n using Node.below_induction with
    | step n ih =>
      rintro e rfl
      refine resolves_of_below (fun _ _ _ h => h ▸ .here) fun c hc site cx r => ?_
      exact (ih _ hc c rfl site cx r).excused (.of_below hc)
  exact settles _ e rfl

/-! ## Registries that a program can build -/

/-- The field that stands for `undefined` on the native target is there in every registry
whose first types were left alone. -/
theorem hasField_undefined {root : String} (hr : r.Built root RegistryOp.SparesBootstrap) :
    r.HasField .undefined undefinedField true .undefined .undefined :=
  TypeTable.findMember_mono ((Registry.runtimeTable_extends root).trans hr.extends_bootstrap) rfl

/-- The node obeys its typing rule, and a static field is one that its owner declares, also
where it stands for `undefined`. -/
def Obeys (cx : Context) (r : Registry) (e : TypedExpr) : Prop :=
  Rule cx r e ∧
    ∀ i owner name, e = .staticField i owner name → r.HasField owner name true owner i.type

theorem Rule.obeys {e : TypedExpr}
    (hu : r.HasField .undefined undefinedField true .undefined .undefined) (he : Rule cx r e) :
    Obeys cx r e := by
  refine ⟨he, ?_⟩
  rintro i owner name rfl
  rcases he with ⟨-, hfield⟩ | ⟨-, rfl, rfl, htype, -⟩
  · exact hfield
  · exact htype ▸ hu

/-- Every node of a resolved tree obeys its typing rule, in the registry that resolution
leaves. -/
theorem resolve_sound {root : String} (hr : r.Built root RegistryOp.SparesBootstrap)
    (cx : Context) (site : Site) (e : Expr) {o : Outcome (Option TypedExpr)} {tree : TypedExpr}
    (ho : resolve site e cx r = .ok o) (htree : o.value = some tree) :
    tree.Everywhere (Obeys cx o.registry) := by
  have settled := resolve_settles e site cx r o ho
  obtain ⟨-, htyped⟩ := settled.quiet tree htree
  exact htyped.mono fun _ => Rule.obeys (settled.grows.findMember (hasField_undefined hr))

/-- A class with a method that gives nothing, its handle, and a class that inherits it. -/
def taskClass : ClassDecl :=
  { name := "Task", flags := .plainClass, members := [⟨"run", .method [] .void, false⟩] }

def taskId : TypeId := (Registry.bootstrap defaultRoot).table.next

def jobClass : ClassDecl := { name := "Job", flags := .plainClass, base := some taskId }

def jobRegistry : Registry :=
  (((Registry.bootstrap defaultRoot).declare taskClass).2.declare jobClass).2

/-- A call of the inherited method names the class that declares it, and has no value. -/
theorem resolve_sound_inherited :
    let cx : Context := ⟨{}, Scopes.fresh.declare "job" ⟨23⟩⟩
    let tree : TypedExpr := .instanceCall ⟨.void, .nothing, .origin⟩
      (.localVar ⟨⟨23⟩, .place, .origin⟩ "job") taskId "run" []
    resolve .unknown (.call .origin (.member .origin (.name .origin "job") "run") []) cx
        jobRegistry = .ok ⟨some tree, [], jobRegistry⟩ ∧
      tree.Everywhere (Obeys cx jobRegistry) := by
  have hbuilt : jobRegistry.Built defaultRoot RegistryOp.SparesBootstrap :=
    .step (.declare jobClass) (.step (.declare taskClass) .start trivial (by decide) rfl) trivial
      (by decide) rfl
  exact ⟨rfl, resolve_sound hbuilt _ .unknown
    (.call .origin (.member .origin (.name .origin "job") "run") []) (o := ⟨some _, [], _⟩) rfl rfl⟩

end Dynascript.Resolve
