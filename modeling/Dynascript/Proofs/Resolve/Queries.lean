import Dynascript.Proofs.Resolve.Units

/-!
# Where XML queries stand

An expression with an XML query never resolves, wherever the query stands (`resolve_needs`) : the
parts that resolution passes over are chains of names and written types, which hold none. Of a
unit, only the bodies of local functions are passed over, so `Stmt.anyQuery` leaves them out. With
that, a unit that files nothing resolves if and only if it has no query (`statements_tell`).
-/

namespace Dynascript

namespace Expr

mutual

/-- The expression is an XML query or contains one. -/
def hasQuery : Expr → Bool
  | literal .. | name .. | typeRef .. | undefined .. | regex .. | xml .. => false
  | member _ target _ => target.hasQuery
  | element _ target args => target.hasQuery || anyQuery args
  | call _ callee args => callee.hasQuery || anyQuery args
  | assign _ target value => target.hasQuery || value.hasQuery
  | object _ fields => anyField fields
  | array _ elements _ => anyQuery elements
  | delete _ operand | new _ operand | typeof _ operand => operand.hasQuery
  | isIn _ key container => key.hasQuery || container.hasQuery
  | xmlQuery .. => true

def anyQuery : List Expr → Bool
  | [] => false
  | e :: es => e.hasQuery || anyQuery es

def anyField : List Field → Bool
  | [] => false
  | .mk _ _ value :: fields => value.hasQuery || anyField fields

end

theorem anyQuery_of_mem {e : Expr} {es : List Expr} (h : e ∈ es) (he : e.hasQuery = true) :
    anyQuery es = true := by
  induction es with
  | nil => cases h
  | cons a es ih => rcases List.mem_cons.1 h with rfl | h <;> simp_all [anyQuery]

theorem anyField_of_mem {f : Field} {fields : List Field} (h : f ∈ fields)
    (hf : f.value.hasQuery = true) : anyField fields = true := by
  induction fields with
  | nil => cases h
  | cons a fields ih =>
    obtain ⟨name, loc, value⟩ := a
    rcases List.mem_cons.1 h with rfl | h <;> simp_all [anyField, Field.value]

/-- A chain of names has no query. -/
theorem hasQuery_of_path? {path : String} : ∀ {e : Expr}, e.path? = some path → e.hasQuery = false
  | name .., _ => rfl
  | member _ target _, h => by
    obtain ⟨_, htarget, -⟩ := Option.map_eq_some_iff.1 h
    exact hasQuery_of_path? (e := target) htarget

end Expr

/-- A query that stands below an expression is one that the expression has. -/
theorem Node.HasQuery.hasQuery {n : Node} (h : n.HasQuery) :
    (∀ e, n = .expr e → e.hasQuery = true) ∧ ∀ f, n = .field f → f.value.hasQuery = true := by
  induction h with
  | here =>
    refine ⟨?_, nofun⟩
    rintro e ⟨⟩
    rfl
  | @child c n hc _ ih =>
    refine ⟨?_, ?_⟩
    · rintro e rfl
      cases e <;> simp only [children, ofExpr, List.mem_cons, List.mem_map, List.not_mem_nil,
        or_false] at hc
      case member | delete | new | typeof =>
        subst hc
        simpa [Expr.hasQuery] using ih.1 _ rfl
      case element | call =>
        rcases hc with rfl | ⟨a, ha, rfl⟩
        · simp [Expr.hasQuery, ih.1 _ rfl]
        · simp [Expr.hasQuery, Expr.anyQuery_of_mem ha (ih.1 a rfl)]
      case assign | isIn => rcases hc with rfl | rfl <;> simp [Expr.hasQuery, ih.1 _ rfl]
      case object =>
        obtain ⟨f, hf, rfl⟩ := hc
        exact Expr.anyField_of_mem hf (ih.2 f rfl)
      case array =>
        obtain ⟨a, ha, rfl⟩ := hc
        exact Expr.anyQuery_of_mem ha (ih.1 a rfl)
      case xmlQuery => rfl
    · rintro f rfl
      exact ih.1 _ (List.mem_singleton.1 hc)

mutual

/-- An expression of the statement has an XML query. The body of a local function is never
resolved and does not count. -/
def Stmt.hasQuery : Stmt → Bool
  | .declare _ d => d.value.any Expr.hasQuery
  | .expr _ e | .nonAssign _ e => e.hasQuery
  | .block _ body => Stmt.anyQuery body
  | .localFunction .. | .useNamespace .. => false

def Stmt.anyQuery : List Stmt → Bool
  | [] => false
  | s :: rest => s.hasQuery || Stmt.anyQuery rest

end

namespace Resolve

variable {α β γ : Type} {p q : Prop}

/-! ## What a value needs -/

/-- The step gives a value only if `p` holds. -/
def Needs (p : Prop) (x : Resolve (Option α)) : Prop :=
  ∀ cx r, Always x cx r fun o => o.value.isSome = true → p

theorem needs_of {x : Resolve (Option α)} (h : p) : Needs p x := fun _ _ _ _ _ => h

theorem needs_none : Needs p (pure none : Resolve (Option α)) :=
  fun _ _ => always_pure nofun

theorem needs_fail {message : Message} {loc : Location} {args : List String} :
    Needs p (fail message loc args : Resolve (Option α)) :=
  fun _ _ => always_fail fun _ => nofun

/-- Go on after a step that needs something, knowing it where the step gave a value. -/
theorem Needs.bind {x : Resolve (Option α)} {f : Option α → Resolve (Option β)} (hx : Needs p x)
    (hf : ∀ a, (a.isSome = true → p) → Needs q (f a)) : Needs q (x >>= f) :=
  fun cx r => always_bind ((hx cx r).mono fun o ho => hf o.value ho cx o.registry)

theorem Needs.after {x : Resolve α} {f : α → Resolve (Option β)} (hf : ∀ a, Needs q (f a)) :
    Needs q (x >>= f) :=
  fun cx _ => always_bind fun o _ => hf o.value cx o.registry

theorem Needs.andThen {x : Resolve (Option α)} {f : α → Resolve (Option β)} (hx : Needs p x)
    (hf : p → ∀ a, Needs q (f a)) : Needs q (do andThen (← x) f) := by
  refine hx.bind fun a ha => ?_
  cases a with
  | none => exact needs_none
  | some a => exact hf (ha rfl) a

theorem Needs.both {s : Prop} {x : Resolve (Option α)} {y : Resolve (Option β)}
    {f : α → β → Resolve (Option γ)} (hx : Needs p x) (hy : Needs q y)
    (hs : p → q → s) : Needs s (do let a ← x; let b ← y; both a b f) := by
  refine hx.bind fun a ha => hy.bind fun b hb => ?_
  cases a with
  | none => exact needs_none
  | some a =>
    cases b with
    | none => exact needs_none
    | some b => exact needs_of (hs (ha rfl) (hb rfl))

/-- Reading a chain of names as a type succeeds for nothing else. -/
theorem pathType_needs (e : Expr) : Needs (e.hasQuery = false) (pathType e) := by
  unfold pathType
  split
  · rename_i hpath
    exact needs_of (Expr.hasQuery_of_path? hpath)
  · exact needs_none

theorem exprType_needs (e : Expr) : Needs (e.hasQuery = false) (exprType e) := by
  unfold exprType
  split
  · exact needs_of rfl
  · exact pathType_needs _
  · exact pathType_needs _
  · exact needs_none

theorem newElementType_needs (target : Expr) :
    Needs (target.hasQuery = false) (newElementType target) := by
  unfold newElementType
  split
  · exact needs_of rfl
  · refine (exprType_needs target).bind fun type htype => ?_
    split
    · exact needs_of (htype rfl)
    · have refused (unknown : Bool) : Needs (target.hasQuery = false)
          (if unknown then fail .unknownType target.loc [target.display]
            else fail .valueNotType target.loc [target.display] : Resolve (Option TypeId)) := by
        split <;> exact needs_fail
      dsimp only
      split
      · exact .after fun _ => .after refused
      · exact .after refused

/-! ## Expressions -/

/-- The expression resolves only if it has no query. -/
def Clear (e : Expr) : Prop := ∀ site, Needs (e.hasQuery = false) (resolve site e)

theorem resolveAll_needs : ∀ {es : List Expr}, (∀ e ∈ es, Clear e) →
    Needs (Expr.anyQuery es = false) (resolveAll es)
  | [], _ => needs_of rfl
  | e :: es, h => by
    rw [resolveAll]
    obtain ⟨he, hes⟩ := List.forall_mem_cons.1 h
    exact .both (he .unknown) (resolveAll_needs hes) fun h h' => by simp [Expr.anyQuery, h, h']

theorem resolveFields_needs : ∀ {fields : List Field}, (∀ f ∈ fields, Clear f.value) →
    Needs (Expr.anyField fields = false) (resolveFields fields)
  | [], _ => needs_of rfl
  | .mk name loc value :: fields, h => by
    rw [resolveFields]
    obtain ⟨hvalue, hfields⟩ := List.forall_mem_cons.1 h
    refine .both (hvalue .unknown) (resolveFields_needs hfields) fun h h' => ?_
    have h : value.hasQuery = false := h
    simp [Expr.anyField, h, h']

theorem member_clear {loc : Location} {target : Expr} {name : String} (ht : Clear target) :
    Clear (.member loc target name) := by
  intro site
  rw [resolve]
  refine (pathType_needs _).bind fun type htype => ?_
  split
  · exact needs_of (htype rfl)
  · exact (ht .unknown).andThen fun h _ => needs_of h

theorem call_clear {loc : Location} {callee : Expr} {args : List Expr}
    (ih : ∀ c, Node.Below (.expr c) (.expr (.call loc callee args)) → Clear c) :
    Clear (.call loc callee args) := by
  intro site
  have hargs : ∀ e ∈ args, Clear e := fun e he =>
    ih e (.child (by simp [Node.children, Node.ofExpr, he]))
  unfold resolve
  split
  · rename_i place target name
    have ht : Clear target :=
      ih _ (.deeper (m := .expr (.member place target name)) (by simp [Node.children, Node.ofExpr])
        (.child (by simp [Node.children, Node.ofExpr])))
    refine Needs.after fun type => ?_
    split
    · exact .both (ht .unknown) (resolveAll_needs hargs) fun h h' => by
        simp [Expr.hasQuery, h, h']
    · exact (resolveAll_needs hargs).andThen fun _ _ => needs_fail
  · have hcallee : Clear callee := ih _ (.child (by simp [Node.children, Node.ofExpr]))
    exact .both (hcallee .unknown) (resolveAll_needs hargs) fun h h' => by
      simp [Expr.hasQuery, h, h']

theorem assign_clear {loc : Location} {target value : Expr} (ht : Clear target)
    (hv : Clear value) : Clear (.assign loc target value) := by
  intro site
  rw [resolve]
  refine (ht .unknown).andThen fun htarget place => ?_
  split
  · exact (hv _).andThen fun hvalue _ => needs_of (by simp [Expr.hasQuery, htarget, hvalue])
  · exact needs_fail

theorem delete_clear {loc : Location} {operand : Expr}
    (ih : ∀ c, Node.Below (.expr c) (.expr (.delete loc operand)) → Clear c) :
    Clear (.delete loc operand) := by
  intro site
  have below_operand : Node.Below (.expr operand) (.expr (.delete loc operand)) :=
    .child (by simp [Node.children, Node.ofExpr])
  unfold resolve
  refine Needs.after fun script => ?_
  split
  · exact (ih _ below_operand .unknown).andThen fun h _ => needs_of h
  · split
    · rename_i place target key
      have ht := ih target (.deeper (by simp [Node.children, Node.ofExpr]) below_operand)
      have hkey := ih key (.deeper (by simp [Node.children, Node.ofExpr]) below_operand)
      exact .both (ht .unknown) (hkey .unknown) fun h h' => by
        simp [Expr.hasQuery, Expr.anyQuery, h, h']
    · exact needs_fail
    · rename_i place target name
      have ht := ih target (.deeper (by simp [Node.children, Node.ofExpr]) below_operand)
      exact (ht .unknown).andThen fun h _ => needs_of h
    · exact needs_fail

theorem new_clear {loc : Location} {operand : Expr}
    (ih : ∀ c, Node.Below (.expr c) (.expr (.new loc operand)) → Clear c) :
    Clear (.new loc operand) := by
  intro site
  have below_operand : Node.Below (.expr operand) (.expr (.new loc operand)) :=
    .child (by simp [Node.children, Node.ofExpr])
  have deeper {c : Expr} (h : Node.expr c ∈ Node.ofExpr operand) : Clear c :=
    ih c (.deeper (m := .expr operand) h below_operand)
  unfold resolve
  refine Needs.after fun script => ?_
  split
  · split
    · rename_i place callee args
      have hcallee := deeper (c := callee) (by simp [Node.ofExpr])
      have hargs : ∀ e ∈ args, Clear e := fun e he => deeper (by simp [Node.ofExpr, he])
      have invoked : Needs ((Expr.call place callee args).hasQuery = false) (do
          let callee ← resolve .unknown callee
          let args ← resolveAll args
          both callee args fun callee args =>
            return some (TypedExpr.dynamicInvoke (.value .dynamic place) callee args)) :=
        .both (hcallee .unknown) (resolveAll_needs hargs) fun h h' => by
          simp [Expr.hasQuery, h, h']
      have wrapped := invoked.andThen fun h (e : TypedExpr) =>
        needs_of (x := pure (some (TypedExpr.scriptNew (.value .dynamic loc) e))) h
      simp only [bind_assoc] at wrapped
      exact wrapped
    · exact (ih _ below_operand .unknown).andThen fun h _ => needs_of h
  · split
    · rename_i place elements vector
      refine Needs.after fun type => ?_
      exact (resolveAll_needs fun e he => deeper (by simp [Node.ofExpr, he])).andThen
        fun h _ => needs_of h
    · rename_i place callee args
      have hcallee := deeper (c := callee) (by simp [Node.ofExpr])
      have hargs : ∀ e ∈ args, Clear e := fun e he => deeper (by simp [Node.ofExpr, he])
      refine (exprType_needs callee).bind fun type htype => ?_
      split
      · exact (resolveAll_needs hargs).andThen fun h _ =>
          needs_of (by simp [Expr.hasQuery, htype rfl, h])
      · exact .both (hcallee .unknown) (resolveAll_needs hargs) fun h h' => by
          simp [Expr.hasQuery, h, h']
    · rename_i place target args
      have hargs : ∀ e ∈ args, Clear e := fun e he => deeper (by simp [Node.ofExpr, he])
      refine Needs.after fun checked => ?_
      split
      · exact .both (newElementType_needs target) (resolveAll_needs hargs) fun h h' => by
          simp [Expr.hasQuery, h, h']
      · exact needs_none
    · exact (ih _ below_operand .unknown).andThen fun h _ => needs_of h

/-- One step of the induction. -/
theorem clear_of_below {e : Expr} (ih : ∀ c, Node.Below (.expr c) (.expr e) → Clear c) :
    Clear e := by
  have child {c : Expr} (h : Node.expr c ∈ Node.ofExpr e) : Clear c := ih c (.child h)
  cases e with
  | literal | name | typeRef | undefined | regex | xml => exact fun _ => needs_of rfl
  | member loc target name => exact member_clear (child (by simp [Node.ofExpr]))
  | element loc target args =>
    intro site
    rw [resolve]
    exact .both (child (by simp [Node.ofExpr]) .unknown)
      (resolveAll_needs fun e he => child (by simp [Node.ofExpr, he])) fun h h' => by
        simp [Expr.hasQuery, h, h']
  | call loc callee args => exact call_clear ih
  | assign loc target value =>
    exact assign_clear (child (by simp [Node.ofExpr])) (child (by simp [Node.ofExpr]))
  | object loc fields =>
    intro site
    rw [resolve]
    refine Needs.after fun type => ?_
    refine (resolveFields_needs fun f hf => ?_).andThen fun h _ => needs_of h
    refine ih _ (.deeper (m := .field f) ?_ (.child ?_))
    · simp [Node.children]
    · simp [Node.children, Node.ofExpr, hf]
  | array loc elements vector =>
    intro site
    rw [resolve]
    refine Needs.after fun type => ?_
    exact (resolveAll_needs fun e he => child (by simp [Node.ofExpr, he])).andThen
      fun h _ => needs_of h
  | delete loc operand => exact delete_clear ih
  | new loc operand => exact new_clear ih
  | typeof loc operand =>
    intro site
    rw [resolve]
    refine Needs.after fun extended => ?_
    split
    · exact needs_fail
    · exact (child (by simp [Node.ofExpr]) .unknown).andThen fun h _ => needs_of h
  | isIn loc key container =>
    intro site
    rw [resolve]
    exact .both (child (by simp [Node.ofExpr]) .unknown) (child (by simp [Node.ofExpr]) .unknown)
      fun h h' => by simp [Expr.hasQuery, h, h']
  | xmlQuery loc source query => exact fun _ => needs_none

theorem resolve_needs (e : Expr) : Clear e := by
  have clear (n : Node) : ∀ e, n = .expr e → Clear e := by
    induction n using Node.below_induction with
    | step n ih =>
      rintro e rfl
      exact clear_of_below fun c hc => ih _ hc c rfl
  exact clear _ e rfl

/-! ## Statements -/

/-- A step that files nothing gives a value if and only if it met no query. -/
def Tells (query : Bool) (filed : Log) (value : Option α) : Prop :=
  filed = [] → value.isSome = !query

theorem tells_of {query : Bool} {filed : Log} {value : Option α}
    (hneeds : value.isSome = true → query = false)
    (htold : value = none → filed ≠ [] ∨ query = true) : Tells query filed value := by
  intro hfiled
  cases value with
  | none => simpa [hfiled] using htold rfl
  | some a => simpa using hneeds rfl

theorem resolves_hasQuery (e : Expr) : Resolves (e.hasQuery = true) e :=
  fun site cx r => (resolve_settles e site cx r).excused fun h => h.hasQuery.1 e rfl

theorem resolve_tells (site : Site) (e : Expr) (cx : Context) (r : Registry) :
    Always (resolve site e) cx r fun o => Tells e.hasQuery o.filed o.value :=
  fun o ho => tells_of (resolve_needs e site cx r o ho) (resolves_hasQuery e site cx r o ho).told

theorem declaration_needs (loc : Location) (d : Declaration) (cx : Context) (r : Registry) :
    Always (declaration loc d) cx r fun o =>
      o.value.1.isSome = true → d.value.any Expr.hasQuery = false := by
  refine always_bind fun written _ => ?_
  unfold declarationValue
  split
  · exact fun _ _ _ => by simp [*]
  · rename_i e he
    refine always_bind (always_bind ((resolve_needs e _ cx written.registry).mono fun o ho =>
      always_pure (always_pure ?_)))
    dsimp only
    intro hsome
    have hvalue : o.value.isSome = true := by
      cases hv : o.value with
      | some typed => rfl
      | none => cases hw : written.value with
        | none => simp [hv, hw] at hsome
        | some type => cases type <;> simp [hv, hw] at hsome
    simpa [he] using ho hvalue

theorem declaration_tells (loc : Location) (d : Declaration) (cx : Context) (r : Registry) :
    Always (declaration loc d) cx r fun o =>
      Tells (d.value.any Expr.hasQuery) o.filed o.value.1 := by
  have hd : ∀ e ∈ d.value, Resolves (d.value.any Expr.hasQuery = true) e := fun e he site cx r =>
    (resolves_hasQuery e site cx r).excused fun h => by simp_all
  exact fun o ho => tells_of (declaration_needs loc d cx r o ho)
    (declaration_settles loc hd o ho).told

mutual

theorem statement_tells : ∀ (s : Stmt) (scopes : Scopes) (cx : Context) (r : Registry),
    Always (statement scopes s) cx r fun o => Tells s.hasQuery o.filed o.value.1
  | .declare loc d, scopes, cx, r => by
    rw [statement]
    refine always_bind (always_under ((declaration_tells loc d _ r).mono fun o ho => ?_))
    refine always_pure ?_
    simpa [Stmt.hasQuery] using ho
  | .expr loc e, scopes, cx, r | .nonAssign loc e, scopes, cx, r => by
    rw [statement]
    refine always_bind (always_under ((resolve_tells .unknown e _ r).mono fun o ho => ?_))
    refine always_pure ?_
    simpa [Tells, Stmt.hasQuery] using ho
  | .block loc body, scopes, cx, r => by
    rw [statement]
    refine always_bind ((statements_tell body scopes.push cx r).mono fun o ho => always_pure ?_)
    simpa [Tells, Stmt.hasQuery] using ho
  | .localFunction .., scopes, cx, r | .useNamespace .., scopes, cx, r =>
    always_pure fun _ => rfl

/-- A unit that files nothing resolves if and only if it has no query. -/
theorem statements_tell : ∀ (body : List Stmt) (scopes : Scopes) (cx : Context) (r : Registry),
    Always (statements scopes body) cx r fun o => Tells (Stmt.anyQuery body) o.filed o.value.1
  | [], scopes, cx, r => always_pure fun _ => rfl
  | s :: rest, scopes, cx, r => by
    rw [statements]
    refine always_bind ((statement_tells s scopes cx r).mono fun o ho => ?_)
    refine always_bind ((statements_tell rest o.value.2 cx o.registry).mono fun o' ho' => ?_)
    refine always_pure fun hfiled => ?_
    simp only [List.append_nil, List.append_eq_nil_iff] at hfiled
    have hs := ho hfiled.1
    have hrest := ho' hfiled.2
    cases hv : o.value.1 <;> cases hv' : o'.value.1 <;> simp_all [Stmt.anyQuery]

end

end Resolve

end Dynascript
