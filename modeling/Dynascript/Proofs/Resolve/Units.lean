import Dynascript.Proofs.Resolve.Soundness
import Dynascript.Resolve.Stmt

/-!
# How statements settle

Statements settle as expressions do. Besides, a resolved statement tells the scopes after it
(`TypedStmt.after`), so the scopes in which each tree of a body was resolved can be read off
the body : `BodyTyped` says that each of them is well typed there.
-/

namespace Dynascript

/-- The scopes after a resolved statement : a declaration adds to them, a block gives them
back. -/
def TypedStmt.after (scopes : Scopes) : TypedStmt → Scopes
  | declare _ name type _ => scopes.declare name type
  | _ => scopes

/-- The scopes after resolved statements. -/
def TypedStmt.afterAll (scopes : Scopes) (body : List TypedStmt) : Scopes :=
  body.foldl TypedStmt.after scopes

theorem TypedStmt.after_outer (scopes : Scopes) (s : TypedStmt) :
    (s.after scopes).outer = scopes.outer := by
  cases s <;> rfl

theorem TypedStmt.afterAll_outer (scopes : Scopes) (body : List TypedStmt) :
    (afterAll scopes body).outer = scopes.outer := by
  induction body generalizing scopes with
  | nil => rfl
  | cons s rest ih => exact (ih _).trans (after_outer scopes s)

/-- A block gives back the scopes it was entered with. -/
theorem TypedStmt.pop_afterAll_push (scopes : Scopes) (body : List TypedStmt) :
    (afterAll scopes.push body).pop = scopes := by
  rw [Scopes.pop, afterAll_outer]
  rfl

namespace Resolve

mutual

/-- The trees of a statement are well typed in the scopes before it. -/
def StmtTyped (settings : Settings) (r : Registry) (scopes : Scopes) : TypedStmt → Prop
  | .declare _ _ _ initializer => ∀ e ∈ initializer, Typed ⟨settings, scopes⟩ r e
  | .expr _ e | .nonAssign _ e => Typed ⟨settings, scopes⟩ r e
  | .block _ body => BodyTyped settings r scopes.push body
  | .localFunction .. | .useNamespace .. => True

/-- The trees of each statement are well typed in the scopes after those before it. -/
def BodyTyped (settings : Settings) (r : Registry) (scopes : Scopes) : List TypedStmt → Prop
  | [] => True
  | s :: rest => StmtTyped settings r scopes s ∧ BodyTyped settings r (s.after scopes) rest

end

variable {α : Type} {cx : Context} {r r' : Registry} {excuse : Prop} {settings : Settings}

mutual

theorem StmtTyped.grow (h : r.Grows r') :
    ∀ {s : TypedStmt} {scopes : Scopes}, StmtTyped settings r scopes s →
      StmtTyped settings r' scopes s
  | .declare .., _, hs => fun e he => (hs e he).grow h
  | .expr .., _, hs | .nonAssign .., _, hs => Typed.grow h hs
  | .block .., _, hs => BodyTyped.grow h hs
  | .localFunction .., _, _ | .useNamespace .., _, _ => trivial

theorem BodyTyped.grow (h : r.Grows r') :
    ∀ {body : List TypedStmt} {scopes : Scopes}, BodyTyped settings r scopes body →
      BodyTyped settings r' scopes body
  | [], _, _ => trivial
  | _ :: _, _, hs => ⟨StmtTyped.grow h hs.1, BodyTyped.grow h hs.2⟩

end

/-! ## Declarations -/

/-- What a part leaves that may be missing; the outer option is `none` if it is. -/
structure PartSettled (excuse : Prop) (good : Registry → α → Prop) (r : Registry)
    (o : Outcome (Option (Option α))) : Prop where
  grows : r.Grows o.registry
  quiet : o.value ≠ some none → o.filed = [] ∧ ∀ a, o.value = some (some a) → good o.registry a
  told : o.value = some none → o.filed ≠ [] ∨ excuse

theorem part_missing {good : Registry → α → Prop} :
    Always (pure none) cx r (PartSettled excuse good r) :=
  always_pure ⟨.refl r, fun _ => ⟨rfl, nofun⟩, nofun⟩

theorem part_of_settles {good : Registry → α → Prop} {x : Resolve (Option α)}
    (hx : Settles excuse good x cx r) :
    Always (do return some (← x)) cx r (PartSettled excuse good r) := by
  refine always_bind (hx.mono fun o ho => always_pure ⟨ho.grows, fun hv => ?_, fun hv => ?_⟩)
  · cases ha : o.value with
    | none => simp [ha] at hv
    | some a =>
      obtain ⟨hfiled, hgood⟩ := ho.quiet a ha
      exact ⟨by simp [hfiled], by simpa using hgood⟩
  · simpa using ho.told (by simpa using hv)

theorem declarationType_settles (d : Declaration) :
    Always (declarationType d) cx r (PartSettled False anything r) := by
  unfold declarationType
  split
  · exact part_missing
  · exact part_of_settles ((writtenType_settles true _ cx r).imp nofun fun _ _ _ => trivial)

theorem declarationValue_settles (site : Site) {d : Declaration}
    (hd : ∀ e ∈ d.value, Resolves excuse e) :
    Always (declarationValue site d) cx r (PartSettled excuse (Typed cx) r) := by
  unfold declarationValue
  split
  · exact part_missing
  · rename_i e he
    exact part_of_settles (hd e he site cx r)

/-- What a declaration leaves : the variable has the type that comes with it. -/
structure Declared (excuse : Prop) (cx : Context) (name : String) (r : Registry)
    (o : Outcome (Option TypedStmt × TypeId)) : Prop where
  grows : r.Grows o.registry
  quiet : ∀ s, o.value.1 = some s → o.filed = [] ∧
    StmtTyped cx.settings o.registry cx.scopes s ∧
      s.after cx.scopes = cx.scopes.declare name o.value.2
  told : o.value.1 = none → o.filed ≠ [] ∨ excuse

theorem declaration_settles (loc : Location) {d : Declaration}
    (hd : ∀ e ∈ d.value, Resolves excuse e) :
    Always (declaration loc d) cx r (Declared excuse cx d.name r) := by
  refine always_bind ((declarationType_settles d).mono fun written hwritten => ?_)
  refine always_bind ((declarationValue_settles _ hd).mono fun value hvalue => ?_)
  have hgrows := hwritten.grows.trans hvalue.grows
  have declared (initializer : Option TypedExpr) (type : TypeId) (hw : written.value ≠ some none)
      (hv : value.value = initializer.map some) :
      Declared excuse cx d.name r ⟨(some (.declare loc d.name type initializer), type),
        written.filed ++ value.filed ++ [], value.registry⟩ := by
    obtain ⟨hfiled, -⟩ := hwritten.quiet hw
    obtain ⟨hfiled', htyped⟩ := hvalue.quiet (by cases initializer <;> simp [hv])
    refine ⟨hgrows, fun s hs => ?_, nofun⟩
    obtain rfl := Option.some.inj hs
    exact ⟨by simp [hfiled, hfiled'], fun e he => htyped e (by simp_all), rfl⟩
  refine always_pure ?_
  dsimp only
  split
  · rename_i hw
    refine ⟨hgrows, nofun, fun _ => .inl ?_⟩
    have hfiled : written.filed ≠ [] := by simpa using hwritten.told hw
    simp [hfiled]
  · rename_i hv _
    refine ⟨hgrows, nofun, fun _ => ?_⟩
    exact (hvalue.told hv).imp_left fun hfiled => by simp [hfiled]
  · rename_i e hv hw
    simpa using declared (some e) _ hw hv
  · rename_i hv hw
    simpa using declared none _ hw hv

/-! ## Statements -/

/-- What a step leaves that threads the scopes. -/
structure Threaded (excuse : Prop) (good : Registry → α → Scopes → Prop) (r : Registry)
    (o : Outcome (Option α × Scopes)) : Prop where
  grows : r.Grows o.registry
  quiet : ∀ a, o.value.1 = some a → o.filed = [] ∧ good o.registry a o.value.2
  told : o.value.1 = none → o.filed ≠ [] ∨ excuse

/-- The statement is well typed, and tells the scopes after it. -/
def StatementOf (settings : Settings) (scopes : Scopes) (r : Registry) (s : TypedStmt)
    (scopes' : Scopes) : Prop :=
  StmtTyped settings r scopes s ∧ scopes' = s.after scopes

/-- The statements are well typed, and tell the scopes after them. -/
def BodyOf (settings : Settings) (scopes : Scopes) (r : Registry) (body : List TypedStmt)
    (scopes' : Scopes) : Prop :=
  BodyTyped settings r scopes body ∧ scopes' = TypedStmt.afterAll scopes body

theorem threaded_expr {scopes : Scopes} {e : Expr} {f : TypedExpr → TypedStmt}
    (he : Resolves excuse e)
    (hf : ∀ r e, Typed ⟨cx.settings, scopes⟩ r e → StatementOf cx.settings scopes r (f e) scopes) :
    Always (do
      let typed ← under scopes (resolve .unknown e)
      return (typed.map f, scopes)) cx r
      (Threaded excuse (StatementOf cx.settings scopes) r) := by
  refine always_bind (always_under ((he .unknown _ r).mono fun o ho => always_pure ?_))
  refine ⟨ho.grows, fun s hs => ?_, fun hn => ?_⟩
  · obtain ⟨typed, htyped, rfl⟩ := Option.map_eq_some_iff.1 hs
    obtain ⟨hfiled, hgood⟩ := ho.quiet typed htyped
    exact ⟨by simp [hfiled], hf _ typed hgood⟩
  · simpa using ho.told (Option.map_eq_none_iff.1 hn)

/-- A statement with an expression settles as the expression does. -/
theorem resolves_in {s : Stmt} {e : Expr} (h : Node.expr e ∈ Node.ofStmt s) :
    Resolves (Node.stmt s).HasQuery e :=
  fun site cx r => (resolve_settles e site cx r).excused (.of_below (.child h))

mutual

/-- Resolving a statement settles, and a resolved statement tells the scopes after it. -/
theorem statement_threads :
    ∀ (s : Stmt) (scopes : Scopes) (cx : Context) (r : Registry),
      Always (statement scopes s) cx r
        (Threaded (Node.stmt s).HasQuery (StatementOf cx.settings scopes) r)
  | .declare loc d, scopes, cx, r => by
    rw [statement]
    have hd : ∀ e ∈ d.value, Resolves (Node.stmt (.declare loc d)).HasQuery e :=
      fun e he => resolves_in (by simp_all [Node.ofStmt])
    refine always_bind (always_under ((declaration_settles loc hd).mono fun o ho => always_pure ?_))
    refine ⟨ho.grows, fun s hs => ?_, fun hn => ?_⟩
    · obtain ⟨hfiled, htyped, hafter⟩ := ho.quiet s hs
      exact ⟨by simp [hfiled], htyped, hafter.symm⟩
    · simpa using ho.told hn
  | .expr loc e, scopes, cx, r => by
    rw [statement]
    exact threaded_expr (resolves_in (by simp [Node.ofStmt])) fun _ _ he => ⟨he, rfl⟩
  | .nonAssign loc e, scopes, cx, r => by
    rw [statement]
    exact threaded_expr (resolves_in (by simp [Node.ofStmt])) fun _ _ he => ⟨he, rfl⟩
  | .block loc body, scopes, cx, r => by
    rw [statement]
    refine always_bind ((statements_thread body scopes.push cx r).mono fun o ho => always_pure ?_)
    refine ⟨ho.grows, fun s hs => ?_, fun hn => ?_⟩
    · obtain ⟨typed, htyped, rfl⟩ := Option.map_eq_some_iff.1 hs
      obtain ⟨hfiled, hgood, hafter⟩ := ho.quiet typed htyped
      refine ⟨by simp [hfiled], hgood, ?_⟩
      exact hafter ▸ TypedStmt.pop_afterAll_push scopes typed
    · rw [List.append_nil]
      refine (ho.told (Option.map_eq_none_iff.1 hn)).imp_right fun ⟨s, hs, hq⟩ => ?_
      exact .child (by simp [Node.children, Node.ofStmt, hs]) hq
  | .localFunction .., scopes, cx, r | .useNamespace .., scopes, cx, r =>
    always_pure ⟨.refl r, fun _ hs => ⟨rfl, Option.some.inj hs ▸ ⟨trivial, rfl⟩⟩, nofun⟩

/-- Resolving statements settles, and resolved statements tell the scopes after them. -/
theorem statements_thread :
    ∀ (body : List Stmt) (scopes : Scopes) (cx : Context) (r : Registry),
      Always (statements scopes body) cx r
        (Threaded (∃ s ∈ body, (Node.stmt s).HasQuery) (BodyOf cx.settings scopes) r)
  | [], scopes, cx, r =>
    always_pure ⟨.refl r, fun _ hs => ⟨rfl, Option.some.inj hs ▸ ⟨trivial, rfl⟩⟩, nofun⟩
  | s :: rest, scopes, cx, r => by
    rw [statements]
    refine always_bind ((statement_threads s scopes cx r).mono fun o ho => ?_)
    refine always_bind ((statements_thread rest o.value.2 cx o.registry).mono fun o' ho' => ?_)
    have hgrows := ho.grows.trans ho'.grows
    refine always_pure ?_
    cases hv : o.value.1 with
    | none =>
      refine ⟨hgrows, nofun, fun _ => ?_⟩
      exact (ho.told hv).imp (fun h => by simp [h]) fun h => ⟨s, by simp, h⟩
    | some typed =>
      obtain ⟨hfiled, htyped, hafter⟩ := ho.quiet typed hv
      cases hv' : o'.value.1 with
      | none =>
        refine ⟨hgrows, nofun, fun _ => ?_⟩
        exact (ho'.told hv').imp (fun h => by simp [h]) fun ⟨s', hs', h⟩ => ⟨s', by simp [hs'], h⟩
      | some typedRest =>
        obtain ⟨hfiled', htyped', hafter'⟩ := ho'.quiet typedRest hv'
        refine ⟨hgrows, fun body hbody => ?_, nofun⟩
        obtain rfl := Option.some.inj hbody
        -- The rest was resolved in the scopes that `typed` tells; `typed` itself has only to
        -- survive the types that the rest added.
        rw [hafter] at htyped' hafter'
        exact ⟨by simp [hfiled, hfiled'], ⟨htyped.grow ho'.grows, htyped'⟩, hafter'⟩

end

/-! ## Results and reports -/

/-- A result comes with nothing filed, and a failure with something, unless it is excused. -/
def Reported (excuse : Prop) (value : Option α) (filed : Log) : Prop :=
  (value.isSome = true → filed = []) ∧ (value = none → ¬excuse → filed ≠ [])

theorem Settled.reported {good : Registry → α → Prop} {o : Outcome (Option α)}
    (h : Settled excuse good r o) : Reported excuse o.value o.filed := by
  refine ⟨fun hs => ?_, fun hn he => (h.told hn).resolve_right he⟩
  obtain ⟨a, ha⟩ := Option.isSome_iff_exists.1 hs
  exact (h.quiet a ha).1

theorem Threaded.reported {good : Registry → α → Scopes → Prop}
    {o : Outcome (Option α × Scopes)} (h : Threaded excuse good r o) :
    Reported excuse o.value.1 o.filed := by
  refine ⟨fun hs => ?_, fun hn he => (h.told hn).resolve_right he⟩
  obtain ⟨a, ha⟩ := Option.isSome_iff_exists.1 hs
  exact (h.quiet a ha).1

/-- Failure is reported and success is silent : for expressions, written types, statements
and units, in every context. Only an XML query may fail without a word. -/
theorem failure_reported (cx : Context) (r : Registry) :
    (∀ site e o, resolve site e cx r = .ok o → Reported (Node.expr e).HasQuery o.value o.filed) ∧
    (∀ type o, writtenType true type cx r = .ok o → Reported False o.value o.filed) ∧
    (∀ scopes s o, statement scopes s cx r = .ok o →
      Reported (Node.stmt s).HasQuery o.value.1 o.filed) ∧
    (∀ scopes body o, statements scopes body cx r = .ok o →
      Reported (∃ s ∈ body, (Node.stmt s).HasQuery) o.value.1 o.filed) := by
  refine ⟨fun site e o ho => ?_, fun type o ho => ?_, fun scopes s o ho => ?_,
    fun scopes body o ho => ?_⟩
  · exact (resolve_settles e site cx r o ho).reported
  · exact ((writtenType_settles true type cx r).excused nofun o ho).reported
  · exact (statement_threads s scopes cx r o ho).reported
  · exact (statements_thread body scopes cx r o ho).reported

/-- A unit that names nothing known fails, and says so. -/
theorem failure_reported_unknown :
    let body := [Stmt.nonAssign .origin (.name .origin "x")]
    ∃ o, statements .fresh body ⟨{}, .fresh⟩ (.bootstrap defaultRoot) = .ok o ∧
      o.value.1 = none ∧ o.filed ≠ [] := by
  obtain ⟨-, -, -, reported⟩ := failure_reported ⟨{}, .fresh⟩ (.bootstrap defaultRoot)
  have hquery : ¬∃ s ∈ [Stmt.nonAssign .origin (.name .origin "x")], (Node.stmt s).HasQuery := by
    rintro ⟨s, hs, hq⟩
    obtain rfl := List.mem_singleton.1 hs
    cases hq with
    | child hc hq =>
      obtain rfl := List.mem_singleton.1 hc
      cases hq with
      | child hc _ => cases hc
  exact ⟨_, rfl, rfl, (reported .fresh _ _ rfl).2 rfl hquery⟩

end Resolve

end Dynascript
