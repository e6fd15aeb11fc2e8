import Dynascript.Proofs.Resolve.CoupledParts
import Dynascript.Proofs.Syntax.Below
import Dynascript.Resolve.Stmt

/-!
# Expressions and statements side by side

`resolve_coupled` : an expression resolved on the two registries of a pairing gives trees that are
equal up to the permutation, or none on either side, and files the same. `statements_coupled` says
so of statements. There is a lemma for each form whose parts are resolved, and the theorem goes
by induction on the nodes below, as for one run.
-/

namespace Dynascript.Resolve

variable {R R' : Registry} {w : Pairing R R'} {cx cx' : Context}

/-! ## Expressions -/

/-- The expression resolves alike on the two registries of any pairing. -/
def Couples (R R' : Registry) (e : Expr) : Prop :=
  ∀ ⦃cx cx' : Context⦄ (site site' : Site) (w : Pairing R R'), w.View cx cx' →
    w.Site site site' →
      Coupled w (Maybe Pairing.Tree) (resolve site e) (resolve site' e) cx cx'

theorem Couples.unknown {e : Expr} (h : Couples R R' e) (hcx : w.View cx cx') :
    Coupled w (Maybe Pairing.Tree) (resolve .unknown e) (resolve .unknown e) cx cx' :=
  h .unknown .unknown w hcx w.site_unknown

/-- Go on with trees and other values. -/
theorem Coupled.withTree {α β γ δ : Type} {x y : Resolve (Option TypedExpr)}
    {x' : Resolve (Option α)} {y' : Resolve (Option β)} {f : TypedExpr → α → Resolve (Option γ)}
    {g : TypedExpr → β → Resolve (Option δ)} {other : Pairing R R' → α → β → Prop}
    {rel : Pairing R R' → γ → δ → Prop} (hcx : w.View cx cx')
    (h : Coupled w (Maybe Pairing.Tree) x y cx cx')
    (h' : ∀ w₁ : Pairing R R', w₁.View cx cx' → Coupled w₁ (Maybe other) x' y' cx cx')
    (hfg : ∀ w₁ e e' a b, w₁.View cx cx' → Pairing.Tree w₁ e e' → other w₁ a b →
      Coupled w₁ (Maybe rel) (f e a) (g e' b) cx cx') :
    Coupled w (Maybe rel) (do let e ← x; let a ← x'; Resolve.both e a f)
      (do let e ← y; let b ← y'; Resolve.both e b g) cx cx' :=
  .both h (fun w₁ hw => h' w₁ (hcx.grow hw)) (fun _ _ _ _ hw he => he.grow hw)
    fun w₁ e e' a b hw => hfg w₁ e e' a b (hcx.grow hw)

theorem resolveAll_coupled :
    ∀ {es : List Expr} {w : Pairing R R'}, (∀ e ∈ es, Couples R R' e) → w.View cx cx' →
      Coupled w (Maybe Pairing.Trees) (resolveAll es) (resolveAll es) cx cx'
  | [], w, _, _ => coupled_some w.trees_nil
  | e :: es, w, h, hcx => by
    rw [resolveAll]
    obtain ⟨he, hes⟩ := List.forall_mem_cons.1 h
    exact .withTree hcx (he.unknown hcx) (fun _ => resolveAll_coupled hes)
      fun _ _ _ _ _ _ he hes => coupled_some (.cons he hes)

theorem resolveFields_coupled :
    ∀ {fields : List Field} {w : Pairing R R'}, (∀ f ∈ fields, Couples R R' f.value) →
      w.View cx cx' →
        Coupled w (Maybe Pairing.Properties) (resolveFields fields) (resolveFields fields) cx cx'
  | [], w, _, _ => coupled_some w.properties_nil
  | .mk name loc value :: fields, w, h, hcx => by
    rw [resolveFields]
    obtain ⟨hvalue, hfields⟩ := List.forall_mem_cons.1 h
    exact .withTree hcx (hvalue.unknown hcx) (fun _ => resolveFields_coupled hfields)
      fun _ _ _ _ _ _ he hes => coupled_some (.cons he hes)

theorem member_coupled {loc : Location} {target : Expr} {name : String}
    (ht : Couples R R' target) : Couples R R' (.member loc target name) := by
  intro cx cx' site site' w hcx hsite
  rw [resolve, resolve]
  refine .after (pathType_answers hcx _) fun _ _ htype => ?_
  cases htype with
  | some h => exact coupled_some (typeRef_tree loc h)
  | none =>
    exact .andThen (ht.unknown hcx) fun _ _ _ _ htarget => memberOf_coupled loc name htarget

theorem element_coupled {loc : Location} {target : Expr} {args : List Expr}
    (ht : Couples R R' target) (hargs : ∀ e ∈ args, Couples R R' e) :
    Couples R R' (.element loc target args) := by
  intro cx cx' site site' w hcx hsite
  rw [resolve, resolve]
  exact .withTree hcx (ht.unknown hcx) (fun _ => resolveAll_coupled hargs)
    fun _ _ _ _ _ _ htarget hargs => elementOf_coupled loc htarget hargs

theorem call_coupled {loc : Location} {callee : Expr} {args : List Expr}
    (ih : ∀ c, Node.Below (.expr c) (.expr (.call loc callee args)) → Couples R R' c) :
    Couples R R' (.call loc callee args) := by
  intro cx cx' site site' w hcx hsite
  have hcallee : Couples R R' callee := ih _ (.child (by simp [Node.children, Node.ofExpr]))
  have hargs : ∀ e ∈ args, Couples R R' e := fun e he =>
    ih e (.child (by simp [Node.children, Node.ofExpr, he]))
  unfold resolve
  split
  · rename_i place target name
    have ht : Couples R R' target :=
      ih _ (.deeper (m := .expr (.member place target name)) (by simp [Node.children, Node.ofExpr])
        (.child (by simp [Node.children, Node.ofExpr])))
    refine .after (pathType_answers hcx _) fun _ _ htype => ?_
    cases htype with
    | none =>
      exact .withTree hcx (ht.unknown hcx) (fun _ => resolveAll_coupled hargs)
        fun _ _ _ _ _ _ hreceiver hargs => methodCall_coupled loc name hreceiver hargs
    | some _ => exact .andThen (resolveAll_coupled hargs hcx) fun _ _ _ _ _ => coupled_fail _ _ _
  · exact .withTree hcx (hcallee.unknown hcx) (fun _ => resolveAll_coupled hargs)
      fun _ _ _ _ _ _ hcallee hargs => invoke_coupled loc callee hcallee hargs

theorem assign_coupled {loc : Location} {target value : Expr} (ht : Couples R R' target)
    (hv : Couples R R' value) : Couples R R' (.assign loc target value) := by
  intro cx cx' site site' w hcx hsite
  rw [resolve, resolve]
  refine .andThen (ht.unknown hcx) fun w₁ place place' hw hplace => ?_
  rw [hplace.role]
  refine .ite (fun _ => ?_) fun _ => coupled_fail _ _ _
  refine .andThen (hv _ _ w₁ (hcx.grow hw) (Pairing.site_ofAssigned hplace.type))
    fun w₂ _ _ hw' hvalue => ?_
  obtain ⟨hwithin, rfl⟩ := hplace.grow hw'
  obtain ⟨hvalue, rfl⟩ := hvalue
  refine coupled_some ⟨.node hwithin.type nofun
    (by simpa [TypedExpr.children] using ⟨hwithin, hvalue⟩), ?_⟩
  rw [TypedExpr.rename, TypedExpr.type_rename, Info.rename, Info.value, Info.value]

theorem object_coupled {loc : Location} {fields : List Field}
    (hfields : ∀ f ∈ fields, Couples R R' f.value) : Couples R R' (.object loc fields) := by
  intro cx cx' site site' w hcx hsite
  rw [resolve, resolve]
  refine (objectType_coupled hcx hsite).bind fun w₁ _ _ hw htype => ?_
  refine .andThen (resolveFields_coupled hfields (hcx.grow hw)) fun w₂ _ _ hw' hproperties => ?_
  exact objectOf_coupled (hcx.grow (hw.trans hw')) loc fields (htype.grow hw') hproperties

/-- An array initializer, also behind `new`. -/
theorem initializer_coupled {elements : List Expr} {site site' : Site} (loc : Location)
    (vector : Option TypeName) (hcx : w.View cx cx') (hsite : w.Site site site')
    (helements : ∀ e ∈ elements, Couples R R' e) :
    Coupled w (Maybe Pairing.Tree)
      (do
        let type ← arrayType vector site
        andThen (← resolveAll elements) fun elements => arrayOf loc type elements)
      (do
        let type ← arrayType vector site'
        andThen (← resolveAll elements) fun elements => arrayOf loc type elements) cx cx' := by
  refine (arrayType_coupled hcx vector hsite).bind fun w₁ _ _ hw htype => ?_
  refine .andThen (resolveAll_coupled helements (hcx.grow hw)) fun w₂ _ _ hw' hvalues => ?_
  exact arrayOf_coupled (hcx.grow (hw.trans hw')) loc (htype.grow hw') hvalues

theorem delete_coupled {loc : Location} {operand : Expr}
    (ih : ∀ c, Node.Below (.expr c) (.expr (.delete loc operand)) → Couples R R' c) :
    Couples R R' (.delete loc operand) := by
  intro cx cx' site site' w hcx hsite
  have below_operand : Node.Below (.expr operand) (.expr (.delete loc operand)) :=
    .child (by simp [Node.children, Node.ofExpr])
  unfold resolve
  refine .after (answers_isScript hcx) fun script _ heq => ?_
  subst heq
  refine .ite (fun _ => ?_) fun _ => ?_
  · exact .andThen ((ih _ below_operand).unknown hcx) fun _ _ _ _ hoperand =>
      coupled_some (scriptDelete_tree loc hoperand)
  · split
    · rename_i place target key
      have ht := ih target (.deeper (by simp [Node.children, Node.ofExpr]) below_operand)
      have hkey := ih key (.deeper (by simp [Node.children, Node.ofExpr]) below_operand)
      exact .withTree hcx (ht.unknown hcx) (fun _ => hkey.unknown)
        fun _ _ _ _ _ _ htarget hkey => deleteOf_coupled loc true htarget hkey
    · exact coupled_fail _ _ _
    · rename_i place target name
      have ht := ih target (.deeper (by simp [Node.children, Node.ofExpr]) below_operand)
      exact .andThen (ht.unknown hcx) fun _ _ _ _ htarget =>
        deleteOf_coupled loc false htarget (stringConstant_tree place name)
    · exact coupled_fail _ _ _

/-- The operand of `new` for the script target, where it is a call. -/
theorem newInvoked_coupled (hcx : w.View cx cx') (place : Location) {callee : Expr}
    {args : List Expr} (hcallee : Couples R R' callee) (hargs : ∀ e ∈ args, Couples R R' e) :
    Coupled w (Maybe Pairing.Tree)
      (do
        let callee ← resolve .unknown callee
        let args ← resolveAll args
        both callee args fun callee args =>
          return some (.dynamicInvoke (.value .dynamic place) callee args))
      (do
        let callee ← resolve .unknown callee
        let args ← resolveAll args
        both callee args fun callee args =>
          return some (.dynamicInvoke (.value .dynamic place) callee args)) cx cx' :=
  .withTree hcx (hcallee.unknown hcx) (fun _ => resolveAll_coupled hargs)
    fun _ _ _ _ _ _ hcallee hargs => coupled_some (dynamicInvoke_tree place hcallee hargs)

/-- `new callee(args)` for the native target. -/
theorem newCall_coupled (hcx : w.View cx cx') (loc : Location) {callee : Expr} {args : List Expr}
    (hcallee : Couples R R' callee) (hargs : ∀ e ∈ args, Couples R R' e) :
    Coupled w (Maybe Pairing.Tree)
      (do
        match ← exprType callee with
        | some type => andThen (← resolveAll args) fun args => construct loc type args
        | none =>
          let resolved ← resolve .unknown callee
          let args ← resolveAll args
          both resolved args fun resolved args => newOf loc callee resolved args)
      (do
        match ← exprType callee with
        | some type => andThen (← resolveAll args) fun args => construct loc type args
        | none =>
          let resolved ← resolve .unknown callee
          let args ← resolveAll args
          both resolved args fun resolved args => newOf loc callee resolved args) cx cx' := by
  refine (exprType_coupled hcx callee).bind fun w₁ _ _ hw htype => ?_
  have hcx₁ := hcx.grow hw
  cases htype with
  | some h =>
    exact .andThen (resolveAll_coupled hargs hcx₁) fun _ _ _ hw' hargs =>
      construct_coupled loc (h.grow hw') hargs
  | none =>
    exact .withTree hcx₁ (hcallee.unknown hcx₁) (fun _ => resolveAll_coupled hargs)
      fun _ _ _ _ _ _ hcallee hargs => newOf_coupled loc callee hcallee hargs

theorem new_coupled {loc : Location} {operand : Expr}
    (ih : ∀ c, Node.Below (.expr c) (.expr (.new loc operand)) → Couples R R' c) :
    Couples R R' (.new loc operand) := by
  intro cx cx' site site' w hcx hsite
  have below_operand : Node.Below (.expr operand) (.expr (.new loc operand)) :=
    .child (by simp [Node.children, Node.ofExpr])
  have under {c : Expr} (h : Node.expr c ∈ (Node.expr operand).children) : Couples R R' c :=
    ih c (.deeper h below_operand)
  unfold resolve
  refine .after (answers_isScript hcx) fun script _ heq => ?_
  subst heq
  refine .ite (fun _ => ?_) fun _ => ?_
  · split
    · rename_i place callee args
      have hcallee : Couples R R' callee := under (by simp [Node.children, Node.ofExpr])
      have hargs : ∀ e ∈ args, Couples R R' e := fun e he =>
        under (by simp [Node.children, Node.ofExpr, he])
      have invoked := newInvoked_coupled hcx place hcallee hargs
      have wrapped := invoked.andThen fun _ _ _ _ he => coupled_some (scriptNew_tree loc he)
      simp only [bind_assoc] at wrapped
      exact wrapped
    · exact .andThen ((ih _ below_operand).unknown hcx) fun _ _ _ _ he =>
        coupled_some (scriptNew_tree loc he)
  · split
    · rename_i place elements vector
      exact initializer_coupled place vector hcx hsite fun e he =>
        under (by simp [Node.children, Node.ofExpr, he])
    · rename_i place callee args
      exact newCall_coupled hcx loc (under (by simp [Node.children, Node.ofExpr]))
        fun e he => under (by simp [Node.children, Node.ofExpr, he])
    · rename_i place target args
      have hargs : ∀ e ∈ args, Couples R R' e := fun e he =>
        under (by simp [Node.children, Node.ofExpr, he])
      refine (checkNewArray_coupled hcx loc target args).bind fun w₁ accepted _ hw heq => ?_
      subst heq
      refine .ite (fun _ => ?_) fun _ => coupled_none
      have hcx₁ := hcx.grow hw
      exact .both (newElementType_coupled hcx₁ target)
        (fun _ hw' => resolveAll_coupled hargs (hcx₁.grow hw'))
        (fun _ _ _ _ => Pairing.Handle.grow)
        fun _ _ _ _ _ _ helement hdimensions => newArray_coupled loc helement hdimensions
    · exact .andThen ((ih _ below_operand).unknown hcx) fun w₁ _ _ _ hoperand =>
        newOf_coupled loc operand hoperand w₁.trees_nil

theorem typeof_coupled {loc : Location} {operand : Expr} (ho : Couples R R' operand) :
    Couples R R' (.typeof loc operand) := by
  intro cx cx' site site' w hcx hsite
  rw [resolve, resolve]
  refine .after (answers_isExtended hcx) fun extended _ heq => ?_
  subst heq
  refine .ite (fun _ => coupled_fail _ _ _) fun _ => ?_
  exact .andThen (ho.unknown hcx) fun _ _ _ hw hoperand =>
    typeofOf_coupled (hcx.grow hw) loc hoperand

theorem isIn_coupled {loc : Location} {key container : Expr} (hk : Couples R R' key)
    (hc : Couples R R' container) : Couples R R' (.isIn loc key container) := by
  intro cx cx' site site' w hcx hsite
  rw [resolve, resolve]
  exact .withTree hcx (hk.unknown hcx) (fun _ => hc.unknown)
    fun _ _ _ _ _ hcx₁ hkey hcontainer => inOf_coupled hcx₁ loc hkey hcontainer

/-- One step of the induction. -/
theorem couples_of_below {e : Expr}
    (ih : ∀ c, Node.Below (.expr c) (.expr e) → Couples R R' c) : Couples R R' e := by
  have child {c : Expr} (h : Node.expr c ∈ Node.ofExpr e) : Couples R R' c := ih c (.child h)
  cases e with
  | literal loc value => exact fun _ _ _ _ _ _ _ => coupled_some (literal_tree loc value)
  | name loc name => exact fun _ _ _ _ _ hcx _ => ofName_coupled hcx loc name
  | member loc target name => exact member_coupled (child (by simp [Node.ofExpr]))
  | element loc target args =>
    exact element_coupled (child (by simp [Node.ofExpr]))
      fun e he => child (by simp [Node.ofExpr, he])
  | call loc callee args => exact call_coupled ih
  | assign loc target value =>
    exact assign_coupled (child (by simp [Node.ofExpr])) (child (by simp [Node.ofExpr]))
  | typeRef loc type => exact fun _ _ _ _ _ _ _ => ofTypeName_coupled type
  | object loc fields =>
    refine object_coupled fun f hf => ih _ (.deeper (m := .field f) ?_ (.child ?_))
    · simp [Node.children]
    · simp [Node.children, Node.ofExpr, hf]
  | array loc elements vector =>
    intro cx cx' site site' w hcx hsite
    rw [resolve, resolve]
    exact initializer_coupled loc vector hcx hsite fun e he => child (by simp [Node.ofExpr, he])
  | delete loc operand => exact delete_coupled ih
  | new loc operand => exact new_coupled ih
  | typeof loc operand => exact typeof_coupled (child (by simp [Node.ofExpr]))
  | isIn loc key container =>
    exact isIn_coupled (child (by simp [Node.ofExpr])) (child (by simp [Node.ofExpr]))
  | undefined loc =>
    exact fun _ _ _ _ _ hcx _ => (undefinedOf_coupled hcx loc).bind fun _ _ _ _ h => coupled_some h
  | regex loc value => exact fun _ _ _ _ _ hcx _ => regexOf_coupled hcx loc value
  | xml loc value => exact fun _ _ _ _ _ hcx _ => xmlOf_coupled hcx loc value
  | xmlQuery loc source query => exact fun _ _ _ _ _ _ _ => coupled_none

/-- An expression resolves alike whatever numbers the types have. -/
theorem resolve_coupled (e : Expr) : Couples R R' e := by
  have couples (n : Node) : ∀ e, n = .expr e → Couples R R' e := by
    induction n using Node.below_induction with
    | step n ih =>
      rintro e rfl
      exact couples_of_below fun c hc => ih _ hc c rfl
  exact couples _ e rfl

/-! ## Declarations -/

theorem declarationType_coupled (d : Declaration) :
    Coupled w (Maybe (Maybe Pairing.Handle)) (declarationType d) (declarationType d) cx cx' := by
  unfold declarationType
  split
  · exact coupled_none
  · exact (writtenType_coupled true _ w).bind fun _ _ _ _ h => coupled_some h

theorem declarationValue_coupled {site site' : Site} (hcx : w.View cx cx')
    (hsite : w.Site site site') (d : Declaration) :
    Coupled w (Maybe (Maybe Pairing.Tree)) (declarationValue site d) (declarationValue site' d)
      cx cx' := by
  unfold declarationValue
  split
  · exact coupled_none
  · exact (resolve_coupled _ site site' w hcx hsite).bind fun _ _ _ _ h => coupled_some h

theorem declaredType_declared {written written' : Option (Option TypeId)}
    (h : Maybe (Maybe Pairing.Handle) w written written') :
    w.Declared (declaredType written) (declaredType written') := by
  cases h with
  | none => exact .infer
  | some h =>
    cases h with
    | none => exact .infer
    | some h => exact .typed h

theorem Maybe.grow {α β : Type} {rel : Pairing R R' → α → β → Prop} {w₁ : Pairing R R'}
    {a : Option α} {b : Option β} (hrel : ∀ a b, rel w a b → rel w₁ a b) (h : Maybe rel w a b) :
    Maybe rel w₁ a b := by
  cases h with
  | none => exact .none
  | some h => exact .some (hrel _ _ h)

theorem variableType_handle {d d' : DeclaredType} {value value' : Option (Option TypedExpr)}
    (hd : w.Declared d d') (hvalue : Maybe (Maybe Pairing.Tree) w value value') :
    w.Handle (variableType d value) (variableType d' value') := by
  cases hd with
  | typed h => exact h
  | infer =>
    cases hvalue with
    | none => exact w.dynamic
    | some hvalue =>
      cases hvalue with
      | none => exact w.dynamic
      | some hvalue => exact hvalue.type

/-- A statement that may be missing and the type of its variable. -/
def Variables (w : Pairing R R') (p p' : Option TypedStmt × TypeId) : Prop :=
  Maybe Pairing.Stmt w p.1 p'.1 ∧ w.Handle p.2 p'.2

theorem declaration_coupled (hcx : w.View cx cx') (loc : Location) (d : Declaration) :
    Coupled w Variables (declaration loc d) (declaration loc d) cx cx' := by
  refine (declarationType_coupled d).bind fun w₁ written written' hw hwritten => ?_
  have hdeclared := declaredType_declared hwritten
  refine (declarationValue_coupled (hcx.grow hw) (Pairing.site_ofDeclared hdeclared) d).bind
    fun w₂ value value' hw' hvalue => ?_
  have hwritten₂ : Maybe (Maybe Pairing.Handle) w₂ written written' :=
    hwritten.grow fun _ _ h => h.grow fun _ _ ht => ht.grow hw'
  have htype := variableType_handle (declaredType_declared hwritten₂) hvalue
  have declared {e e' : Option TypedExpr} (h : Maybe Pairing.Tree w₂ e e') {t t' : TypeId}
      (ht : w₂.Handle t t') :
      Maybe Pairing.Stmt w₂ (some (.declare loc d.name t e))
        (some (.declare loc d.name t' e')) := by
    obtain ⟨ht, rfl⟩ := ht
    cases h with
    | none => exact .some ⟨⟨ht, nofun⟩, rfl⟩
    | some h =>
      obtain ⟨hwithin, rfl⟩ := h
      exact .some ⟨⟨ht, by simpa using hwithin⟩, rfl⟩
  refine coupled_pure ⟨?_, htype⟩
  cases hwritten₂ with
  | none =>
    cases hvalue with
    | none => exact declared .none htype
    | some hvalue =>
      cases hvalue with
      | none => exact .none
      | some hvalue => exact declared (.some hvalue) htype
  | some hwritten₂ =>
    cases hwritten₂ with
    | none => exact .none
    | some hwritten₂ =>
      cases hvalue with
      | none => exact declared .none htype
      | some hvalue =>
        cases hvalue with
        | none => exact .none
        | some hvalue => exact declared (.some hvalue) htype

/-! ## Statements -/

/-- A statement that may be missing and the scopes after it. -/
def AfterStmt (w : Pairing R R') (p p' : Option TypedStmt × Scopes) : Prop :=
  Maybe Pairing.Stmt w p.1 p'.1 ∧ w.Scopes p.2 p'.2

/-- Statements that may be missing and the scopes after them. -/
def AfterBody (w : Pairing R R') (p p' : Option (List TypedStmt) × Scopes) : Prop :=
  Maybe Pairing.Body w p.1 p'.1 ∧ w.Scopes p.2 p'.2

theorem tree_statement {scopes scopes' : Scopes} {e e' : Option TypedExpr}
    (make : TypedExpr → TypedStmt)
    (hmake : ∀ e, (make e).Within w.left = e.Within w.left ∧
      (make e).rename w.perm = make (e.rename w.perm))
    (h : Maybe Pairing.Tree w e e') (hs : w.Scopes scopes scopes') :
    AfterStmt w (e.map make, scopes) (e'.map make, scopes') := by
  refine ⟨?_, hs⟩
  cases h with
  | none => exact .none
  | some h =>
    obtain ⟨hwithin, rfl⟩ := h
    exact .some ⟨(hmake _).1 ▸ hwithin, (hmake _).2.symm⟩

mutual

theorem statement_coupled (hcx : cx'.settings = cx.settings) :
    ∀ (s : Stmt) {scopes scopes' : Scopes} {w : Pairing R R'}, w.Scopes scopes scopes' →
      Coupled w AfterStmt (statement scopes s) (statement scopes' s) cx cx'
  | .declare loc d, scopes, scopes', w, hs => by
    have hview : w.View { cx with scopes } { cx' with scopes := scopes' } := ⟨hcx, hs⟩
    rw [statement, statement]
    refine (Coupled.under (declaration_coupled hview loc d)).bind fun w₁ _ _ hw h => ?_
    exact coupled_pure ⟨h.1, (hs.grow hw).declare d.name h.2⟩
  | .expr loc e, scopes, scopes', w, hs => by
    have hview : w.View { cx with scopes } { cx' with scopes := scopes' } := ⟨hcx, hs⟩
    rw [statement, statement]
    refine (Coupled.under ((resolve_coupled e).unknown hview)).bind fun w₁ _ _ hw h => ?_
    exact coupled_pure (tree_statement (.expr loc)
      (fun e => ⟨by rw [TypedStmt.Within], by rw [TypedStmt.rename]⟩) h (hs.grow hw))
  | .nonAssign loc e, scopes, scopes', w, hs => by
    have hview : w.View { cx with scopes } { cx' with scopes := scopes' } := ⟨hcx, hs⟩
    rw [statement, statement]
    refine (Coupled.under ((resolve_coupled e).unknown hview)).bind fun w₁ _ _ hw h => ?_
    exact coupled_pure (tree_statement (.nonAssign loc)
      (fun e => ⟨by rw [TypedStmt.Within], by rw [TypedStmt.rename]⟩) h (hs.grow hw))
  | .block loc body, scopes, scopes', w, hs => by
    rw [statement, statement]
    refine (statements_coupled hcx body hs.push).bind fun w₁ p p' hw h => ?_
    refine coupled_pure ⟨?_, h.2.pop⟩
    obtain ⟨hbody, -⟩ := h
    generalize p.1 = typed at hbody ⊢
    generalize p'.1 = typed' at hbody ⊢
    cases hbody with
    | none => exact .none
    | some hbody =>
      obtain ⟨hwithin, rfl⟩ := hbody
      exact .some ⟨hwithin, by rw [TypedStmt.rename]⟩
  | .localFunction .., _, _, _, hs | .useNamespace .., _, _, _, hs => by
    rw [statement, statement]
    exact coupled_pure ⟨.some ⟨trivial, by rw [TypedStmt.rename]⟩, hs⟩

/-- Statements resolve alike whatever numbers the types have. -/
theorem statements_coupled (hcx : cx'.settings = cx.settings) :
    ∀ (body : List Stmt) {scopes scopes' : Scopes} {w : Pairing R R'}, w.Scopes scopes scopes' →
      Coupled w AfterBody (statements scopes body) (statements scopes' body) cx cx'
  | [], scopes, scopes', w, hs => by
    rw [statements, statements]
    exact coupled_pure ⟨.some ⟨trivial, rfl⟩, hs⟩
  | s :: rest, scopes, scopes', w, hs => by
    rw [statements, statements]
    refine (statement_coupled hcx s hs).bind fun w₁ p p' hw h => ?_
    refine (statements_coupled hcx rest h.2).bind fun w₂ q q' hw' h' => ?_
    refine coupled_pure ⟨?_, h'.2⟩
    have hfirst := h.1.grow fun _ _ hs => hs.grow hw'
    obtain ⟨hrest, -⟩ := h'
    generalize p.1 = typed at hfirst ⊢
    generalize p'.1 = typed' at hfirst ⊢
    generalize q.1 = others at hrest ⊢
    generalize q'.1 = others' at hrest ⊢
    cases hfirst with
    | none => exact .none
    | some hfirst =>
      cases hrest with
      | none => exact .none
      | some hrest =>
        obtain ⟨hwithin, rfl⟩ := hfirst
        obtain ⟨hothers, rfl⟩ := hrest
        exact .some ⟨⟨hwithin, hothers⟩, by rw [TypedStmt.renameAll]⟩

end

end Dynascript.Resolve
