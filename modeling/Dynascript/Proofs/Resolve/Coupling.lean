import Dynascript.Proofs.Resolve.Steps
import Dynascript.Proofs.Typed.Renaming
import Dynascript.Proofs.Types.Answers

/-!
# Two runs side by side

`Coupled w rel x y cx cx'` says of two steps of resolution, run on the two registries of the
pairing `w` : both come to an end, they file the same, each complaint with a place, the registries
they leave are paired again, in a pairing `w₁` that only adds to `w`, and their values are related
by `rel w₁`. A dangling handle on either side is excluded. As for one run, there is one rule for
each way to make a step; a question (`Answers`) leaves the pairing as it is.

Related values are handles that go together (`Pairing.Handle`), trees and statements that are
equal up to the permutation of the pairing (`Pairing.Tree`, `Pairing.Stmt`), and scopes that give
the same names to types that go together (`Pairing.Scopes`). What is related stays so in a later
pairing.
-/

namespace Dynascript

/-- Every diagnostic has a place in the source. -/
def Log.Placed (log : Log) : Prop := ∀ d ∈ log, d.location.isSome = true

/-! ## Related values -/

namespace Pairing

variable {R R' : Registry} {w w₁ : Pairing R R'}

/-- Trees that are equal up to the permutation. -/
def Tree (w : Pairing R R') (e e' : TypedExpr) : Prop :=
  e.Within w.left ∧ e' = e.rename w.perm

/-- Lists of such trees. -/
def Trees (w : Pairing R R') (es es' : List TypedExpr) : Prop :=
  (∀ e ∈ es, e.Within w.left) ∧ es' = es.map (TypedExpr.rename w.perm)

/-- Properties with such values. -/
def Properties (w : Pairing R R') (ps ps' : List Property) : Prop :=
  (∀ p ∈ ps, p.value.Within w.left) ∧ ps' = ps.map (Property.rename w.perm)

/-- Statements that are equal up to the permutation. -/
def Stmt (w : Pairing R R') (s s' : TypedStmt) : Prop :=
  s.Within w.left ∧ s' = s.rename w.perm

/-- Lists of such statements. -/
def Body (w : Pairing R R') (body body' : List TypedStmt) : Prop :=
  TypedStmt.AllWithin w.left body ∧ body' = TypedStmt.renameAll w.perm body

/-- The same names for types that go together. -/
def Scopes (w : Pairing R R') (s s' : Dynascript.Scopes) : Prop :=
  List.Forall₂ (List.Forall₂ fun b b' => b'.1 = b.1 ∧ w.Handle b.2 b'.2)
    (s.inner :: s.outer) (s'.inner :: s'.outer)

/-- The same settings and scopes that go together. -/
structure View (w : Pairing R R') (cx cx' : Context) : Prop where
  settings : cx'.settings = cx.settings
  scopes : w.Scopes cx.scopes cx'.scopes

theorem Tree.grow (hw : w.Le w₁) {e e' : TypedExpr} (h : w.Tree e e') : w₁.Tree e e' := by
  obtain ⟨he, rfl⟩ := h
  exact ⟨he.grow hw.left, TypedExpr.rename_congr (he.mono fun _ hn t ht =>
    (hw.agrees t (hn t ht)).symm)⟩

theorem Trees.grow (hw : w.Le w₁) {es es' : List TypedExpr} (h : w.Trees es es') :
    w₁.Trees es es' := by
  obtain ⟨hes, rfl⟩ := h
  refine ⟨fun e he => (hes e he).grow hw.left, List.map_congr_left fun e he => ?_⟩
  exact (Tree.grow hw ⟨hes e he, rfl⟩).2

theorem Properties.grow (hw : w.Le w₁) {ps ps' : List Property} (h : w.Properties ps ps') :
    w₁.Properties ps ps' := by
  obtain ⟨hps, rfl⟩ := h
  refine ⟨fun p hp => (hps p hp).grow hw.left, List.map_congr_left fun p hp => ?_⟩
  rw [Property.rename, Property.rename, (Tree.grow hw ⟨hps p hp, rfl⟩).2]

theorem Tree.type {e e' : TypedExpr} (h : w.Tree e e') : w.Handle e.type e'.type := by
  obtain ⟨he, rfl⟩ := h
  exact ⟨he.type, e.type_rename w.perm⟩

theorem Tree.role {e e' : TypedExpr} (h : w.Tree e e') : e'.role = e.role := by
  obtain ⟨-, rfl⟩ := h
  exact e.role_rename w.perm

theorem Stmt.grow (hw : w.Le w₁) {s s' : TypedStmt} (h : w.Stmt s s') : w₁.Stmt s s' := by
  obtain ⟨hs, rfl⟩ := h
  exact ⟨hs.grow hw.left, TypedStmt.rename_congr (fun t ht => (hw.agrees t ht).symm) hs⟩

theorem trees_nil (w : Pairing R R') : w.Trees [] [] := ⟨nofun, rfl⟩

theorem Trees.cons {e e' : TypedExpr} {es es' : List TypedExpr} (he : w.Tree e e')
    (hes : w.Trees es es') : w.Trees (e :: es) (e' :: es') := by
  obtain ⟨he, rfl⟩ := he
  obtain ⟨hes, rfl⟩ := hes
  exact ⟨List.forall_mem_cons.2 ⟨he, hes⟩, rfl⟩

theorem properties_nil (w : Pairing R R') : w.Properties [] [] := ⟨nofun, rfl⟩

theorem Properties.cons {name : String} {e e' : TypedExpr} {ps ps' : List Property}
    (he : w.Tree e e') (hps : w.Properties ps ps') :
    w.Properties (.mk name e :: ps) (.mk name e' :: ps') := by
  obtain ⟨he, rfl⟩ := he
  obtain ⟨hps, rfl⟩ := hps
  exact ⟨List.forall_mem_cons.2 ⟨he, hps⟩, rfl⟩

/-! ### Scopes -/

variable {s s' : Dynascript.Scopes}

theorem Scopes.grow (hw : w.Le w₁) (h : w.Scopes s s') : w₁.Scopes s s' :=
  h.imp fun _ _ hscope => hscope.imp fun _ _ hb => ⟨hb.1, hb.2.grow hw⟩

theorem View.grow (hw : w.Le w₁) {cx cx' : Context} (h : w.View cx cx') : w₁.View cx cx' :=
  ⟨h.settings, h.scopes.grow hw⟩

theorem scopes_fresh (w : Pairing R R') : w.Scopes .fresh .fresh := .cons .nil .nil

theorem Scopes.push (h : w.Scopes s s') : w.Scopes s.push s'.push := .cons .nil h

theorem Scopes.pop (h : w.Scopes s s') : w.Scopes s.pop s'.pop := by
  obtain ⟨inner, outer⟩ := s
  obtain ⟨inner', outer'⟩ := s'
  cases h with
  | cons hinner houter =>
    cases houter with
    | nil => exact .cons hinner .nil
    | cons hnext hrest => exact .cons hnext hrest

theorem Scopes.declare {t t' : TypeId} (h : w.Scopes s s') (name : String) (ht : w.Handle t t') :
    w.Scopes (s.declare name t) (s'.declare name t') := by
  cases h with
  | cons hinner houter => exact .cons (.cons ⟨rfl, ht⟩ hinner) houter

theorem lookup_scope {scope scope' : Scope}
    (h : List.Forall₂ (fun b b' => b'.1 = b.1 ∧ w.Handle b.2 b'.2) scope scope') (name : String) :
    Option.Rel w.Handle (scope.lookup name) (scope'.lookup name) := by
  induction h with
  | nil => exact .none
  | @cons b b' _ _ hb _ ih =>
    rw [List.lookup_cons, List.lookup_cons, hb.1]
    cases name == b.1 with
    | true => exact .some hb.2
    | false => exact ih

theorem Scopes.lookup (h : w.Scopes s s') (name : String) :
    Option.Rel w.Handle (s.lookup name) (s'.lookup name) := by
  unfold Dynascript.Scopes.lookup
  unfold Scopes at h
  generalize s.inner :: s.outer = scopes at h ⊢
  generalize s'.inner :: s'.outer = scopes' at h ⊢
  induction h with
  | nil => exact .none
  | @cons scope scope' _ _ hscope _ ih =>
    rw [List.findSome?, List.findSome?]
    have hfound := lookup_scope hscope name
    generalize scope.lookup name = found at hfound ⊢
    generalize scope'.lookup name = found' at hfound ⊢
    cases hfound with
    | some ht => exact .some ht
    | none => exact ih

end Pairing

namespace Resolve

variable {α β γ δ : Type} {R R' : Registry} {w : Pairing R R'} {cx cx' : Context}

/-! ## Questions -/

/-- Two questions that leave everything as it is, with related answers. -/
def Answers (w : Pairing R R') (rel : α → β → Prop) (x : Resolve α) (y : Resolve β)
    (cx cx' : Context) : Prop :=
  ∃ a b, x cx w.left = .ok ⟨a, [], w.left⟩ ∧ y cx' w.right = .ok ⟨b, [], w.right⟩ ∧ rel a b

theorem answers_pure {rel : α → β → Prop} {a : α} {b : β} (h : rel a b) :
    Answers w rel (pure a) (pure b) cx cx' :=
  ⟨a, b, rfl, rfl, h⟩

theorem answers_ask {rel : α → β → Prop} {f : Registry → Except Dangling α}
    {g : Registry → Except Dangling β} (h : Alike rel (f w.left) (g w.right)) :
    Answers w rel (ask f) (ask g) cx cx' := by
  obtain ⟨a, b, ha, hb, hab⟩ := h
  exact ⟨a, b, by rw [ask, ha], by rw [ask, hb], hab⟩

theorem answers_see {rel : α → β → Prop} {f : Registry → α} {g : Registry → β}
    (h : rel (f w.left) (g w.right)) : Answers w rel (see f) (see g) cx cx' :=
  ⟨_, _, rfl, rfl, h⟩

theorem answers_localType (h : w.View cx cx') (name : String) :
    Answers w (Option.Rel w.Handle) (localType name) (localType name) cx cx' :=
  ⟨_, _, rfl, rfl, h.scopes.lookup name⟩

theorem answers_isScript (h : w.View cx cx') : Answers w Eq isScript isScript cx cx' :=
  ⟨_, _, rfl, rfl, by rw [h.settings]⟩

theorem answers_isExtended (h : w.View cx cx') : Answers w Eq isExtended isExtended cx cx' :=
  ⟨_, _, rfl, rfl, by rw [h.settings]⟩

theorem answers_root (h : w.View cx cx') :
    Answers w (fun c c' => c'.settings = c.settings) context context cx cx' :=
  ⟨_, _, rfl, rfl, h.settings⟩

theorem answers_typeName {t t' : TypeId} (h : w.Handle t t') :
    Answers w Eq (typeName t) (typeName t') cx cx' :=
  answers_ask (Pairing.nameOf h)

theorem Answers.bind {rel : α → β → Prop} {rel' : γ → δ → Prop} {x : Resolve α} {y : Resolve β}
    {f : α → Resolve γ} {g : β → Resolve δ} (h : Answers w rel x y cx cx')
    (hfg : ∀ a b, rel a b → Answers w rel' (f a) (g b) cx cx') :
    Answers w rel' (x >>= f) (y >>= g) cx cx' := by
  obtain ⟨a, b, hx, hy, hab⟩ := h
  obtain ⟨c, d, hf, hg, hcd⟩ := hfg a b hab
  exact ⟨c, d, by simp [bind_run, hx, hf], by simp [bind_run, hy, hg], hcd⟩

/-! ## Steps -/

/-- Both steps come to an end and file the same, and all that they leave is related. -/
def Coupled (w : Pairing R R') (rel : Pairing R R' → α → β → Prop) (x : Resolve α)
    (y : Resolve β) (cx cx' : Context) : Prop :=
  ∃ (w₁ : Pairing R R') (a : α) (b : β) (filed : Log), w.Le w₁ ∧ filed.Placed ∧
    x cx w.left = .ok ⟨a, filed, w₁.left⟩ ∧ y cx' w.right = .ok ⟨b, filed, w₁.right⟩ ∧ rel w₁ a b

/-- Both values are there and related, or neither is. -/
def Maybe (rel : Pairing R R' → α → β → Prop) (w : Pairing R R') : Option α → Option β → Prop :=
  Option.Rel (rel w)

variable {rel : Pairing R R' → α → β → Prop} {rel' : Pairing R R' → γ → δ → Prop}

theorem coupled_pure {a : α} {b : β} (h : rel w a b) : Coupled w rel (pure a) (pure b) cx cx' :=
  ⟨w, a, b, [], .refl w, nofun, rfl, rfl, h⟩

theorem coupled_some {a : α} {b : β} (h : rel w a b) :
    Coupled w (Maybe rel) (pure (some a)) (pure (some b)) cx cx' :=
  coupled_pure (.some h)

theorem coupled_none : Coupled w (Maybe rel) (pure none) (pure none) cx cx' :=
  coupled_pure .none

theorem Coupled.bind {x : Resolve α} {y : Resolve β} {f : α → Resolve γ} {g : β → Resolve δ}
    (h : Coupled w rel x y cx cx')
    (hfg : ∀ w₁ a b, w.Le w₁ → rel w₁ a b → Coupled w₁ rel' (f a) (g b) cx cx') :
    Coupled w rel' (x >>= f) (y >>= g) cx cx' := by
  obtain ⟨w₁, a, b, filed, hw, hfiled, hx, hy, hab⟩ := h
  obtain ⟨w₂, c, d, more, hw', hmore, hf, hg, hcd⟩ := hfg w₁ a b hw hab
  refine ⟨w₂, c, d, filed ++ more, hw.trans hw', List.forall_mem_append.2 ⟨hfiled, hmore⟩,
    ?_, ?_, hcd⟩
  · simp only [bind_run, hx, hf]
  · simp only [bind_run, hy, hg]

/-- A question before a step. -/
theorem Coupled.after {ask : α → β → Prop} {x : Resolve α} {y : Resolve β} {f : α → Resolve γ}
    {g : β → Resolve δ} (h : Answers w ask x y cx cx')
    (hfg : ∀ a b, ask a b → Coupled w rel' (f a) (g b) cx cx') :
    Coupled w rel' (x >>= f) (y >>= g) cx cx' := by
  obtain ⟨a, b, hx, hy, hab⟩ := h
  obtain ⟨w₁, c, d, filed, hw, hfiled, hf, hg, hcd⟩ := hfg a b hab
  refine ⟨w₁, c, d, filed, hw, hfiled, ?_, ?_, hcd⟩
  · simp only [bind_run, hx, hf, List.nil_append]
  · simp only [bind_run, hy, hg, List.nil_append]

/-- The same choice on both sides. -/
theorem Coupled.ite {c : Prop} [Decidable c] {x x' : Resolve α} {y y' : Resolve β}
    (h : c → Coupled w rel x y cx cx') (h' : ¬c → Coupled w rel x' y' cx cx') :
    Coupled w rel (if c then x else x') (if c then y else y') cx cx' := by
  by_cases hc : c
  · rw [if_pos hc, if_pos hc]
    exact h hc
  · rw [if_neg hc, if_neg hc]
    exact h' hc

/-- A question that is asked only under a condition, and else answered by no. -/
theorem Coupled.unless {c : Prop} [Decidable c] {f g : Registry → Except Dangling Bool}
    {k : Bool → Resolve γ} {k' : Bool → Resolve δ} (h : Alike Eq (f w.left) (g w.right))
    (hk : ∀ answer, Coupled w rel' (k answer) (k' answer) cx cx') :
    Coupled w rel' (if c then pure false >>= k else ask f >>= k)
      (if c then pure false >>= k' else ask g >>= k') cx cx' := by
  split
  · rw [pure_bind, pure_bind]
    exact hk false
  · refine .after (answers_ask h) fun answer _ heq => ?_
    subst heq
    exact hk answer

/-- Go on with values if they are there. -/
theorem Coupled.andThen {x : Resolve (Option α)} {y : Resolve (Option β)}
    {f : α → Resolve (Option γ)} {g : β → Resolve (Option δ)}
    (h : Coupled w (Maybe rel) x y cx cx')
    (hfg : ∀ w₁ a b, w.Le w₁ → rel w₁ a b → Coupled w₁ (Maybe rel') (f a) (g b) cx cx') :
    Coupled w (Maybe rel') (do Resolve.andThen (← x) f) (do Resolve.andThen (← y) g) cx cx' := by
  refine h.bind fun w₁ a b hw hab => ?_
  cases hab with
  | some hab => exact hfg w₁ _ _ hw hab
  | none => exact coupled_none

/-- Go on with two values if both are there. The first ones stay related in the meantime. -/
theorem Coupled.both {α' β' : Type} {other : Pairing R R' → α' → β' → Prop}
    {x : Resolve (Option α)} {y : Resolve (Option β)} {x' : Resolve (Option α')}
    {y' : Resolve (Option β')} {f : α → α' → Resolve (Option γ)}
    {g : β → β' → Resolve (Option δ)} (h : Coupled w (Maybe rel) x y cx cx')
    (h' : ∀ w₁, w.Le w₁ → Coupled w₁ (Maybe other) x' y' cx cx')
    (hgrow : ∀ w₁ w₂ a b, Pairing.Le w₁ w₂ → rel w₁ a b → rel w₂ a b)
    (hfg : ∀ w₁ a b a' b', w.Le w₁ → rel w₁ a b → other w₁ a' b' →
      Coupled w₁ (Maybe rel') (f a a') (g b b') cx cx') :
    Coupled w (Maybe rel') (do let a ← x; let a' ← x'; Resolve.both a a' f)
      (do let b ← y; let b' ← y'; Resolve.both b b' g) cx cx' := by
  refine h.bind fun w₁ a b hw hab => (h' w₁ hw).bind fun w₂ a' b' hw' hab' => ?_
  cases hab with
  | none => exact coupled_none
  | some hab =>
    cases hab' with
    | none => exact coupled_none
    | some hab' => exact hfg w₂ _ _ _ _ (hw.trans hw') (hgrow w₁ w₂ _ _ hw' hab) hab'

theorem coupled_complain (message : Message) (loc : Location) (args : List String) :
    Coupled w (fun _ => Eq) (complain message loc args) (complain message loc args) cx cx' :=
  ⟨w, (), (), _, .refl w, List.forall_mem_singleton.2 rfl, rfl, rfl, rfl⟩

theorem coupled_fail (message : Message) (loc : Location) (args : List String) :
    Coupled w (Maybe rel) (fail message loc args) (fail message loc args) cx cx' :=
  (coupled_complain message loc args).bind fun _ _ _ _ _ => coupled_none

theorem coupled_makeGeneric {definition definition' : TypeId} {args args' : List TypeId}
    (hd : w.Handle definition definition') (hargs : List.Forall₂ w.Handle args args') :
    Coupled w Pairing.Handle (makeGeneric definition args) (makeGeneric definition' args')
      cx cx' := by
  obtain ⟨w₁, id, id', hw, hl, hr, hid⟩ := Pairing.makeGeneric hd hargs
  exact ⟨w₁, id, id', [], hw, nofun, by rw [makeGeneric, hl], by rw [makeGeneric, hr], hid⟩

theorem coupled_makeArray {element element' : TypeId} (h : w.Handle element element')
    (rank : Nat) :
    Coupled w Pairing.Handle (makeArray element rank) (makeArray element' rank) cx cx' := by
  obtain ⟨w₁, id, id', hw, hl, hr, hid⟩ := Pairing.makeArray h rank
  exact ⟨w₁, id, id', [], hw, nofun, by rw [makeArray, hl], by rw [makeArray, hr], hid⟩

theorem Coupled.under {scopes scopes' : Dynascript.Scopes} {x : Resolve α} {y : Resolve β}
    (h : Coupled w rel x y { cx with scopes } { cx' with scopes := scopes' }) :
    Coupled w rel (Resolve.under scopes x) (Resolve.under scopes' y) cx cx' :=
  h

end Resolve

end Dynascript
