import Dynascript.Proofs.Types.Growth
import Dynascript.Resolve.Basic

/-!
# Reasoning about resolution steps

`Always x cx r post` says that whatever the step `x` leaves, run under `cx` on the
registry `r`, satisfies `post`. A dangling handle leaves nothing. There is one rule for
each way to make a step; the rules for questions go together with the step that uses the
answer, since a question files nothing and leaves the registry alone.
-/

namespace Dynascript.Resolve

variable {α β γ : Type} {cx : Context} {r : Registry}

theorem bind_run (x : Resolve α) (f : α → Resolve β) (cx : Context) (r : Registry) :
    (x >>= f) cx r = match x cx r with
      | .error e => .error e
      | .ok a => match f a.value cx a.registry with
        | .error e => .error e
        | .ok b => .ok ⟨b.value, a.filed ++ b.filed, b.registry⟩ :=
  rfl

/-- After a step that files nothing, the next one says all. -/
theorem bind_of_quiet {x : Resolve α} {f : α → Resolve β} {a : α} {r' : Registry}
    (hx : x cx r = .ok ⟨a, [], r'⟩) : (x >>= f) cx r = f a cx r' := by
  rw [bind_run, hx]
  cases hf : f a cx r' <;> simp [hf]

instance : LawfulMonad Resolve := by
  refine LawfulMonad.mk' Resolve (fun x => ?_) (fun a f => ?_) (fun x f g => ?_)
  · funext cx r
    change (x >>= fun a => pure a) cx r = x cx r
    rw [bind_run]
    cases x cx r with
    | error e => rfl
    | ok a => simp [pure, Resolve.pure]
  · funext cx r
    rw [bind_run]
    cases hf : f a cx r <;> simp [pure, Resolve.pure, hf]
  · funext cx r
    simp only [bind_run]
    cases hx : x cx r with
    | error e => rfl
    | ok a =>
      cases hf : f a.value cx a.registry with
      | error e => simp [hf]
      | ok b => cases hg : g b.value cx b.registry <;> simp [hf, hg]

/-- Every outcome of `x` satisfies `post`. -/
def Always (x : Resolve α) (cx : Context) (r : Registry) (post : Outcome α → Prop) : Prop :=
  ∀ o, x cx r = .ok o → post o

theorem Always.mono {x : Resolve α} {post post' : Outcome α → Prop} (h : Always x cx r post)
    (himp : ∀ o, post o → post' o) : Always x cx r post' :=
  fun o ho => himp o (h o ho)

theorem always_pure {a : α} {post : Outcome α → Prop} (h : post ⟨a, [], r⟩) :
    Always (pure a) cx r post := by
  intro o ho
  cases ho
  exact h

/-- The second step starts at the registry of the first, and its log comes after. -/
theorem always_bind {x : Resolve α} {f : α → Resolve β} {post : Outcome β → Prop}
    (h : Always x cx r fun a => Always (f a.value) cx a.registry fun b =>
      post ⟨b.value, a.filed ++ b.filed, b.registry⟩) : Always (x >>= f) cx r post := by
  intro o ho
  rw [bind_run] at ho
  cases hx : x cx r with
  | error e => simp [hx] at ho
  | ok a =>
    cases hf : f a.value cx a.registry with
    | error e => simp [hx, hf] at ho
    | ok b =>
      simp only [hx, hf, Except.ok.injEq] at ho
      subst ho
      exact h a hx b hf

/-! ## Questions -/

variable {k : α → Resolve β} {post : Outcome β → Prop}

theorem always_pure_bind {a : α} (h : Always (k a) cx r post) :
    Always (pure a >>= k) cx r post := by
  rwa [pure_bind]

theorem always_ask {f : Registry → Except Dangling α}
    (h : ∀ a, f r = .ok a → Always (k a) cx r post) : Always (ask f >>= k) cx r post := by
  refine always_bind fun o ho => ?_
  unfold ask at ho
  cases hf : f r with
  | error e => simp [hf] at ho
  | ok a =>
    simp only [hf, Except.ok.injEq] at ho
    subst ho
    exact h a hf

theorem always_see {f : Registry → α} (h : Always (k (f r)) cx r post) :
    Always (see f >>= k) cx r post := by
  refine always_bind fun o ho => ?_
  cases ho
  exact h

theorem always_localType {name : String} {k : Option TypeId → Resolve β}
    (h : Always (k (cx.scopes.lookup name)) cx r post) :
    Always (localType name >>= k) cx r post := by
  refine always_bind fun o ho => ?_
  cases ho
  exact h

theorem always_context {k : Context → Resolve β} (h : Always (k cx) cx r post) :
    Always (context >>= k) cx r post := by
  refine always_bind fun o ho => ?_
  cases ho
  exact h

theorem always_isScript {k : Bool → Resolve β} (h : Always (k cx.settings.isScript) cx r post) :
    Always (isScript >>= k) cx r post := by
  refine always_bind fun o ho => ?_
  cases ho
  exact h

theorem always_isExtended {k : Bool → Resolve β}
    (h : Always (k cx.settings.isExtended) cx r post) : Always (isExtended >>= k) cx r post := by
  refine always_bind fun o ho => ?_
  cases ho
  exact h

theorem always_typeName {type : TypeId} {k : String → Resolve β}
    (h : Always (k (r.typeName type)) cx r post) : Always (typeName type >>= k) cx r post := by
  refine always_ask fun name hname => ?_
  rwa [← Registry.typeName_of_nameOf hname]

/-- What a question leaves : an answer that satisfies `p`, and all else as it was. -/
structure Answered (p : α → Prop) (r : Registry) (o : Outcome α) : Prop where
  filed : o.filed = []
  registry : o.registry = r
  value : p o.value

theorem answered_pure {p : α → Prop} {a : α} (h : p a) : Always (pure a) cx r (Answered p r) :=
  always_pure ⟨rfl, rfl, h⟩

theorem always_answer {p : α → Prop} {x : Resolve α} (hx : Always x cx r (Answered p r))
    (h : ∀ a, p a → Always (k a) cx r post) : Always (x >>= k) cx r post := by
  refine always_bind (hx.mono fun o ho => ?_)
  rw [ho.filed, ho.registry]
  exact h o.value ho.value

/-! ## Types and complaints -/

theorem always_makeGeneric {definition : TypeId} {args : List TypeId} {k : TypeId → Resolve β}
    (h : ∀ id r', r.makeGeneric definition args = .ok (id, r') → Always (k id) cx r' post) :
    Always (makeGeneric definition args >>= k) cx r post := by
  refine always_bind fun o ho => ?_
  unfold makeGeneric at ho
  cases hm : r.makeGeneric definition args with
  | error e => simp [hm] at ho
  | ok made =>
    simp only [hm, Except.ok.injEq] at ho
    subst ho
    exact h made.1 made.2 hm

theorem always_makeArray {element : TypeId} {rank : Nat} {k : TypeId → Resolve β}
    (h : Always (k (r.makeArray element rank).1) cx (r.makeArray element rank).2 post) :
    Always (makeArray element rank >>= k) cx r post := by
  refine always_bind fun o ho => ?_
  cases ho
  exact h

theorem always_fail {message : Message} {loc : Location} {args : List String}
    {post : Outcome (Option α) → Prop}
    (h : ∀ d, post ⟨none, [d], r⟩) : Always (fail message loc args) cx r post := by
  intro o ho
  cases ho
  exact h _

theorem always_andThen {a : Option α} {f : α → Resolve (Option β)}
    {post : Outcome (Option β) → Prop} (h : ∀ x, a = some x → Always (f x) cx r post)
    (hnone : post ⟨none, [], r⟩) : Always (andThen a f) cx r post := by
  cases a with
  | none => exact always_pure hnone
  | some x => exact h x rfl

theorem always_both {a : Option α} {b : Option β} {f : α → β → Resolve (Option γ)}
    {post : Outcome (Option γ) → Prop}
    (h : ∀ x y, a = some x → b = some y → Always (f x y) cx r post)
    (hnone : post ⟨none, [], r⟩) : Always (both a b f) cx r post := by
  cases a with
  | none => exact always_pure hnone
  | some x =>
    cases b with
    | none => exact always_pure hnone
    | some y => exact h x y rfl rfl

theorem always_under {scopes : Scopes} {x : Resolve β} (h : Always x { cx with scopes } r post) :
    Always (under scopes x) cx r post :=
  h

end Dynascript.Resolve
