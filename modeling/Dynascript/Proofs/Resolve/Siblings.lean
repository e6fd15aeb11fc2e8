import Dynascript.Proofs.Emit.Handles
import Dynascript.Proofs.Resolve.Filing
import Dynascript.Proofs.Resolve.TypeReading

/-!
# Parts that fail do not hide each other

An expression with several parts resolves all of them before it looks at any. So it files what
they file, one after the other, then at most one complaint of its own, and that only if they all
resolved (`parts_tell`). What a part files does not depend on the parts before it : they can only
make types, and the part comes to the same on the registry that they leave as alone
(`resolve_after`).

`Gathers` says of a step that it resolves a list of parts, starting anywhere after `R`; `Brief n`
counts what the last steps file. An object initializer is not brief, it complains of each field
that its type does not declare (`checkFields_told`).
-/

namespace Dynascript

namespace Resolve

variable {α β γ : Type} {cx : Context} {R : Registry} {loc : Location} {type : TypeId}
  {name : String} {target : TypedExpr} {args : List TypedExpr} {n : Nat}

/-! ## Parts that are resolved in turn -/

/-- What the expressions leave, each resolved alone on `R`. -/
def Alone (cx : Context) (R : Registry) (es : List Expr)
    (outs : List (Outcome (Option TypedExpr))) : Prop :=
  List.Forall₂ (fun e o => resolve .unknown e cx R = .ok o) es outs

/-- All that is filed, one outcome after the other. -/
def allFiled (outs : List (Outcome (Option TypedExpr))) : Log := outs.flatMap (·.filed)

/-- The step resolves the expressions, whatever was made of `R` before : it files what each files
alone, and gives a value if each does. -/
def Gathers (cx : Context) (R : Registry) (es : List Expr) (x : Resolve (Option α)) : Prop :=
  ∀ R', R.Makes R' → ∃ outs o, Alone cx R es outs ∧ x cx R' = .ok o ∧ R.Makes o.registry ∧
    o.filed = allFiled outs ∧ o.value.isSome = outs.all (·.value.isSome)

theorem Gathers.both {es es' : List Expr} {x : Resolve (Option α)} {y : Resolve (Option β)}
    (hx : Gathers cx R es x) (hy : Gathers cx R es' y) (f : α → β → γ) :
    Gathers cx R (es ++ es') (do
      let a ← x
      let b ← y
      Resolve.both a b fun a b => return some (f a b)) := by
  intro R' hmakes
  obtain ⟨outs, o, halone, ho, hmakes, hfiled, hsome⟩ := hx R' hmakes
  obtain ⟨outs', o', halone', ho', hmakes', hfiled', hsome'⟩ := hy o.registry hmakes
  have hlast : ∃ value, Resolve.both o.value o'.value (fun a b => pure (some (f a b))) cx
      o'.registry = .ok ⟨value, [], o'.registry⟩ ∧
        value.isSome = (o.value.isSome && o'.value.isSome) := by
    cases o.value <;> cases o'.value <;> exact ⟨_, rfl, rfl⟩
  obtain ⟨value, hlast, hvalue⟩ := hlast
  refine ⟨outs ++ outs', ⟨value, o.filed ++ (o'.filed ++ []), o'.registry⟩,
    List.rel_append halone halone', ?_, hmakes', ?_, ?_⟩
  · simp only [bind_run, ho, ho', hlast]
  · simp [allFiled, hfiled, hfiled']
  · simp [hvalue, hsome, hsome']

/-- What is left after parts and a last step : the step files nothing if a part failed, and else
something with the property `few`. -/
def Told (cx : Context) (R : Registry) (es : List Expr) (few : Log → Prop)
    (o : Outcome (Option TypedExpr)) : Prop :=
  ∃ outs own, Alone cx R es outs ∧ o.filed = allFiled outs ++ own ∧ few own ∧
    ((∃ out ∈ outs, out.value = none) → own = [] ∧ o.value = none)

variable {es : List Expr} {few : Log → Prop}

theorem Gathers.told {R' : Registry} {x : Resolve (Option α)} {f : α → Resolve (Option TypedExpr)}
    (hx : Gathers cx R es x) (hmakes : R.Makes R') (hnone : few [])
    (hf : ∀ a r, Always (f a) cx r fun o => few o.filed) :
    Always (do andThen (← x) f) cx R' (Told cx R es few) := by
  obtain ⟨outs, o, halone, ho, -, hfiled, hsome⟩ := hx R' hmakes
  refine always_bind fun o' ho' => ?_
  cases ho.symm.trans ho'
  rw [hfiled]
  cases hv : o.value with
  | none => exact always_pure ⟨outs, [], halone, rfl, hnone, fun _ => ⟨rfl, rfl⟩⟩
  | some a =>
    refine (hf a o.registry).mono fun o' ho' => ⟨outs, o'.filed, halone, rfl, ho', ?_⟩
    rintro ⟨out, hout, hfailed⟩
    rw [hv] at hsome
    simpa [hfailed] using List.all_eq_true.1 hsome.symm out hout

/-- The step files at most `n` diagnostics. -/
def Brief (n : Nat) (x : Resolve α) : Prop := ∀ cx r, Always x cx r fun o => o.filed.length ≤ n

theorem brief_pure {a : α} : Brief n (pure a : Resolve α) :=
  fun _ _ => always_pure (Nat.zero_le n)

theorem brief_ask {f : Registry → Except Dangling α} : Brief n (ask f) := by
  intro cx r o ho
  unfold ask at ho
  split at ho <;> cases ho
  exact Nat.zero_le n

/-- A step that says nothing before one that may. -/
theorem Brief.after {x : Resolve α} {f : α → Resolve β} (hx : Brief 0 x)
    (hf : ∀ a, Brief n (f a)) : Brief n (x >>= f) := by
  intro cx r
  refine always_bind ((hx cx r).mono fun o ho => (hf o.value cx o.registry).mono fun o' ho' => ?_)
  rw [List.length_append]
  omega

/-- A step that says nothing after one that may. -/
theorem Brief.before {x : Resolve α} {f : α → Resolve β} (hx : Brief n x)
    (hf : ∀ a, Brief 0 (f a)) : Brief n (x >>= f) := by
  intro cx r
  refine always_bind ((hx cx r).mono fun o ho => (hf o.value cx o.registry).mono fun o' ho' => ?_)
  rw [List.length_append]
  omega

theorem Brief.ite {c : Prop} [Decidable c] {x y : Resolve α} (hx : Brief n x) (hy : Brief n y) :
    Brief n (if c then x else y) := by
  split
  · exact hx
  · exact hy

/-- One of two questions before a step. -/
theorem Brief.asking {c : Prop} [Decidable c] {a : α} {g : Registry → Except Dangling α}
    {f : α → Resolve β} (hf : ∀ a, Brief n (f a)) :
    Brief n (if c then pure a >>= f else ask g >>= f) :=
  (brief_pure.after hf).ite (brief_ask.after hf)

theorem Brief.andThen {x : Resolve (Option α)} {f : α → Option β} (hx : Brief n x) :
    Brief n (do andThen (← x) fun a => return f a) := by
  refine hx.before fun a => ?_
  cases a <;> exact brief_pure

end Resolve

end Dynascript
