import Dynascript.Proofs.Resolve.Steps
import Dynascript.Proofs.Resolve.Typing

/-!
# How steps that may fail settle

A step that may fail settles (`Settles`) if it only adds types, and either gives a value
of the promised kind and files nothing, or gives none and files something. A step may be
excused from filing; only XML queries are. The rules follow the ways in which resolution
puts steps together : going on with one value or with two, after a question, or after a
check that complains for itself.
-/

namespace Dynascript.Resolve

variable {α β γ : Type} {cx : Context} {r : Registry} {excuse : Prop}

/-- What a step that may fail leaves, from `r` on. -/
structure Settled (excuse : Prop) (good : Registry → α → Prop) (r : Registry)
    (o : Outcome (Option α)) : Prop where
  grows : r.Grows o.registry
  quiet : ∀ a, o.value = some a → o.filed = [] ∧ good o.registry a
  told : o.value = none → o.filed ≠ [] ∨ excuse

/-- A step that may fail settles. -/
def Settles (excuse : Prop) (good : Registry → α → Prop) (x : Resolve (Option α)) (cx : Context)
    (r : Registry) : Prop :=
  Always x cx r (Settled excuse good r)

/-- Any value will do. -/
def anything (_ : Registry) (_ : α) : Prop := True

variable {good : Registry → α → Prop} {better : Registry → β → Prop}

theorem settles_some {a : α} (h : good r a) : Settles excuse good (pure (some a)) cx r :=
  always_pure ⟨.refl r, fun _ ha => ⟨rfl, Option.some.inj ha ▸ h⟩, nofun⟩

theorem settles_none (h : excuse) : Settles excuse good (pure none) cx r :=
  always_pure ⟨.refl r, nofun, fun _ => .inr h⟩

theorem settles_fail {message : Message} {loc : Location} {args : List String} :
    Settles excuse good (fail message loc args) cx r :=
  always_fail fun _ => ⟨.refl r, nofun, fun _ => .inl (List.cons_ne_nil _ _)⟩

theorem settles_failNoMember {loc : Location} {type : TypeId} {name : String} :
    Settles excuse good (failNoMember loc type name) cx r :=
  always_typeName settles_fail

theorem Settles.imp {excuse' : Prop} {good' : Registry → α → Prop} {x : Resolve (Option α)}
    (h : Settles excuse good x cx r) (he : excuse → excuse')
    (hg : ∀ r a, good r a → good' r a) : Settles excuse' good' x cx r :=
  h.mono fun _ ho => ⟨ho.grows, fun a ha => (ho.quiet a ha).imp_right (hg _ _),
    fun hn => (ho.told hn).imp_right he⟩

theorem Settles.excused {excuse' : Prop} {x : Resolve (Option α)}
    (h : Settles excuse good x cx r) (he : excuse → excuse') : Settles excuse' good x cx r :=
  h.imp he fun _ _ => id

/-- A step that starts later settles from the start, too. -/
theorem Settles.since {r' : Registry} {x : Resolve (Option α)} (h : r.Grows r')
    (hx : Settles excuse good x cx r') : Always x cx r' (Settled excuse good r) :=
  hx.mono fun _ ho => ⟨h.trans ho.grows, ho.quiet, ho.told⟩

/-- Go on with a value. -/
theorem Settles.andThen {x : Resolve (Option α)} {f : α → Resolve (Option β)}
    (hx : Settles excuse good x cx r)
    (hf : ∀ r' a, r.Grows r' → good r' a → Settles excuse better (f a) cx r') :
    Settles excuse better (do andThen (← x) f) cx r := by
  refine always_bind (hx.mono fun o ho => ?_)
  cases hv : o.value with
  | none =>
    refine always_pure ⟨ho.grows, nofun, fun _ => ?_⟩
    simpa using ho.told hv
  | some a =>
    obtain ⟨hfiled, hgood⟩ := ho.quiet a hv
    rw [hfiled]
    exact (hf _ a ho.grows hgood).since ho.grows

/-- Go on with two values; the second step runs even if the first failed. -/
theorem Settles.both {best : Registry → γ → Prop} {x : Resolve (Option α)}
    {y : Resolve (Option β)} {f : α → β → Resolve (Option γ)}
    (hx : Settles excuse good x cx r)
    (hy : ∀ r', r.Grows r' → Settles excuse better y cx r')
    (hgrow : ∀ r r' a, r.Grows r' → good r a → good r' a)
    (hf : ∀ r' a b, r.Grows r' → good r' a → better r' b → Settles excuse best (f a b) cx r') :
    Settles excuse best (do let a ← x; let b ← y; both a b f) cx r := by
  refine always_bind (hx.mono fun o ho => ?_)
  refine always_bind ((hy _ ho.grows).mono fun o' ho' => ?_)
  have hgrows := ho.grows.trans ho'.grows
  cases hv : o.value with
  | none =>
    refine always_pure ⟨hgrows, nofun, fun _ => ?_⟩
    exact (ho.told hv).imp_left fun h => by simp [h]
  | some a =>
    obtain ⟨hfiled, hgood⟩ := ho.quiet a hv
    cases hv' : o'.value with
    | none =>
      refine always_pure ⟨hgrows, nofun, fun _ => ?_⟩
      exact (ho'.told hv').imp_left fun h => by simp [h]
    | some b =>
      obtain ⟨hfiled', hbetter⟩ := ho'.quiet b hv'
      rw [hfiled, hfiled']
      exact (hf _ a b hgrows (hgrow _ _ a ho'.grows hgood) hbetter).since hgrows

/-! ## Steps that file nothing, and checks -/

/-- What a step leaves that files nothing. -/
def Silent (r : Registry) (o : Outcome α) : Prop := o.filed = [] ∧ r.Grows o.registry

theorem Settles.after {x : Resolve α} {f : α → Resolve (Option β)}
    (hx : Always x cx r (Silent r))
    (hf : ∀ r' a, r.Grows r' → Settles excuse better (f a) cx r') :
    Settles excuse better (x >>= f) cx r := by
  refine always_bind (hx.mono fun o ho => ?_)
  rw [ho.1]
  exact (hf _ o.value ho.2).since ho.2

/-- What a check leaves that complains if it fails. -/
structure Checked (ok : Prop) (r : Registry) (o : Outcome Bool) : Prop where
  registry : o.registry = r
  passed : o.value = true → o.filed = [] ∧ ok
  failed : o.value = false → o.filed ≠ []

theorem Settles.guarded {ok : Prop} {check : Resolve Bool} {x : Resolve (Option α)}
    (hc : Always check cx r (Checked ok r)) (hx : ok → Settles excuse good x cx r) :
    Settles excuse good (do if ← check then x else return none) cx r := by
  refine always_bind (hc.mono fun o ho => ?_)
  rw [ho.registry]
  cases hv : o.value with
  | false =>
    refine always_pure ⟨.refl r, nofun, fun _ => .inl ?_⟩
    simpa using ho.failed hv
  | true =>
    obtain ⟨hfiled, hok⟩ := ho.passed hv
    rw [hfiled]
    exact hx hok

end Dynascript.Resolve
