import Dynascript.Proofs.Resolve.Scopes
import Dynascript.Proofs.Resolve.Simulation
import Dynascript.Proofs.Script.Renaming

/-!
# Resolution and the types that others made

Other units leave more instances and arrays in the registry, and so do earlier runs of the same
unit. Resolving statements on the registry `R` and on an `R'` made from it always comes to an
end, with results that are equal up to a renaming of types (`Renumbered`,
`statements_renumbered`).

Where `R'` already has the types that the unit makes on `R`, nothing is renamed and nothing is
made : the second run repeats the first (`statements_repeated`).
-/

namespace Dynascript

/-! ## Pairings with nothing left to make -/

namespace Pairing

variable {R R' : Registry} {w : Pairing R R'}

/-- If the left types are on the right side too, each goes together with itself : its parents do,
and beyond the first types there is one entry of a kind. -/
theorem perm_eq_self (h : w.left.Grows w.right) :
    ∀ (n : Nat) {t : TypeId}, t.index < n → w.left.Has t → w.perm t = t
  | 0, _, hn, _ => absurd hn (Nat.not_lt_zero _)
  | n + 1, t, hn, ht => by
    by_cases hR : R.Has t
    · exact w.fixes t hR
    obtain ⟨e, he, he'⟩ := w.get ht
    have hparents : ∀ p ∈ e.kind.parents, w.perm p = p := fun p hp =>
      perm_eq_self h n (Nat.lt_of_lt_of_le (w.leftValid.parents t e he p hp) (Nat.le_of_lt_succ hn))
        (w.leftValid.has_parent he hp)
    have hsignature : e.kind.signature = [] := (w.leftMakes.standard hR he).signature
    have hkind : (e.rename w.perm).kind = e.kind :=
      TypeKind.rename_eq_self hparents (by simp [hsignature])
    exact w.rightMakesFrom.unique (not_has_perm hR) hR ⟨_, he', hkind⟩
      ⟨e, TypeTable.get_mono h.table he, rfl⟩

theorem perm_eq_self_of_has (h : w.left.Grows w.right) {t : TypeId} (ht : w.left.Has t) :
    w.perm t = t :=
  perm_eq_self h _ (Nat.lt_succ_self _) ht

/-- If `R'` has all that the left side made, the right side made nothing. -/
theorem right_eq (h : w.left.Grows R') : w.right = R' := by
  have hgrows := w.rightMakes.grows
  refine hgrows.eq_of_size ?_
  by_contra hlt
  have hnew : w.right.Has R'.table.next := Nat.lt_of_not_le hlt
  rcases w.covers _ hnew with hold | ⟨s, hs, hst⟩
  · exact Nat.lt_irrefl _ hold
  · rw [perm_eq_self_of_has (h.trans hgrows) hs] at hst
    exact Nat.lt_irrefl _ (hst ▸ hs.grow h : R'.Has R'.table.next)

theorem Scopes.eq (h : w.left.Grows w.right) {s s' : Dynascript.Scopes} (hs : w.Scopes s s') :
    s' = s := by
  have hscopes : s.inner :: s.outer = s'.inner :: s'.outer := by
    refine List.forall₂_eq_eq_eq ▸ hs.imp fun scope scope' hscope => ?_
    refine List.forall₂_eq_eq_eq ▸ hscope.imp fun b b' hb => ?_
    exact Prod.ext hb.1.symm (hb.2.2.trans (perm_eq_self_of_has h hb.2.1)).symm
  obtain ⟨inner, outer⟩ := s
  obtain ⟨inner', outer'⟩ := s'
  cases hscopes
  rfl

end Pairing

namespace Resolve

variable {R R' : Registry}

/-- What a run of statements leaves. -/
abbrev Resolved := Outcome (Option (List TypedStmt) × Scopes)

/-- `o'` is `o` with types renamed by `σ`, which leaves alone the types of `R` and keeps the names
of all types. -/
structure Renumbered (R : Registry) (σ : Equiv.Perm TypeId) (o o' : Resolved) : Prop where
  filed : o'.filed = o.filed
  body : o'.value.1 = o.value.1.map (TypedStmt.renameAll σ)
  within : ∀ typed ∈ o.value.1, TypedStmt.AllWithin o.registry typed
  fixes : ∀ t, R.Has t → σ t = t
  has : ∀ t, o.registry.Has t → o'.registry.Has (σ t)
  names : ∀ t, o.registry.Has t → o'.registry.typeName (σ t) = o.registry.typeName t

theorem statements_paired (hR : R.Valid) (hmakes : R.Makes R') (settings : Settings)
    (body : List Stmt) :
    ∃ (w : Pairing R R') (o o' : Resolved),
      statements .fresh body ⟨settings, .fresh⟩ R = .ok o ∧
      statements .fresh body ⟨settings, .fresh⟩ R' = .ok o' ∧ o.registry = w.left ∧
      o'.registry = w.right ∧ o'.filed = o.filed ∧ o.filed.Placed ∧
      AfterBody w o.value o'.value := by
  have hcoupled : Coupled (Pairing.start hR hmakes) AfterBody (statements .fresh body)
      (statements .fresh body) ⟨settings, .fresh⟩ ⟨settings, .fresh⟩ :=
    statements_coupled rfl body (Pairing.scopes_fresh _)
  obtain ⟨w, a, b, filed, -, hplaced, hleft, hright, hab⟩ := hcoupled
  exact ⟨w, _, _, hleft, hright, rfl, rfl, rfl, hplaced, hab⟩

theorem renumbered_of_paired {w : Pairing R R'} {o o' : Resolved} (hleft : o.registry = w.left)
    (hright : o'.registry = w.right) (hfiled : o'.filed = o.filed)
    (hvalue : AfterBody w o.value o'.value) : Renumbered R w.perm o o' := by
  obtain ⟨⟨body, scopes⟩, filed, registry⟩ := o
  obtain ⟨⟨body', scopes'⟩, filed', registry'⟩ := o'
  obtain ⟨hbody, -⟩ := hvalue
  simp only at hleft hright hfiled hbody
  subst hleft hright hfiled
  refine ⟨rfl, ?_, ?_, w.fixes, fun t ht => w.has ht, fun t ht => Pairing.typeName ⟨ht, rfl⟩⟩
  · cases hbody with
    | none => rfl
    | some h => exact congrArg some h.2
  · cases hbody with
    | none => exact nofun
    | some h => simpa using h.1

/-- Statements come to the same, up to a renaming of types, whatever was made of `R` before. -/
theorem statements_renumbered (hR : R.Valid) (hmakes : R.Makes R') (settings : Settings)
    (body : List Stmt) :
    ∃ o o' σ, statements .fresh body ⟨settings, .fresh⟩ R = .ok o ∧
      statements .fresh body ⟨settings, .fresh⟩ R' = .ok o' ∧ Renumbered R σ o o' := by
  obtain ⟨w, o, o', ho, ho', hleft, hright, hfiled, -, hvalue⟩ :=
    statements_paired hR hmakes settings body
  exact ⟨o, o', w.perm, ho, ho', renumbered_of_paired hleft hright hfiled hvalue⟩

/-- Statements come to an end, and all they do to the registry is to make instances and
arrays. -/
theorem statements_makes (hR : R.Valid) (settings : Settings) (body : List Stmt) :
    ∃ o, statements .fresh body ⟨settings, .fresh⟩ R = .ok o ∧ R.Makes o.registry ∧
      o.filed.Placed := by
  obtain ⟨w, o, -, ho, -, hleft, -, -, hplaced, -⟩ := statements_paired hR .refl settings body
  exact ⟨o, ho, hleft ▸ w.leftMakes, hplaced⟩

theorem statements_valid (hR : R.Valid) {settings : Settings} {body : List Stmt} {o : Resolved}
    (ho : statements .fresh body ⟨settings, .fresh⟩ R = .ok o) : o.registry.Valid := by
  obtain ⟨o', ho', hmakes, -⟩ := statements_makes hR settings body
  cases ho'.symm.trans ho
  exact hmakes.valid hR

/-- A run on a registry that has the types of an earlier one repeats it and makes nothing. -/
theorem statements_repeated (hR : R.Valid) (hmakes : R.Makes R') {settings : Settings}
    {body : List Stmt} {o : Resolved} (ho : statements .fresh body ⟨settings, .fresh⟩ R = .ok o)
    (hgrows : o.registry.Grows R') :
    statements .fresh body ⟨settings, .fresh⟩ R' = .ok ⟨o.value, o.filed, R'⟩ := by
  obtain ⟨w, o₁, o', ho₁, ho', hleft, hright, hfiled, -, hvalue⟩ :=
    statements_paired hR hmakes settings body
  cases ho₁.symm.trans ho
  rw [hleft] at hgrows
  have hall : w.left.Grows w.right := hgrows.trans w.rightMakes.grows
  have hsame := renumbered_of_paired hleft hright hfiled hvalue
  have hbody : o'.value.1 = o.value.1 := by
    rw [hsame.body]
    cases hv : o.value.1 with
    | none => rfl
    | some typed =>
      have hwithin : TypedStmt.AllWithin w.left typed := hleft ▸ hsame.within typed hv
      have hrename : TypedStmt.renameAll w.perm typed = TypedStmt.renameAll id typed :=
        TypedStmt.renameAll_congr (fun t ht => Pairing.perm_eq_self_of_has hall ht) hwithin
      rw [Option.map_some, hrename, TypedStmt.renameAll_id]
  have hscopes : o'.value.2 = o.value.2 := Pairing.Scopes.eq hall hvalue.2
  rw [ho']
  obtain ⟨value', filed', registry'⟩ := o'
  simp only at hright hfiled hbody hscopes
  rw [hfiled, hright, w.right_eq hgrows, Prod.ext hbody hscopes]

end Resolve

end Dynascript
