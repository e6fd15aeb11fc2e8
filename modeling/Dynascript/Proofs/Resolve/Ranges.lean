import Dynascript.Proofs.Resolve.Independence

/-!
# Resolution in range

Resolution on a valid registry, with variables and a site whose types the registry has, comes to an
end and leaves nothing out of range (`resolve_in_range`, `statements_in_range`). This is the
simulation of a run by itself : what a pairing relates is in range on its left side.
-/

namespace Dynascript

/-- The types of all variables. -/
def Scopes.types (s : Scopes) : List TypeId := (s.inner :: s.outer).flatMap (List.map Prod.snd)

/-- The types that a site names. -/
def Site.types (s : Site) : List TypeId :=
  s.asked.toList ++
    (match s.declared with
    | some (.typed type) => [type]
    | _ => []) ++
    s.assigned.toList

namespace Pairing

variable {R R' : Registry} {w : Pairing R R'} {s s' : Dynascript.Scopes}

theorem scopes_self (w : Pairing R R') (h : ∀ t ∈ s.types, R.Has t) : w.Scopes s s := by
  rw [Scopes, List.forall₂_same]
  intro scope hscope
  rw [List.forall₂_same]
  intro b hb
  exact ⟨rfl, handle_self (h b.2 (List.mem_flatMap.2 ⟨scope, hscope, List.mem_map_of_mem hb⟩))⟩

theorem forall_of_forall₂ {α β : Type} {rel : α → β → Prop} {p : α → Prop} {as : List α}
    {bs : List β} (h : List.Forall₂ rel as bs) (hp : ∀ a b, rel a b → p a) : ∀ a ∈ as, p a :=
  ((List.forall₂_and_left as bs).1 (h.imp fun a b hab => ⟨hp a b hab, hab⟩)).1

theorem Scopes.has (h : w.Scopes s s') : ∀ t ∈ s.types, w.left.Has t := by
  have hall : ∀ scope ∈ s.inner :: s.outer, ∀ b ∈ scope, w.left.Has b.2 :=
    forall_of_forall₂ h fun _ _ hscope => forall_of_forall₂ hscope fun _ _ hb => hb.2.1
  intro t ht
  obtain ⟨scope, hscope, ht⟩ := List.mem_flatMap.1 ht
  obtain ⟨b, hb, rfl⟩ := List.mem_map.1 ht
  exact hall scope hscope b hb

theorem site_self (w : Pairing R R') {s : Dynascript.Site} (h : ∀ t ∈ s.types, R.Has t) :
    w.Site s s := by
  have handles {o : Option TypeId} (ho : ∀ t ∈ o, R.Has t) : Option.Rel w.Handle o o := by
    cases o with
    | none => exact .none
    | some t => exact .some (handle_self (ho t rfl))
  obtain ⟨asked, declared, assigned⟩ := s
  simp only [Dynascript.Site.types, List.mem_append, Option.mem_toList] at h
  refine ⟨handles fun t ht => h t (.inl (.inl ht)), ?_, handles fun t ht => h t (.inr ht)⟩
  cases declared with
  | none => exact .none
  | some d =>
    cases d with
    | infer => exact .some .infer
    | typed t => exact .some (.typed (handle_self (h t (.inl (.inr (by simp))))))

end Pairing

namespace Registry

variable {R r : Registry} {root : String}

/-- Instances and arrays are made by operations that any program can use. -/
theorem Built.makes (h : Built root (fun _ => True) R) (hmakes : R.Makes r) :
    Built root (fun _ => True) r := by
  induction hmakes with
  | refl => exact h
  | step op _ _ hhandles hrun ih => exact .step op ih trivial hhandles hrun

end Registry

namespace Resolve

variable {R : Registry} {cx : Context} {scopes : Scopes}

/-- Statements come to an end, and what they leave is in range : the trees and the variables. -/
theorem statements_in_range (hR : R.Valid) (cx : Context)
    (hscopes : ∀ t ∈ scopes.types, R.Has t) (body : List Stmt) :
    ∃ o, statements scopes body cx R = .ok o ∧ R.Makes o.registry ∧
      (∀ t ∈ o.value.2.types, o.registry.Has t) ∧
      ∀ typed ∈ o.value.1, TypedStmt.AllWithin o.registry typed := by
  have hself := Pairing.scopes_self (.start hR .refl) hscopes
  have hcoupled : Coupled _ AfterBody (statements scopes body) (statements scopes body) cx cx :=
    statements_coupled rfl body hself
  obtain ⟨w, ⟨value, after⟩, ⟨value', after'⟩, filed, -, -, hrun, -, hbody, hafter⟩ := hcoupled
  refine ⟨_, hrun, w.leftMakes, hafter.has, fun typed htyped => ?_⟩
  cases Option.mem_def.1 htyped
  cases hbody with
  | some h => exact h.1

/-- An expression comes to an end, and its tree is in range. -/
theorem resolve_in_range (hR : R.Valid) (hscopes : ∀ t ∈ cx.scopes.types, R.Has t) (e : Expr)
    (site : Site) (hsite : ∀ t ∈ site.types, R.Has t) :
    ∃ o, resolve site e cx R = .ok o ∧ R.Makes o.registry ∧
      ∀ typed ∈ o.value, typed.Within o.registry := by
  have hview : (Pairing.start hR .refl).View cx cx := ⟨rfl, Pairing.scopes_self _ hscopes⟩
  obtain ⟨w, value, value', filed, -, -, hrun, -, htree⟩ :=
    resolve_coupled e site site _ hview (Pairing.site_self _ hsite)
  refine ⟨_, hrun, w.leftMakes, fun typed htyped => ?_⟩
  cases Option.mem_def.1 htyped
  cases htree with
  | some h => exact h.1

end Resolve

end Dynascript
