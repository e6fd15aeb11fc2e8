import Dynascript.Proofs.Types.Lineage

/-!
# Implementing as an order

Edges lead to earlier types (`Valid.edge_lt`), so no path of edges goes on for ever, and one that
comes back to its start has no edges (`Reaches.antisymm`). The searches that follow edges need no
more steps than there are types before the one they start at; from there on the number of steps
that they may make does not show in the answer (`implementsWithin_ends`, `nameOfWithin_ends`).

`implements_order` : a type implements what it reaches, and this is a partial order.
-/

namespace Dynascript.Registry

variable {r : Registry} {a b c ty : TypeId}

/-! ## Edges and paths -/

theorem Valid.edge_lt (hr : r.Valid) (h : r.Edge a b) : b.index < a.index := by
  obtain ⟨entry, hget, hb⟩ := h
  exact hr.super_lt hget hb

theorem Valid.wellFounded_edge (hr : r.Valid) : WellFounded fun b a => r.Edge a b :=
  Subrelation.wf (fun h => hr.edge_lt h) (measure TypeId.index).wf

theorem Edge.has (h : r.Edge a b) : r.Has a := by
  obtain ⟨entry, hget, -⟩ := h
  exact has_of_get hget

/-- A path leads back in the table, unless it has no edges. -/
theorem Reaches.eq_or_lt (hr : r.Valid) (h : r.Reaches a b) : a = b ∨ b.index < a.index := by
  induction h with
  | refl => exact .inl rfl
  | tail _ hedge ih =>
    have hlt := hr.edge_lt hedge
    rcases ih with rfl | ih
    · exact .inr hlt
    · exact .inr (Nat.lt_trans hlt ih)

theorem Reaches.antisymm (hr : r.Valid) (h : r.Reaches a b) (h' : r.Reaches b a) : a = b := by
  rcases h.eq_or_lt hr with rfl | hlt
  · rfl
  · rcases h'.eq_or_lt hr with rfl | hlt'
    · rfl
    · omega

/-! ## Searches -/

/-- The search for a type above has an answer, the same for every number of steps that is larger
than the number of types before `ty`. -/
theorem implementsWithin_ends (hr : r.Valid) (hty : r.Has ty) (c : TypeId) :
    ∃ answer, r.implements ty c = .ok answer ∧
      (∀ n, ty.index < n → r.table.implementsWithin c n ty = .ok answer) ∧
      (answer = true ↔ r.Reaches ty c) := by
  obtain ⟨answer, hanswer, hiff⟩ := implements_iff hr hty c
  refine ⟨answer, hanswer, fun n hn => ?_, hiff⟩
  obtain ⟨answer', hanswer', hiff'⟩ := implementsWithin_iff hr c hty hn
  rw [hanswer', Bool.eq_iff_iff.2 (hiff'.trans hiff.symm)]

/-- So it is with the name of a type. -/
theorem nameOfWithin_ends (hr : r.Valid) (hty : r.Has ty) {n : Nat} (hn : ty.index < n) :
    r.table.nameOfWithin n ty = .ok (r.typeName ty) := by
  have hself : (Pairing.start hr .refl).Handle ty ty := Pairing.handle_self hty
  obtain ⟨name, name', hname, hname', hsame⟩ :=
    Pairing.nameOfWithin hself hn (Nat.lt_succ_of_lt hty)
  have hends : r.table.nameOfWithin n ty = .ok name := hname
  have htypeName : r.typeName ty = name' := typeName_of_nameOf hname'
  rw [hends, htypeName, hsame]

/-- A handle implements nothing but itself unless there is a type behind it. -/
theorem reaches_of_implements (hr : r.Valid) (h : r.implements a b = .ok true) :
    r.Reaches a b := by
  by_cases hab : a = b
  · exact hab ▸ .refl
  · have ha : r.Has a := by
      rw [Registry.implements, TypeTable.implements, TypeTable.implementsWithin, if_neg hab] at h
      obtain ⟨entry, hget, -⟩ := bind_eq_ok.1 h
      exact has_of_get hget
    obtain ⟨answer, hanswer, hiff⟩ := implements_iff hr ha b
    cases hanswer.symm.trans h
    exact hiff.1 rfl

theorem implements_self (r : Registry) (a : TypeId) : r.implements a a = .ok true := by
  rw [Registry.implements, TypeTable.implements, TypeTable.implementsWithin, if_pos rfl]

/-- A path that has edges starts at a type. -/
theorem Reaches.implements_true (hr : r.Valid) (h : r.Reaches a b) :
    r.implements a b = .ok true := by
  rcases Relation.ReflTransGen.cases_head h with rfl | ⟨p, hedge, -⟩
  · exact implements_self r a
  · exact h.implements hr hedge.has

/-- In every registry that a program can build, an edge leads to an earlier type, so that there is
no infinite path of edges. The two searches end on every type, after no more steps than there are
types before it. A type implements what it reaches, and no other; hence to implement is reflexive,
transitive and antisymmetric. -/
theorem implements_order {root : String} {allowed : RegistryOp → Prop} (h : Built root allowed r) :
    (∀ a b, r.Edge a b → b.index < a.index) ∧ (WellFounded fun b a => r.Edge a b) ∧
    (∀ a, r.Has a → ∀ c, ∃ answer, r.implements a c = .ok answer ∧
      (∀ n, a.index < n → r.table.implementsWithin c n a = .ok answer) ∧
      (answer = true ↔ r.Reaches a c)) ∧
    (∀ a, r.Has a → r.nameOf a = .ok (r.typeName a) ∧
      ∀ n, a.index < n → r.table.nameOfWithin n a = .ok (r.typeName a)) ∧
    (∀ a, r.implements a a = .ok true) ∧
    (∀ a b c, r.implements a b = .ok true → r.implements b c = .ok true →
      r.implements a c = .ok true) ∧
    (∀ a b, r.implements a b = .ok true → r.implements b a = .ok true → a = b) := by
  have hr : r.Valid := h.valid
  refine ⟨fun a b => hr.edge_lt, hr.wellFounded_edge, fun a ha => implementsWithin_ends hr ha,
    fun a ha => ⟨hr.nameOf ha, fun n => nameOfWithin_ends hr ha⟩, implements_self r,
    fun a b c hab hbc => ?_, fun a b hab hba => ?_⟩
  · have hpath : r.Reaches a c :=
      (reaches_of_implements hr hab).trans (reaches_of_implements hr hbc)
    exact hpath.implements_true hr
  · exact (reaches_of_implements hr hab).antisymm hr (reaches_of_implements hr hba)

/-- A class of the user's above which there is a dictionary : by its base `Expando`, an interface
of that, and the definition of the interface. The dictionary does not implement the class. -/
theorem subclass_below_dictionary :
    let d := (ClassDecl.ofClass "Settings").extending .expando
    let r := (bootstrap "app").addClass d
    Built "app" (fun _ => True) r ∧ r.Reaches ⟨22⟩ .dictionary ∧
      r.implements ⟨22⟩ .dictionary = .ok true ∧ r.implements .dictionary ⟨22⟩ ≠ .ok true := by
  intro d r
  have hexpando : (bootstrap "app").Has .expando := (bootstrap_valid _).has (by decide)
  have hbuilt : Built "app" (fun _ => True) r :=
    .step (.declare d) .start trivial (List.forall_mem_singleton.2 hexpando) rfl
  have hclass : r.implements ⟨22⟩ .expando = .ok true := by decide +kernel
  have hbase : r.implements .expando .dictionary = .ok true := by decide +kernel
  obtain ⟨-, -, hanswers, -, -, htrans, hantisymm⟩ := implements_order hbuilt
  have hsub : r.implements ⟨22⟩ .dictionary = .ok true := htrans _ _ _ hclass hbase
  have hhas : r.Has ⟨22⟩ := by
    rw [Has, size, addClass_table]
    decide
  obtain ⟨answer, hanswer, -, hiff⟩ := hanswers ⟨22⟩ hhas .dictionary
  cases hanswer.symm.trans hsub
  refine ⟨hbuilt, hiff.1 rfl, hsub, fun hback => ?_⟩
  have heq : (⟨22⟩ : TypeId) = .dictionary := hantisymm _ _ hsub hback
  exact absurd heq (by decide)

end Dynascript.Registry
