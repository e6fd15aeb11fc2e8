import Dynascript.Emit.Emission

/-!
# What an emission yields

`Emission.Yields em p` : if the writing does not stop, what was written satisfies `p`.
`Emission.Answered em` : if it stops, then at a tree that cannot be written and not at a dangling
handle. There is one rule for each way to make an emission.
-/

namespace Dynascript.Emission

variable {ω α : Type} {a b em : Emission ω} {p q s : List ω → Prop}

/-- What was written satisfies `p`, unless the writing stopped. -/
def Yields (em : Emission ω) (p : List ω → Prop) : Prop := em.stop = none → p em.written

theorem Yields.mono (h : em.Yields p) (himp : ∀ items, p items → q items) : em.Yields q :=
  fun hstop => himp _ (h hstop)

theorem yields_write {items : List ω} (h : p items) : (write items).Yields p := fun _ => h

theorem yields_reject {error : EmitError} : (reject error : Emission ω).Yields p := nofun

theorem yields_asking {answer : Except Dangling α} {f : α → Emission ω}
    (h : ∀ x, answer = .ok x → (f x).Yields p) : (asking answer f).Yields p := by
  cases answer with
  | ok x => exact h x rfl
  | error d => exact nofun

/-- The first stop counts. -/
theorem stop_append_eq : (a ++ b).stop = a.stop.or b.stop := by
  change (append a b).stop = _
  unfold append
  cases ha : a.stop with
  | none => rfl
  | some stop => exact ha

theorem append_stop {p : Option Stop → Prop} (ha : p a.stop) (hb : p b.stop) :
    p (a ++ b).stop := by
  rw [stop_append_eq]
  cases hs : a.stop with
  | none => exact hb
  | some stop => exact (congrArg p hs).mp ha

theorem stop_append : (a ++ b).stop = none ↔ a.stop = none ∧ b.stop = none := by
  rw [stop_append_eq, Option.or_eq_none_iff]

theorem written_append (ha : a.stop = none) : (a ++ b).written = a.written ++ b.written := by
  change (append a b).written = _
  simp only [append, ha]

theorem written_append_of_stop {stop : Stop} (ha : a.stop = some stop) :
    (a ++ b).written = a.written := by
  change (append a b).written = _
  simp only [append, ha]

theorem nothing_append (em : Emission ω) : nothing ++ em = em := rfl

theorem append_nothing (em : Emission ω) : em ++ nothing = em := by
  change append em nothing = em
  unfold append
  cases hs : em.stop with
  | none => simp [nothing, write, ← hs]
  | some stop => rfl

theorem Yields.append (ha : a.Yields p) (hb : b.Yields q)
    (h : ∀ x y, p x → q y → s (x ++ y)) : (a ++ b).Yields s := by
  intro hstop
  obtain ⟨hsa, hsb⟩ := stop_append.1 hstop
  rw [written_append hsa]
  exact h _ _ (ha hsa) (hb hsb)

theorem Yields.append_eq {x y : List ω} (ha : a.Yields (· = x)) (hb : b.Yields (· = y)) :
    (a ++ b).Yields (· = x ++ y) :=
  ha.append hb fun _ _ h h' => h ▸ h' ▸ rfl

/-- Everything that was meant is written exactly if the writing did not stop. -/
theorem result_eq_ok {items : List ω} :
    em.result = .ok (.ok items) ↔ em.stop = none ∧ em.written = items := by
  unfold result
  cases hs : em.stop with
  | none => simp
  | some stop => cases stop <;> simp

/-! ## Answers -/

/-- The writing did not stop at a dangling handle. -/
def Answered (em : Emission ω) : Prop := ∀ d, em.stop ≠ some (.dangling d)

theorem answered_write {items : List ω} : (write items).Answered := nofun

theorem answered_reject {error : EmitError} : (reject error : Emission ω).Answered := nofun

theorem Answered.append (ha : a.Answered) (hb : b.Answered) : (a ++ b).Answered :=
  append_stop (p := fun stop => ∀ d, stop ≠ some (.dangling d)) ha hb

/-- Such an emission has a result, if only a refusal. -/
theorem Answered.result (h : em.Answered) : ∃ result, em.result = .ok result := by
  unfold Emission.result
  cases hs : em.stop with
  | none => exact ⟨_, rfl⟩
  | some stop =>
    cases stop with
    | rejected error => exact ⟨_, rfl⟩
    | dangling d => exact absurd hs (h d)

end Dynascript.Emission
