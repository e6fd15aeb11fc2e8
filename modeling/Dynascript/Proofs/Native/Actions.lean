import Dynascript.Proofs.Native.Height

/-!
# What native code does, action by action

A machine with values on its stack. Instructions that load a constant or only move values about are
quiet; every other one is an action, which is kept with the values it took. What an action gives is
not known, so it is named by the number of the action (`Value.given`) : of two values one can tell
whether the same action gave them.

The machine is as high as the one that only counts (`run_height`). What lies below the values that
the code uses stays where it is (`run_above`), and code that starts on an empty stack works with
nothing but constants and what its own actions gave (`run_since`). So code that raises the height
from nothing to one leaves a value of its own on any stack, and none of its actions has to do with a
value that was there before (`evaluates_of_height`).
-/

namespace Dynascript

namespace Native

/-- A value on the stack : a constant, or what the action with that number gave. -/
inductive Value where
  | text (value : String)
  | int (value : Int32)
  | long (value : Int64)
  | number (value : Binary64)
  | null
  | given (action : Nat)
deriving DecidableEq

/-- An instruction that acts, and the values it took, the lowest first. -/
structure Action where
  instr : Instr
  operands : List Value
deriving DecidableEq

/-- The stack, its top first, and all actions so far. -/
structure Machine where
  stack : List Value
  actions : List Action

end Native

open Native

/-- What a quiet instruction leaves in place of the values it took; an action leaves none here. -/
def Instr.quiet? (taken : List Value) : Instr → Option (List Value)
  | nop | declareLocal .. | pop => some []
  | dup => some (taken ++ taken)
  | castClass _ => some taken
  | ldStr value => some [.text value]
  | ldcI4 value => some [.int value]
  | ldcI8 value => some [.long value]
  | ldcR8 value => some [.number value]
  | ldNull => some [.null]
  | _ => none

namespace Native

variable {r : Registry}

/-- Carry out one instruction, if there are values enough. -/
def step (r : Registry) (m : Machine) (i : Instr) : Option Machine :=
  if i.takes ≤ m.stack.length then
    let taken := m.stack.take i.takes
    let rest := m.stack.drop i.takes
    match i.quiet? taken with
    | some left => some ⟨left ++ rest, m.actions⟩
    | none =>
      some ⟨List.replicate (i.gives r) (.given m.actions.length) ++ rest,
        m.actions ++ [⟨i, taken.reverse⟩]⟩
  else none

/-- Carry out instructions. -/
def run (r : Registry) (m : Machine) (code : List Instr) : Option Machine :=
  code.foldlM (step r) m

theorem run_cons (m : Machine) (i : Instr) (code : List Instr) :
    run r m (i :: code) = (step r m i).bind fun m => run r m code := by
  simp only [run, List.foldlM_cons]
  rfl

theorem run_append (m : Machine) (a b : List Instr) :
    run r m (a ++ b) = (run r m a).bind fun m => run r m b := by
  simp only [run, List.foldlM_append]
  rfl

/-! ## Single instructions -/

/-- A quiet instruction with the values it takes on top. -/
theorem step_quiet {i : Instr} {taken left : List Value} (htaken : taken.length = i.takes)
    (hquiet : i.quiet? taken = some left) (stack : List Value) (actions : List Action) :
    step r ⟨taken ++ stack, actions⟩ i = some ⟨left ++ stack, actions⟩ := by
  simp [step, ← htaken, hquiet]

/-- An action with the values it takes on top. -/
theorem step_action {i : Instr} {taken : List Value} (htaken : taken.length = i.takes)
    (hquiet : i.quiet? taken = none) (stack : List Value) (actions : List Action) :
    step r ⟨taken ++ stack, actions⟩ i =
      some ⟨List.replicate (i.gives r) (.given actions.length) ++ stack,
        actions ++ [⟨i, taken.reverse⟩]⟩ := by
  simp [step, ← htaken, hquiet]

/-- Every step finds the values it takes on top, and is quiet or an action. -/
theorem step_cases {m m' : Machine} {i : Instr} (h : step r m i = some m') :
    ∃ taken rest, m.stack = taken ++ rest ∧ taken.length = i.takes ∧
      ((∃ left, i.quiet? taken = some left ∧ m' = ⟨left ++ rest, m.actions⟩) ∨
        i.quiet? taken = none ∧
          m' = ⟨List.replicate (i.gives r) (.given m.actions.length) ++ rest,
            m.actions ++ [⟨i, taken.reverse⟩]⟩) := by
  unfold step at h
  split at h
  · rename_i hle
    refine ⟨m.stack.take i.takes, m.stack.drop i.takes, by simp, by simpa using hle, ?_⟩
    dsimp only at h
    split at h
    · rename_i left hquiet
      exact .inl ⟨left, hquiet, (Option.some.inj h).symm⟩
    · rename_i hquiet
      exact .inr ⟨hquiet, (Option.some.inj h).symm⟩
  · cases h

theorem length_quiet? {i : Instr} {taken left : List Value} (htaken : taken.length = i.takes)
    (h : i.quiet? taken = some left) : left.length = i.gives r := by
  cases i with
  | dup | castClass =>
    cases h
    simp_all [Instr.takes, Instr.gives]
  | nop | declareLocal | pop | ldStr | ldcI4 | ldcI8 | ldcR8 | ldNull =>
    cases h
    rfl
  | _ => cases h

/-- A quiet instruction leaves nothing but what it took and constants. -/
theorem mem_quiet? {i : Instr} {taken left : List Value} (h : i.quiet? taken = some left)
    {v : Value} (hv : v ∈ left) : v ∈ taken ∨ ∀ k, v ≠ .given k := by
  cases i with
  | dup | castClass | ldStr | ldcI4 | ldcI8 | ldcR8 | ldNull =>
    cases h
    simp_all
  | nop | declareLocal | pop =>
    cases h
    cases hv
  | _ => cases h

/-! ## The height -/

theorem step_height (m : Machine) (i : Instr) :
    (step r m i).map (·.stack.length) = stepHeight r m.stack.length i := by
  cases hstep : step r m i with
  | none =>
    unfold step at hstep
    split at hstep
    · dsimp only at hstep
      split at hstep <;> cases hstep
    · rename_i hlt
      simp [stepHeight, hlt]
  | some m' =>
    obtain ⟨taken, rest, hstack, htaken, h⟩ := step_cases hstep
    have hheight : m'.stack.length = i.gives r + rest.length := by
      rcases h with ⟨left, hquiet, rfl⟩ | ⟨-, rfl⟩
      · simp [length_quiet? (r := r) htaken hquiet]
      · simp
    simp only [stepHeight, hstack, List.length_append, Option.map_some, hheight, htaken]
    rw [if_pos (by omega)]
    congr 1
    omega

/-- The stack is as high as on the machine that only counts. -/
theorem run_height (m : Machine) (code : List Instr) :
    (run r m code).map (·.stack.length) = runHeight r m.stack.length code := by
  induction code generalizing m with
  | nil => rfl
  | cons i code ih =>
    rw [run_cons, runHeight_cons, ← step_height]
    cases step r m i with
    | none => rfl
    | some m' => exact ih m'

/-! ## What lies below -/

theorem step_above {m m' : Machine} {i : Instr} (h : step r m i = some m') (below : List Value) :
    step r ⟨m.stack ++ below, m.actions⟩ i = some ⟨m'.stack ++ below, m'.actions⟩ := by
  obtain ⟨taken, rest, hstack, htaken, h⟩ := step_cases h
  rw [hstack, List.append_assoc]
  rcases h with ⟨left, hquiet, rfl⟩ | ⟨hquiet, rfl⟩
  · rw [step_quiet htaken hquiet, List.append_assoc]
  · rw [step_action htaken hquiet, List.append_assoc]

/-- Values further down stay where they are, and make no difference. -/
theorem run_above {m m' : Machine} {code : List Instr} (h : run r m code = some m')
    (below : List Value) :
    run r ⟨m.stack ++ below, m.actions⟩ code = some ⟨m'.stack ++ below, m'.actions⟩ := by
  induction code generalizing m with
  | nil =>
    cases h
    rfl
  | cons i code ih =>
    rw [run_cons] at h ⊢
    obtain ⟨m₁, hstep, h⟩ := Option.bind_eq_some_iff.1 h
    rw [step_above hstep below]
    exact ih h

/-! ## What is new -/

/-- The value is a constant, or was given by an action from `n` on. -/
def Value.Since (n : Nat) (v : Value) : Prop := ∀ k, v = .given k → n ≤ k

theorem Value.Since.ne {n k : Nat} {v : Value} (h : v.Since n) (hk : k < n) : v ≠ .given k := by
  rintro rfl
  exact absurd (h k rfl) (by omega)

theorem step_since {n : Nat} {m m' : Machine} {i : Instr} (h : step r m i = some m')
    (hn : n ≤ m.actions.length) (hstack : ∀ v ∈ m.stack, v.Since n) :
    (∀ v ∈ m'.stack, v.Since n) ∧ ∃ new, m'.actions = m.actions ++ new ∧
      ∀ a ∈ new, ∀ v ∈ a.operands, v.Since n := by
  obtain ⟨taken, rest, heq, -, h⟩ := step_cases h
  rw [heq] at hstack
  obtain ⟨htaken, hrest⟩ := List.forall_mem_append.1 hstack
  rcases h with ⟨left, hquiet, rfl⟩ | ⟨-, rfl⟩
  · refine ⟨List.forall_mem_append.2 ⟨fun v hv => ?_, hrest⟩, [], by simp, by simp⟩
    rcases mem_quiet? hquiet hv with hv | hv
    · exact htaken v hv
    · exact fun k hk => absurd hk (hv k)
  · refine ⟨List.forall_mem_append.2 ⟨fun v hv k hk => ?_, hrest⟩, _, rfl, ?_⟩
    · rw [(List.mem_replicate.1 hv).2] at hk
      obtain rfl := Value.given.inj hk
      exact hn
    · simpa using htaken

/-- Code that starts with nothing older than `n` on the stack works with nothing older. -/
theorem run_since {n : Nat} {m m' : Machine} {code : List Instr} (h : run r m code = some m')
    (hn : n ≤ m.actions.length) (hstack : ∀ v ∈ m.stack, v.Since n) :
    (∀ v ∈ m'.stack, v.Since n) ∧ ∃ new, m'.actions = m.actions ++ new ∧
      ∀ a ∈ new, ∀ v ∈ a.operands, v.Since n := by
  induction code generalizing m with
  | nil =>
    cases h
    exact ⟨hstack, [], by simp, by simp⟩
  | cons i code ih =>
    rw [run_cons] at h
    obtain ⟨m₁, hstep, h⟩ := Option.bind_eq_some_iff.1 h
    obtain ⟨hstack₁, first, hfirst, hfirstNew⟩ := step_since hstep hn hstack
    have hn₁ : n ≤ m₁.actions.length := by
      rw [hfirst, List.length_append]
      omega
    obtain ⟨hstack', others, hothers, hothersNew⟩ := ih h hn₁ hstack₁
    refine ⟨hstack', first ++ others, by rw [hothers, hfirst, List.append_assoc], ?_⟩
    exact List.forall_mem_append.2 ⟨hfirstNew, hothersNew⟩

/-! ## Code for a value -/

/-- After `actions` the code, run by itself, does `new` and leaves the value `v`. -/
def Evaluates (r : Registry) (actions : List Action) (code : List Instr) (v : Value)
    (new : List Action) : Prop :=
  run r ⟨[], actions⟩ code = some ⟨[v], actions ++ new⟩

variable {actions new : List Action} {code : List Instr} {v : Value}

/-- Code that raises the height from nothing to one has a value, whatever was done before. -/
theorem evaluates_of_height (h : runHeight r 0 code = some 1) (actions : List Action) :
    ∃ v new, Evaluates r actions code v new := by
  have hheight := run_height (r := r) ⟨[], actions⟩ code
  rw [List.length_nil, h] at hheight
  obtain ⟨⟨stack, actions'⟩, hrun, hlength⟩ := Option.map_eq_some_iff.1 hheight
  obtain ⟨v, rfl⟩ := List.length_eq_one_iff.1 hlength
  obtain ⟨-, new, rfl, -⟩ := run_since hrun (Nat.zero_le _) (by simp)
  exact ⟨v, new, hrun⟩

/-- The value is left on any stack, and all that lies below stays. -/
theorem Evaluates.run (h : Evaluates r actions code v new) (stack : List Value) :
    Native.run r ⟨stack, actions⟩ code = some ⟨v :: stack, actions ++ new⟩ :=
  run_above h stack

/-- None of the actions, nor the value, has to do with what an earlier action gave. -/
theorem Evaluates.since (h : Evaluates r actions code v new) :
    v.Since actions.length ∧ ∀ a ∈ new, ∀ x ∈ a.operands, x.Since actions.length := by
  obtain ⟨hstack, new', hnew, hsince⟩ := run_since h (Nat.le_refl _) (by simp)
  obtain rfl := List.append_cancel_left hnew
  exact ⟨hstack v List.mem_cons_self, hsince⟩

end Native

end Dynascript
