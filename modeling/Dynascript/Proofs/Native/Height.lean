import Dynascript.Native.Code
import Dynascript.Proofs.Emit.Yields
import Mathlib.Algebra.GroupWithZero.Nat
import Mathlib.Algebra.Order.BigOperators.Group.List
import Mathlib.Algebra.Order.Group.Int
import Mathlib.Algebra.Ring.Int.Defs

/-!
# The height of the operand stack

A machine that only counts : each instruction takes a number of values off the stack and
gives a number back, and it gets stuck where there are too few. `Moves` says how an emission
moves the height. It speaks of the height that was meant and of a list of imbalances by which
single instructions miss it : their sum is how far the whole misses, and if none of them is a
shortage the machine runs through.
-/

namespace Dynascript

namespace Native

/-- What a call leaves : one value, unless the method is declared to give nothing. -/
def callGives (r : Registry) (owner : TypeId) (method : String) : Nat :=
  match r.findMember owner method with
  | .ok (some (_, ⟨_, .method _ result, _⟩)) => if result = .void then 0 else 1
  | _ => 1

end Native

namespace Instr

/-- The number of values an instruction takes off the stack. -/
def takes : Instr → Nat
  | nop | declareLocal .. | ldStr _ | ldcI4 _ | ldcI8 _ | ldcR8 _ | ldNull | ldLoc _
  | ldSFld .. => 0
  | dup | pop | stLoc _ | stSFld .. | ldFld .. | castClass _ | newArr _ | dynamicGet _ => 1
  | stFld .. | ldElem _ | dynamicSet _ => 2
  | stElem _ => 3
  | call _ _ args | newObj _ args => args
  | callVirt _ _ args => args + 1
  | newMultiArr _ rank => rank
  | ldElemMulti _ rank => rank + 1
  | stElemMulti _ rank => rank + 2
  | dynamicGetIndex args | dynamicCall _ args | dynamicInvoke args | dynamicNew args => args + 1
  | dynamicSetIndex args => args + 2

/-- The number of values an instruction gives back. The accessors of an indexer are no
methods of the registry : the getter gives one value, the setter none. -/
def gives (r : Registry) : Instr → Nat
  | nop | declareLocal .. | pop | stLoc _ | stSFld .. | stFld .. | stElem _ | stElemMulti ..
  | dynamicSet _ | dynamicSetIndex _ => 0
  | dup => 2
  | call owner method _ => Native.callGives r owner method
  | callVirt owner method _ =>
    if method = Native.indexerGet then 1
    else if method = Native.indexerSet then 0
    else Native.callGives r owner method
  | ldStr _ | ldcI4 _ | ldcI8 _ | ldcR8 _ | ldNull | ldLoc _ | ldSFld .. | ldFld .. | newObj ..
  | castClass _ | newArr _ | newMultiArr .. | ldElem _ | ldElemMulti .. | dynamicGet _
  | dynamicGetIndex _ | dynamicCall .. | dynamicInvoke _ | dynamicNew _ => 1

end Instr

namespace Native

variable {r : Registry}

@[simp] theorem gives_indexerGet (owner : TypeId) (args : Nat) :
    (Instr.callVirt owner indexerGet args).gives r = 1 := by
  simp [Instr.gives]

@[simp] theorem gives_indexerSet (owner : TypeId) (args : Nat) :
    (Instr.callVirt owner indexerSet args).gives r = 0 := by
  simp [Instr.gives, indexerGet, indexerSet]

/-- The height after one instruction, if there were values enough. -/
def stepHeight (r : Registry) (h : Nat) (i : Instr) : Option Nat :=
  if i.takes ≤ h then some (h - i.takes + i.gives r) else none

/-- The height after instructions. -/
def runHeight (r : Registry) (h : Nat) (code : List Instr) : Option Nat :=
  code.foldlM (stepHeight r) h

/-- How far instructions raise the height if the machine does not get stuck. -/
def net (r : Registry) (code : List Instr) : Int :=
  (code.map fun i => (i.gives r : Int) - i.takes).sum

theorem net_cons (i : Instr) (code : List Instr) :
    net r (i :: code) = (i.gives r : Int) - i.takes + net r code := by
  simp [net]

theorem runHeight_append (h : Nat) (a b : List Instr) :
    runHeight r h (a ++ b) = (runHeight r h a).bind fun m => runHeight r m b := by
  simp only [runHeight, List.foldlM_append]
  rfl

theorem runHeight_cons (h : Nat) (i : Instr) (code : List Instr) :
    runHeight r h (i :: code) = (stepHeight r h i).bind fun m => runHeight r m code := by
  simp only [runHeight, List.foldlM_cons]
  rfl

theorem stepHeight_eq_some {h h' : Nat} {i : Instr} (hi : stepHeight r h i = some h') :
    i.takes ≤ h ∧ h' = h - i.takes + i.gives r := by
  unfold stepHeight at hi
  split at hi
  · rename_i hle
    exact ⟨hle, (Option.some.inj hi).symm⟩
  · cases hi

/-- A run that is not stuck ends where the sum says. -/
theorem runHeight_net {h h' : Nat} {code : List Instr} (hrun : runHeight r h code = some h') :
    (h' : Int) = h + net r code := by
  induction code generalizing h with
  | nil =>
    cases hrun
    simp [net]
  | cons i code ih =>
    rw [runHeight_cons] at hrun
    obtain ⟨m, hm, hrun⟩ := Option.bind_eq_some_iff.1 hrun
    obtain ⟨hle, rfl⟩ := stepHeight_eq_some hm
    have hrest := ih hrun
    rw [net_cons]
    omega

/-- A run is not stuck exactly if each instruction finds values enough by the sum so far. -/
theorem isSome_runHeight_iff {h : Nat} {code : List Instr} :
    (runHeight r h code).isSome = true ↔
      ∀ before i after, code = before ++ i :: after → (i.takes : Int) ≤ h + net r before := by
  induction code generalizing h with
  | nil => simp [runHeight]
  | cons j code ih =>
    rw [runHeight_cons]
    by_cases hj : j.takes ≤ h
    · have hstep : stepHeight r h j = some (h - j.takes + j.gives r) := if_pos hj
      rw [hstep, Option.bind_some, ih]
      constructor
      · rintro hrest (_ | ⟨k, before⟩) i after hcode
        · cases hcode
          simp only [net, List.map_nil, List.sum_nil]
          omega
        · obtain ⟨rfl, rfl⟩ := List.cons.inj hcode
          have := hrest before i after rfl
          rw [net_cons]
          omega
      · rintro hall before i after rfl
        have := hall (j :: before) i after rfl
        rw [net_cons] at this
        omega
    · have hstep : stepHeight r h j = none := if_neg hj
      rw [hstep]
      refine ⟨nofun, fun hall => ?_⟩
      have := hall [] j code rfl
      simp only [net, List.map_nil, List.sum_nil] at this
      omega

/-! ## How emissions move the height -/

/-- Where `k` values are ready, the code is meant to leave `n` in their place. It misses that
by the sum of the imbalances `ds`; as long as none of them is a shortage, it runs through from
every height. -/
structure Moves (r : Registry) (k n : Nat) (ds : List Int) (code : List Instr) : Prop where
  net : net r code = n - k + ds.sum
  run : (∀ d ∈ ds, 0 ≤ d) → ∀ h, k ≤ h → (runHeight r h code).isSome = true

variable {k m n : Nat} {ds es : List Int} {a b : List Instr}

theorem moves_nil : Moves r k k [] [] :=
  ⟨by simp [Native.net], fun _ _ _ => rfl⟩

/-- Where `k` values are ready and `n` are meant to be left, the instruction is off by `d`. If
that is no shortage, there are values enough for it. -/
def Misses (r : Registry) (k n : Nat) (d : Int) (i : Instr) : Prop :=
  (i.gives r : Int) - i.takes = n - k + d ∧ (0 ≤ d → i.takes ≤ k)

theorem misses_zero {i : Instr} (hk : i.takes = k) (hn : i.gives r = n) : Misses r k n 0 i :=
  ⟨by omega, fun _ => Nat.le_of_eq hk⟩

theorem moves_instr {i : Instr} {d : Int} (hi : Misses r k n d i) : Moves r k n [d] [i] := by
  obtain ⟨hd, hk⟩ := hi
  refine ⟨by simp [Native.net, hd], fun hnonneg h hle => ?_⟩
  have htakes := hk (hnonneg d (by simp))
  rw [runHeight_cons, stepHeight, if_pos (by omega)]
  rfl

/-- One instruction that does what is meant, above `j` other values. -/
theorem moves_one {i : Instr} (j : Nat) (hk : j + i.takes = k) (hn : j + i.gives r = n) :
    Moves r k n [] [i] := by
  have h : Moves r k n [0] [i] := moves_instr ⟨by omega, by omega⟩
  exact ⟨by simpa using h.net, fun _ => h.run (by simp)⟩

theorem Moves.append (ha : Moves r k m ds a) (hb : Moves r m n es b) :
    Moves r k n (ds ++ es) (a ++ b) := by
  constructor
  · have hnet : Native.net r (a ++ b) = Native.net r a + Native.net r b := by simp [Native.net]
    rw [hnet, ha.net, hb.net, List.sum_append]
    omega
  · intro hnonneg h hle
    -- What the first part leaves too many does not keep the second from running.
    have hds : ∀ d ∈ ds, 0 ≤ d := fun d hd => hnonneg d (by simp [hd])
    obtain ⟨h', hrun⟩ := Option.isSome_iff_exists.1 (ha.run hds h hle)
    have hheight : (h' : Int) = h + (m - k + ds.sum) := ha.net ▸ runHeight_net hrun
    have hsum : 0 ≤ ds.sum := List.sum_nonneg hds
    rw [runHeight_append, hrun]
    exact hb.run (fun d hd => hnonneg d (by simp [hd])) h' (by omega)

/-- Values further down stay where they are. -/
theorem Moves.above (ha : Moves r k n ds a) (j : Nat) : Moves r (j + k) (j + n) ds a :=
  ⟨by rw [ha.net]; push_cast; omega, fun hnonneg h hle => ha.run hnonneg h (by omega)⟩

/-- Only the sum of the imbalances counts, and whether there is a shortage. -/
theorem Moves.recount (ha : Moves r k n ds a) (hsum : ds.sum = es.sum)
    (hnonneg : (∀ e ∈ es, 0 ≤ e) → ∀ d ∈ ds, 0 ≤ d) : Moves r k n es a :=
  ⟨hsum ▸ ha.net, fun he => ha.run (hnonneg he)⟩

variable {x y : Emission Instr}

theorem moves_then (hx : x.Yields (Moves r k m ds)) (hy : y.Yields (Moves r m n es)) :
    (x ++ y).Yields (Moves r k n (ds ++ es)) :=
  hx.append hy fun _ _ => Moves.append

theorem moves_above (hx : x.Yields (Moves r k n ds)) (j : Nat) :
    x.Yields (Moves r (j + k) (j + n) ds) :=
  hx.mono fun _ h => h.above j

end Native

end Dynascript
