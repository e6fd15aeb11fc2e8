import Dynascript.Proofs.Emit.Thinning
import Dynascript.Proofs.Native.Discipline

/-!
# Expressions without effects

The code of a pure expression, if there is any, is made of loads : it calls, makes and stores
nothing, and it leaves one value (`code_loads`). A statement that only evaluates such an expression
is not written out for either target, so it can be left out of a unit (`pure_left_out`).
-/

namespace Dynascript

/-- The instruction loads a constant, a variable or a field, or looks at a value as another
type. -/
def Instr.isLoad : Instr → Bool
  | ldStr _ | ldcI4 _ | ldcI8 _ | ldcR8 _ | ldNull | ldLoc _ | ldSFld .. | ldFld ..
  | castClass _ => true
  | _ => false

namespace TypedStmt

/-- The statement evaluates a pure expression and does nothing else. -/
def isIdle : TypedStmt → Bool
  | nonAssign _ e => e.isPure
  | _ => false

mutual

/-- The statement without idle statements in its blocks. -/
def withoutIdle : TypedStmt → TypedStmt
  | block loc body => .block loc (dropIdle body)
  | s => s

/-- The statements without idle ones, at any depth of blocks. -/
def dropIdle : List TypedStmt → List TypedStmt
  | [] => []
  | s :: rest => if s.isIdle then dropIdle rest else withoutIdle s :: dropIdle rest

end

theorem thins_dropIdle (body : List TypedStmt) :
    Thins (·.isIdle = true) body (dropIdle body) := by
  -- Of a single statement it says that it can stand in front of statements that were thinned.
  refine dropIdle.induct
    (fun s => ∀ body rest, Thins (·.isIdle = true) body rest →
      Thins (·.isIdle = true) (s :: body) (withoutIdle s :: rest))
    (fun body => Thins (·.isIdle = true) body (dropIdle body)) ?_ ?_ ?_ ?_ ?_ body
  · intro loc inner hinner body rest h
    exact .inside hinner h
  · intro s hs body rest h
    rw [withoutIdle.eq_2 s hs]
    exact .keep h
  · exact .nil
  · intro s rest hidle ih
    rw [dropIdle, if_pos hidle]
    exact .drop hidle ih
  · intro s rest hbusy hs ih
    rw [dropIdle, if_neg hbusy]
    exact hs _ _ ih

end TypedStmt

namespace Native

variable {r : Registry} {instrs : List Instr} {i : Instr}

/-- Loads only, which leave one value and touch nothing below it. -/
structure Loads (r : Registry) (instrs : List Instr) : Prop where
  loads : ∀ i ∈ instrs, i.isLoad = true
  lifts : ∀ calls, Lifts r calls 0 1 instrs

theorem leaves_of_isLoad (calls : Calls) (hi : i.isLoad = true) : calls.leaves r i = 1 := by
  cases i with
  | ldStr | ldcI4 | ldcI8 | ldcR8 | ldNull | ldLoc | ldSFld | ldFld | castClass => rfl
  | _ => cases hi

theorem loads_one (hi : i.isLoad = true) (htakes : i.takes = 0) : Loads r [i] where
  loads := by simpa using hi
  lifts calls := lifts_instr 0 (by omega) (by rw [leaves_of_isLoad calls hi])

theorem Loads.append_one (h : Loads r instrs) (hi : i.isLoad = true) (htakes : i.takes = 1) :
    Loads r (instrs ++ [i]) where
  loads := by simpa [or_imp, forall_and] using ⟨h.loads, hi⟩
  lifts calls :=
    (h.lifts calls).append (lifts_instr 0 (by omega) (by rw [leaves_of_isLoad calls hi]))

theorem constant_loads (info : Info) (value : Constant) :
    (code r (.constant info value)).Yields (Loads r) := by
  cases value with
  | int n =>
    refine Emission.yields_write (loads_one (i := loadInt n) ?_ ?_) <;>
    · unfold loadInt
      split <;> rfl
  | string | number | bool | null => exact Emission.yields_write (loads_one rfl rfl)
  | regex | xml => exact Emission.yields_reject

/-- One more load on top of the code of a part. -/
theorem loads_then {x : Emission Instr} (hx : x.Yields (Loads r)) (hi : i.isLoad = true)
    (htakes : i.takes = 1) : (x ++ .write [i]).Yields (Loads r) :=
  hx.append (Emission.yields_write (p := (· = [i])) rfl) fun _ _ h hy => by
    subst hy
    exact h.append_one hi htakes

/-- The code of a pure expression loads one value. -/
theorem code_loads : ∀ {e : TypedExpr}, e.isPure = true → (code r e).Yields (Loads r)
  | .constant info value, _ => constant_loads info value
  | .localVar .., _ | .staticField .., _ => Emission.yields_write (loads_one rfl rfl)
  | .instanceField _ target owner name, h =>
    loads_then (code_loads (e := target) (by simpa [TypedExpr.isPure] using h)) rfl rfl
  | .cast info operand, h =>
    loads_then (code_loads (e := operand) (by simpa [TypedExpr.isPure] using h)) rfl rfl
  | .typeRef .., _ | .scriptTypeof .., _ | .scriptUndefined .., _ | .objectLiteral .., _
  | .arrayLiteral .., _ => Emission.yields_reject

theorem stmtCode_idle {s : TypedStmt} (hs : s.isIdle = true) : stmtCode r s = .nothing := by
  cases s with
  | nonAssign loc e => exact if_pos (show e.isPure = true from hs)
  | _ => cases hs

end Native

theorem Script.stmtText_idle {r : Registry} {s : TypedStmt} (hs : s.isIdle = true) (depth : Nat) :
    stmtText r depth s = .nothing := by
  cases s with
  | nonAssign loc e => exact if_pos (show e.isPure = true from hs)
  | _ => cases hs

/-- What is emitted for a pure expression loads one value and does nothing else, and the
statements that only evaluate pure expressions can all be left out of a unit : what is written for
either target stays the same, and so does the reason why it stops. -/
theorem pure_left_out (r : Registry) :
    (∀ e instrs, e.isPure = true → (Native.code r e).result = .ok (.ok instrs) →
      (∀ i ∈ instrs, i.isLoad = true) ∧
        ∀ calls h, Native.runAbove r calls h h instrs = some (h + 1)) ∧
    ∀ body : List TypedStmt,
      Native.unitCode r (TypedStmt.dropIdle body) = Native.unitCode r body ∧
        ∀ depth,
          Script.unitText r depth (TypedStmt.dropIdle body) = Script.unitText r depth body := by
  constructor
  · intro e instrs he hcode
    obtain ⟨hstop, rfl⟩ := Emission.result_eq_ok.1 hcode
    have hloads := Native.code_loads he hstop
    exact ⟨hloads.loads, hloads.lifts⟩
  · intro body
    have hthins := TypedStmt.thins_dropIdle body
    exact ⟨Native.unitCode_thins (fun _ => Native.stmtCode_idle) hthins,
      Script.unitText_thins (fun _ => Script.stmtText_idle) hthins⟩

/-- The length of a variable, looked at as a number : for its value, and as a statement in a block
after a declaration. -/
theorem length_left_out :
    let r := Registry.bootstrap "app"
    let e : TypedExpr := .cast (.value .number .origin)
      (.instanceField (.value .int .origin) (.localVar ⟨.string, .place, .origin⟩ "s") .string
        "length")
    let instrs : List Instr := [.ldLoc "s", .ldFld .string "length", .castClass .number]
    let declare : TypedStmt := .declare .origin "s" .string none
    let body : List TypedStmt := [.block .origin [declare, .nonAssign .origin e]]
    e.isPure = true ∧ (Native.code r e).result = .ok (.ok instrs) ∧
      (∀ i ∈ instrs, i.isLoad = true) ∧
      (∀ calls h, Native.runAbove r calls h h instrs = some (h + 1)) ∧
      TypedStmt.dropIdle body = [.block .origin [declare]] ∧
      Native.unitCode r [.block .origin [declare]] = Native.unitCode r body ∧
      ∀ depth,
        Script.unitText r depth [.block .origin [declare]] = Script.unitText r depth body := by
  intro r e instrs declare body
  obtain ⟨hcode, hunit⟩ := pure_left_out r
  obtain ⟨hloads, hruns⟩ := hcode e instrs rfl rfl
  exact ⟨rfl, rfl, hloads, hruns, rfl, hunit body⟩

end Dynascript
