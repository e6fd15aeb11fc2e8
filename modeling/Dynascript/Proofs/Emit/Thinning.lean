import Dynascript.Native.Code
import Dynascript.Proofs.Emit.Yields
import Dynascript.Script.Text

/-!
# Statements that can be left out

`TypedStmt.Thins p body rest` : `rest` is `body` without some of the statements that satisfy `p`,
at any depth of blocks. Where no such statement is written out, for the target at hand, leaving
them out changes nothing of what is written and nothing of where the writing stops
(`unitCode_thins`, `unitText_thins`).
-/

namespace Dynascript

/-- Some of the statements that satisfy `p` are left out, at any depth of blocks. -/
inductive TypedStmt.Thins (p : TypedStmt → Prop) : List TypedStmt → List TypedStmt → Prop
  | nil : Thins p [] []
  | drop {s : TypedStmt} {body rest : List TypedStmt} :
      p s → Thins p body rest → Thins p (s :: body) rest
  | keep {s : TypedStmt} {body rest : List TypedStmt} :
      Thins p body rest → Thins p (s :: body) (s :: rest)
  | inside {loc : Location} {inner thinner body rest : List TypedStmt} :
      Thins p inner thinner → Thins p body rest →
        Thins p (.block loc inner :: body) (.block loc thinner :: rest)

variable {p : TypedStmt → Prop} {body rest : List TypedStmt} {r : Registry}

theorem Native.unitCode_thins (hp : ∀ s, p s → stmtCode r s = .nothing)
    (h : TypedStmt.Thins p body rest) : unitCode r rest = unitCode r body := by
  induction h with
  | nil => rfl
  | drop hs _ ih => rw [unitCode, hp _ hs, Emission.nothing_append, ih]
  | keep _ ih => rw [unitCode, unitCode, ih]
  | inside _ _ ihInner ih => rw [unitCode, unitCode, stmtCode, stmtCode, ihInner, ih]

theorem Script.unitText_thins (hp : ∀ s, p s → ∀ depth, stmtText r depth s = .nothing)
    (h : TypedStmt.Thins p body rest) (depth : Nat) :
    unitText r depth rest = unitText r depth body := by
  induction h generalizing depth with
  | nil => rfl
  | drop hs _ ih => rw [unitText, hp _ hs, Emission.nothing_append, ih]
  | keep _ ih => rw [unitText, unitText, ih]
  | inside _ _ ihInner ih => rw [unitText, unitText, stmtText, stmtText, ihInner, ih]

end Dynascript
