import Dynascript.Typed.Expr

/-!
# Resolved statements
-/

namespace Dynascript

/-- A resolved statement. -/
inductive TypedStmt where
  | declare (loc : Location) (name : String) (type : TypeId) (initializer : Option TypedExpr)
  | expr (loc : Location) (e : TypedExpr)
  /-- Written out only if the expression may have effects. -/
  | nonAssign (loc : Location) (e : TypedExpr)
  | block (loc : Location) (body : List TypedStmt)
  /-- A mark that is never written out. -/
  | localFunction (loc : Location) (name : String)
  /-- A mark that is never written out. -/
  | useNamespace (loc : Location) (space : String)

def TypedStmt.loc : TypedStmt → Location
  | declare loc _ _ _ | expr loc _ | nonAssign loc _ | block loc _ | localFunction loc _
  | useNamespace loc _ => loc

end Dynascript
