import Dynascript.Syntax.Expr

/-!
# Statements
-/

namespace Dynascript

/-- `var name: type = value` -/
structure Declaration where
  name : String
  type : Option TypeName
  value : Option Expr
  loc : Location

/-- A parameter of a local function. -/
structure Parameter where
  name : String
  type : Option TypeName

/-- A statement as written. -/
inductive Stmt where
  | declare (loc : Location) (declaration : Declaration)
  /-- An assignment, a call, `delete` or `new`. -/
  | expr (loc : Location) (e : Expr)
  /-- Any other expression; it is run for its effects only. -/
  | nonAssign (loc : Location) (e : Expr)
  | block (loc : Location) (body : List Stmt)
  /-- A function inside a function. Its declaration as a variable is made elsewhere, so
  here it only marks the place. -/
  | localFunction (loc : Location) (name : String) (parameters : List Parameter)
      (result : Option TypeName) (body : List Stmt) (declaration : Declaration)
  | useNamespace (loc : Location) (space : String)

def Stmt.loc : Stmt → Location
  | declare loc _ | expr loc _ | nonAssign loc _ | block loc _
  | localFunction loc _ _ _ _ _ | useNamespace loc _ => loc

end Dynascript
