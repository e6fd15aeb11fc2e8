import Dynascript.Resolve.Expr
import Dynascript.Syntax.Stmt

/-!
# Resolving statements

Statements thread the scopes : a declaration adds to the innermost scope, whether or
not it resolves, and a block gives back the scopes it was entered with. Every statement
of a list is resolved, even after one has failed.
-/

namespace Dynascript.Resolve

/-- Read the type that a declaration writes; the outer option is `none` if it writes
none. -/
def declarationType (d : Declaration) : Resolve (Option (Option TypeId)) :=
  match d.type with
  | none => return none
  | some type => do return some (← writtenType true type)

/-- Resolve the value of a declaration; the outer option is `none` if it has none. -/
def declarationValue (site : Site) (d : Declaration) : Resolve (Option (Option TypedExpr)) :=
  match d.value with
  | none => return none
  | some e => do return some (← resolve site e)

/-- The type of a variable : the one that is written, else the type of its value, else
dynamic. -/
def variableType (declared : DeclaredType) (value : Option (Option TypedExpr)) : TypeId :=
  match declared, value with
  | .typed type, _ => type
  | .infer, some (some value) => value.type
  | .infer, _ => .dynamic

/-- What the written type of a declaration says; one that failed says nothing. -/
def declaredType : Option (Option TypeId) → DeclaredType
  | some (some type) => .typed type
  | _ => .infer

/-- Resolve a declaration : its statement, if both parts resolve, and the type of the
variable, which is there in any case. -/
def declaration (loc : Location) (d : Declaration) : Resolve (Option TypedStmt × TypeId) := do
  let written ← declarationType d
  let value ← declarationValue (.ofDeclared (declaredType written)) d
  let type := variableType (declaredType written) value
  let stmt := match written, value with
    | some none, _ => none
    | _, some none => none
    | _, some (some value) => some (.declare loc d.name type (some value))
    | _, none => some (.declare loc d.name type none)
  return (stmt, type)

mutual

/-- Resolve a statement, and give the scopes after it. -/
def statement (scopes : Scopes) (s : Stmt) : Resolve (Option TypedStmt × Scopes) :=
  match s with
  | .declare loc d => do
    let (stmt, type) ← under scopes (declaration loc d)
    return (stmt, scopes.declare d.name type)
  | .expr loc e => do
    let typed ← under scopes (resolve .unknown e)
    return (typed.map (.expr loc), scopes)
  | .nonAssign loc e => do
    let typed ← under scopes (resolve .unknown e)
    return (typed.map (.nonAssign loc), scopes)
  | .block loc body => do
    let (body, inside) ← statements scopes.push body
    return (body.map (.block loc), inside.pop)
  | .localFunction loc name _ _ _ _ => return (some (.localFunction loc name), scopes)
  | .useNamespace loc space => return (some (.useNamespace loc space), scopes)

/-- Resolve a list of statements, and give the scopes after it. -/
def statements (scopes : Scopes) (body : List Stmt) :
    Resolve (Option (List TypedStmt) × Scopes) :=
  match body with
  | [] => return (some [], scopes)
  | s :: rest => do
    let (typed, scopes) ← statement scopes s
    let (rest, scopes) ← statements scopes rest
    let all := match typed, rest with
      | some typed, some rest => some (typed :: rest)
      | _, _ => none
    return (all, scopes)

end

end Dynascript.Resolve
