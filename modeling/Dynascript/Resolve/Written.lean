import Dynascript.Resolve.Basic
import Dynascript.Syntax.Expr

/-!
# Written types

Reading a written type against the registry. A dotted name is a type's name as it
stands; `Resolve.pathType` reads a chain of member accesses as one, provided that the
chain does not start at a local variable.

Type arguments are counted by 32-bit words : fewer than 2^32 of them are assumed.
-/

namespace Dynascript.Resolve

/-- The largest number of type parameters tried to explain a wrong one. -/
def maxTriedArity : Nat := 4

/-- Complain about a name with the wrong number of type arguments, or about an unknown
name. -/
def complainOfName (name : String) (loc : Location) : Resolve Unit := do
  let expected ← see fun r =>
    (List.range (maxTriedArity + 1)).find? fun arity => (r.lookup name arity).isSome
  match expected with
  | some arity => complain .typeArgumentCount loc [name, toString arity]
  | none => complain .unknownType loc [name]

/-- The array of `base` with `rank` dimensions, or `base` itself for none. -/
def withRank (base : TypeId) (rank : Nat) : Resolve TypeId :=
  if 0 < rank then makeArray base rank else return base

mutual

/-- The type that is written. Complaints are filed only if `report` is set. -/
def writtenType (report : Bool) : TypeName → Resolve (Option TypeId)
  | .mk name args rank loc => do
    match ← see (·.lookup name args.length) with
    | none =>
      if report then complainOfName name loc
      return none
    | some definition =>
      match args with
      | [] => return some (← withRank definition rank)
      | _ :: _ =>
        andThen (← writtenTypes report args) fun args => do
          let base ← makeGeneric definition args
          return some (← withRank base rank)

/-- The types of a list. Each one is read even if an earlier one fails. -/
def writtenTypes (report : Bool) : List TypeName → Resolve (Option (List TypeId))
  | [] => return some []
  | t :: ts => do
    let type ← writtenType report t
    let types ← writtenTypes report ts
    both type types fun type types => return some (type :: types)

end

/-- The type that a chain of names denotes, unless it starts at a local variable. -/
def pathType (e : Expr) : Resolve (Option TypeId) := do
  match e.root?, e.path? with
  | some root, some path =>
    match ← localType root with
    | some _ => return none
    | none => see (·.lookup path 0)
  | _, _ => return none

/-- An expression read as a type, if it is written like one. Nothing is filed. -/
def exprType (e : Expr) : Resolve (Option TypeId) :=
  match e with
  | .typeRef _ type => writtenType false type
  | .name .. | .member .. => pathType e
  | _ => return none

end Dynascript.Resolve
