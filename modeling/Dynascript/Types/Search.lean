import Dynascript.Types.Table

/-!
# Searching the type table

Three questions that follow the edges of the table : whether a type implements an
interface, where a member of a type comes from, and how a type is written.

An edge (class to base or interface, instance to definition, array to element) leads to
a type that was there before, so its handle is smaller. Each search below counts the
steps it may still make; one more than the number of types is enough for any path.
-/

namespace Dynascript

namespace TypeTable

/-- `implements` with at most `n` steps. -/
def implementsWithin (t : TypeTable) (iface : TypeId) : Nat → TypeId → Except Dangling Bool
  | 0, ty => .error ⟨ty⟩
  | n + 1, ty =>
    if ty = iface then .ok true
    else do
      match (← t.get ty).kind with
      | .declared body =>
        (body.interfaces ++ body.base.toList).anyM (implementsWithin t iface n)
      | .generic definition _ => implementsWithin t iface n definition
      | _ => return false

/-- Whether `ty` is `iface` or has it above : through interfaces, bases and generic
definitions. -/
def implements (t : TypeTable) (ty iface : TypeId) : Except Dangling Bool :=
  t.implementsWithin iface (t.size + 1) ty

/-- `type`, or the argument it stands for if it is a type parameter. -/
def substitute (t : TypeTable) (args : List TypeId) (type : TypeId) : Except Dangling TypeId := do
  match (← t.get type).kind with
  | .parameter index => return args[index]?.getD type
  | _ => return type

/-- A member with arguments put in for type parameters. -/
def instantiate (t : TypeTable) (args : List TypeId) (m : Member) : Except Dangling Member := do
  match m.kind with
  | .field type =>
    let type ← t.substitute args type
    return { m with kind := .field type }
  | .method parameters result =>
    let parameters ← parameters.mapM (t.substitute args)
    let result ← t.substitute args result
    return { m with kind := .method parameters result }
  | .indexer key value =>
    let key ← t.substitute args key
    let value ← t.substitute args value
    return { m with kind := .indexer key value }

/-- `findMember` with at most `n` steps. -/
def findMemberWithin (t : TypeTable) (name : String) :
    Nat → TypeId → Except Dangling (Option (TypeId × Member))
  | 0, ty => .error ⟨ty⟩
  | n + 1, ty => do
    match (← t.get ty).kind with
    | .declared body =>
      match body.member? name with
      | some m => return some (ty, m)
      | none => (body.base.toList ++ body.interfaces).findSomeM? (findMemberWithin t name n)
    | .generic definition args =>
      match ← findMemberWithin t name n definition with
      | some (_, m) => return some (ty, ← t.instantiate args m)
      | none => return none
    | _ => return none

/-- The member of `ty` called `name` and the type that it belongs to : its own, else one
of its base, else one of its interfaces. A member of a generic instance belongs to the
instance and has the arguments put in. -/
def findMember (t : TypeTable) (ty : TypeId) (name : String) :
    Except Dangling (Option (TypeId × Member)) :=
  t.findMemberWithin name (t.size + 1) ty

/-- The commas between the dimensions of an array. -/
def commas (rank : Nat) : String := String.ofList (List.replicate (rank - 1) ',')

/-- `nameOf` with at most `n` steps. -/
def nameOfWithin (t : TypeTable) : Nat → TypeId → Except Dangling String
  | 0, ty => .error ⟨ty⟩
  | n + 1, ty =>
    match t.entries[ty.index]? with
    | none => if ty = .invalid then .ok "<error>" else .error ⟨ty⟩
    | some entry =>
      match entry.kind with
      | .array element rank => do
        return (← nameOfWithin t n element) ++ "[" ++ commas rank ++ "]"
      | .generic _ args => do
        let names ← args.mapM (nameOfWithin t n)
        return entry.name ++ ".<" ++ ", ".intercalate names ++ ">"
      | _ => .ok entry.name

/-- How a type is written in complaints and in script text, if there is a type behind each
handle that it is made from. The invalid handle has a name too. -/
def nameOf (t : TypeTable) (ty : TypeId) : Except Dangling String :=
  t.nameOfWithin (t.size + 1) ty

/-- The `nameOf` a type that has one. -/
def typeName (t : TypeTable) (ty : TypeId) : String := (t.nameOf ty).toOption.getD "<error>"

end TypeTable

end Dynascript
