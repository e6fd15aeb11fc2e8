import Dynascript.Text.Escaped
import Dynascript.Types.Search

/-!
# The type registry

A registry is a type table with names for its types. A class is known by its simple
name and, if it has a namespace, by its dotted name; each name goes together with a
number of type parameters. The first type to take a name keeps it.

Generic instances and native arrays are made on demand (`makeGeneric`, `makeArray`),
each at most once : a request searches the table first. That is what the answers are. How
they are found is the matter of `Catalog`, which keeps an index for each kind of question
in the place of a search.
-/

namespace Dynascript

/-- A class or interface about to be declared. -/
structure ClassDecl where
  name : String
  space : String := ""
  flags : TypeFlags
  base : Option TypeId := none
  interfaces : List TypeId := []
  /-- Members in written order; of two with one name the later one counts. -/
  members : List Member := []
  arity : Nat := 0

namespace ClassDecl

def ofClass (name : String) : ClassDecl where
  name := name
  flags := .plainClass

def ofInterface (name : String) : ClassDecl where
  name := name
  flags := .interface

def inSpace (d : ClassDecl) (space : String) : ClassDecl := { d with space }

def withFlags (d : ClassDecl) (flags : TypeFlags) : ClassDecl :=
  { d with flags := d.flags ∪ flags }

/-- Instances take members by key when the program runs. -/
def dynamic (d : ClassDecl) : ClassDecl := d.withFlags .dynamicClass

def generic (d : ClassDecl) (arity : Nat) : ClassDecl :=
  { d.withFlags .genericDefinition with arity }

def extending (d : ClassDecl) (base : TypeId) : ClassDecl := { d with base := some base }

def implementing (d : ClassDecl) (iface : TypeId) : ClassDecl :=
  { d with interfaces := d.interfaces ++ [iface] }

def withMember (d : ClassDecl) (m : Member) : ClassDecl :=
  { d with members := d.members ++ [m] }

def body (d : ClassDecl) : ClassBody where
  base := d.base
  interfaces := d.interfaces
  members := d.members.reverse
  arity := d.arity

end ClassDecl

/-- A name, with a number of type parameters, that was given to a type. -/
structure NameBinding where
  name : String
  arity : Nat
  type : TypeId

/-- A change that a user of a registry can make. -/
inductive RegistryOp where
  | declare (d : ClassDecl)
  | addMembers (id : TypeId) (members : List Member)
  | makeGeneric (definition : TypeId) (args : List TypeId)
  | makeArray (element : TypeId) (rank : Nat)

/-- Types and their names. -/
structure Registry where
  table : TypeTable
  /-- Names in the order in which they were given; the first counts. -/
  names : List NameBinding
  /-- The namespace of the `typeof` helper. -/
  root : String

namespace Registry

def empty (root : String) : Registry := ⟨.empty, [], root⟩

/-- The number of types. -/
def size (r : Registry) : Nat := r.table.size

/-- The type known by `name` with `arity` type parameters. -/
def lookup (r : Registry) (name : String) (arity : Nat) : Option TypeId :=
  (r.names.find? fun b => b.name == name && b.arity == arity).map (·.type)

/-- Give a name to a type, unless it is taken. -/
def register (r : Registry) (name : String) (arity : Nat) (type : TypeId) : Registry :=
  { r with names := r.names ++ [⟨name, arity, type⟩] }

/-- Add a type without a name. -/
def addType (r : Registry) (flags : TypeFlags) (name space : String) (kind : TypeKind) :
    Registry :=
  { r with table := r.table.add flags name space kind }

/-- Add a type of the host language. -/
def addBuiltin (r : Registry) (name : String) (flags : TypeFlags) : Registry :=
  (r.addType flags name "" .builtin).register name 0 r.table.next

/-- Add a class or interface and give it its dotted and its simple name. -/
def addClass (r : Registry) (d : ClassDecl) : Registry :=
  let id := r.table.next
  let added := r.addType d.flags d.name d.space (.declared d.body)
  let dotted :=
    if d.space.isEmpty then added
    else added.register (d.space ++ "." ++ d.name) d.arity id
  dotted.register d.name d.arity id

/-- `addClass`, with the handle of the new type. -/
def declare (r : Registry) (d : ClassDecl) : TypeId × Registry :=
  (r.table.next, r.addClass d)

/-- Add members to a class declared earlier. -/
def addMembers (r : Registry) (id : TypeId) (members : List Member) :
    Except Dangling Registry := do
  let table ← r.table.addMembers id members
  return { r with table }

/-- What an instance keeps of the capabilities of its definition. -/
def instanceFlags (definition : TypeFlags) : TypeFlags :=
  definition.diff .genericDefinition ∪ .genericInstance

/-- `definition.<args>`, added to the table if it is new. -/
def makeGeneric (r : Registry) (definition : TypeId) (args : List TypeId) :
    Except Dangling (TypeId × Registry) :=
  match r.table.instance? definition args with
  | some id => .ok (id, r)
  | none => do
    let d ← r.table.get definition
    return (r.table.next,
      r.addType (instanceFlags d.flags) d.name d.space (.generic definition args))

/-- The native array of `element` with `rank` dimensions, added to the table if it is
new. -/
def makeArray (r : Registry) (element : TypeId) (rank : Nat) : TypeId × Registry :=
  match r.table.array? element rank with
  | some id => (id, r)
  | none => (r.table.next, r.addType .array "" "" (.array element rank))

/-! ## Questions -/

def flags (r : Registry) (id : TypeId) : Except Dangling TypeFlags := do
  return (← r.table.get id).flags

def isDynamic (r : Registry) (id : TypeId) : Except Dangling Bool := do
  return (← r.flags id).contains .dynamic

def isArray (r : Registry) (id : TypeId) : Except Dangling Bool := do
  return (← r.flags id).contains .array

def isDynamicClass (r : Registry) (id : TypeId) : Except Dangling Bool := do
  return (← r.flags id).contains .dynamicClass

/-- Whether values of the type take members by key when the program runs. -/
def isDynamicCapable (r : Registry) (id : TypeId) : Except Dangling Bool := do
  return (← r.flags id).intersects (.dynamic ∪ .dynamicClass)

/-- Element type and rank of a native array type. -/
def arrayElement (r : Registry) (id : TypeId) : Except Dangling (Option (TypeId × Nat)) := do
  match (← r.table.get id).kind with
  | .array element rank => return some (element, rank)
  | _ => return none

def implements (r : Registry) (ty iface : TypeId) : Except Dangling Bool :=
  r.table.implements ty iface

def findMember (r : Registry) (ty : TypeId) (name : String) :
    Except Dangling (Option (TypeId × Member)) :=
  r.table.findMember ty name

def typeName (r : Registry) (ty : TypeId) : String := r.table.typeName ty

def nameOf (r : Registry) (ty : TypeId) : Except Dangling String := r.table.nameOf ty

/-- A one-line account of the registry. -/
def summary (r : Registry) : String :=
  "TypeRegistry \x7b types: " ++ toString r.size ++ ", root_namespace: " ++
    Escaped.encode r.root ++ " \x7d"

end Registry

end Dynascript
