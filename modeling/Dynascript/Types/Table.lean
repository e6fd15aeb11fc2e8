import Dynascript.Source.Location
import Dynascript.Types.Flags

/-!
# The type table

Types are entries of a growing table and are named by their position (`TypeId`). A
handle that lies outside the table is dangling : looking it up gives `Dangling`, which
ends whatever was going on.

Positions, ranks and numbers of type parameters are numbers without a bound. They stand for
32-bit words, so all that is said of tables is meant for fewer than `maxWord` types, whose
handles are words and differ from `TypeId.invalid`. `Catalog` has the words themselves.
-/

namespace Dynascript

/-- A type by its position in the table. -/
structure TypeId where
  index : Nat
deriving DecidableEq, Inhabited

namespace TypeId

/-- A handle that no table gives out. -/
def invalid : TypeId := ⟨maxWord⟩

def text (t : TypeId) : String := "TypeId(" ++ toString t.index ++ ")"

end TypeId

/-- A handle outside the table was looked up. -/
structure Dangling where
  handle : TypeId
deriving DecidableEq

/-- What a member is, with the types of its signature. -/
inductive MemberKind where
  | field (type : TypeId)
  | method (parameters : List TypeId) (result : TypeId)
  /-- `target[key]` gives a `value`. -/
  | indexer (key value : TypeId)
deriving DecidableEq

/-- A member of a class or interface. -/
structure Member where
  name : String
  kind : MemberKind
  isStatic : Bool := false
deriving DecidableEq

namespace Member

/-- The name under which a type keeps its indexer. -/
def indexerName : String := "Item"

def field (name : String) (type : TypeId) : Member := ⟨name, .field type, false⟩

def staticField (name : String) (type : TypeId) : Member := ⟨name, .field type, true⟩

def method (name : String) (parameters : List TypeId) (result : TypeId) : Member :=
  ⟨name, .method parameters result, false⟩

def staticMethod (name : String) (parameters : List TypeId) (result : TypeId) : Member :=
  ⟨name, .method parameters result, true⟩

def indexer (key value : TypeId) : Member := ⟨indexerName, .indexer key value, false⟩

/-- The type that a use of the member has. -/
def valueType (m : Member) : TypeId :=
  match m.kind with
  | .field type => type
  | .method _ result => result
  | .indexer _ value => value

def isField (m : Member) : Bool :=
  match m.kind with
  | .field _ => true
  | _ => false

end Member

/-- What a class or interface says of itself. -/
structure ClassBody where
  base : Option TypeId := none
  interfaces : List TypeId := []
  /-- Members, newest first; of two with one name the newer one counts. -/
  members : List Member := []
  /-- The number of type parameters. -/
  arity : Nat := 0

def ClassBody.member? (c : ClassBody) (name : String) : Option Member :=
  c.members.find? (·.name == name)

/-- The sorts of types. -/
inductive TypeKind where
  | builtin
  /-- A class or interface, generic definitions included. -/
  | declared (body : ClassBody)
  /-- A native array. -/
  | array (element : TypeId) (rank : Nat)
  /-- `definition.<args>` -/
  | generic (definition : TypeId) (args : List TypeId)
  /-- A type parameter of a generic definition, by number. -/
  | parameter (index : Nat)

/-- An entry of the table. -/
structure TypeEntry where
  id : TypeId
  flags : TypeFlags
  name : String
  /-- The dotted namespace, empty for none. -/
  space : String
  kind : TypeKind

/-- The types, each at the position of its handle. -/
structure TypeTable where
  entries : Array TypeEntry

namespace TypeTable

def empty : TypeTable := ⟨#[]⟩

def size (t : TypeTable) : Nat := t.entries.size

def isEmpty (t : TypeTable) : Bool := t.entries.isEmpty

/-- The handle that the next type gets. -/
def next (t : TypeTable) : TypeId := ⟨t.entries.size⟩

/-- The table with one more type. -/
def add (t : TypeTable) (flags : TypeFlags) (name space : String) (kind : TypeKind) : TypeTable :=
  ⟨t.entries.push ⟨t.next, flags, name, space, kind⟩⟩

/-- The entry behind a handle. -/
def get (t : TypeTable) (id : TypeId) : Except Dangling TypeEntry :=
  match t.entries[id.index]? with
  | some entry => .ok entry
  | none => .error ⟨id⟩

/-- The first entry whose kind passes a test. -/
def findKind? (t : TypeTable) (p : TypeKind → Bool) : Option TypeId :=
  (t.entries.findIdx? (p ·.kind)).map TypeId.mk

/-- The instance of `definition` with `args` that the table already holds. -/
def instance? (t : TypeTable) (definition : TypeId) (args : List TypeId) : Option TypeId :=
  t.findKind? fun
    | .generic d as => d == definition && as == args
    | _ => false

/-- The array type of `element` and `rank` that the table already holds. -/
def array? (t : TypeTable) (element : TypeId) (rank : Nat) : Option TypeId :=
  t.findKind? fun
    | .array e r => e == element && r == rank
    | _ => false

/-- The table with `members` added, in order, to a class. Other types have no members
and stay as they are. -/
def addMembers (t : TypeTable) (id : TypeId) (members : List Member) :
    Except Dangling TypeTable := do
  let entry ← t.get id
  match entry.kind with
  | .declared body =>
    let body := { body with members := members.reverse ++ body.members }
    return ⟨t.entries.setIfInBounds id.index { entry with kind := .declared body }⟩
  | _ => return t

end TypeTable

end Dynascript
