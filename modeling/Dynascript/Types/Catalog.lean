import Dynascript.Source.Names
import Dynascript.Types.Bootstrap

/-!
# Catalogs

A `Catalog` is a registry as it is kept : the type table and beside it three indexes. Names are
interned first, and the number of a name leads, with a number of type parameters, to a type. A
definition with its arguments leads to an instance, and an element with a rank to an array. A
request for a type looks into its index and nowhere else; if nothing is filed there, it adds the
type to the table and files it.

A handle is a 32-bit word : the position of the type with all higher bits cut off. So the first
2^32 types have handles of their own, and what is said of catalogs is said of those with no more.
The numbers of names are not cut off : a catalog is taken to hold fewer than 2^32 - 1 names.

`Registry` gives the same answers by searching the table. That the two agree is proved in
`Proofs/Types/Catalog`.
-/

namespace Dynascript

/-- Types filed under keys. -/
structure Index (κ : Type) where
  filed : List (κ × TypeId)

namespace Index

variable {κ : Type}

def empty : Index κ := ⟨[]⟩

variable [DecidableEq κ]

/-- The type filed under a key. -/
def get? (x : Index κ) (key : κ) : Option TypeId :=
  (x.filed.find? (·.1 = key)).map Prod.snd

/-- File a type. -/
def insert (x : Index κ) (key : κ) (id : TypeId) : Index κ := ⟨(key, id) :: x.filed⟩

/-- File a type unless the key is taken. -/
def insertNew (x : Index κ) (key : κ) (id : TypeId) : Index κ :=
  match x.get? key with
  | some _ => x
  | none => x.insert key id

end Index

/-- Types and the indexes that lead to them. -/
structure Catalog where
  table : TypeTable
  /-- Every name that was given, with its number. -/
  interned : NameTable
  /-- By the number of a name and a number of type parameters. -/
  names : Index (Nat × Nat)
  /-- By definition and arguments. -/
  generics : Index (TypeId × List TypeId)
  /-- By element and rank. -/
  arrays : Index (TypeId × Nat)
  /-- The namespace of the `typeof` helper. -/
  root : String

namespace Catalog

def empty (root : String) : Catalog := ⟨.empty, .empty, .empty, .empty, .empty, root⟩

/-- The number of types. -/
def size (c : Catalog) : Nat := c.table.size

/-- The type known by `name` with `arity` type parameters. A name that was never given has
no number. -/
def lookup (c : Catalog) (name : String) (arity : Nat) : Option TypeId :=
  (c.interned.handle? name).bind fun number => c.names.get? (number, arity)

/-- Give a name to a type, unless it is taken. -/
def register (c : Catalog) (name : String) (arity : Nat) (id : TypeId) : Catalog :=
  let numbered := c.interned.intern name
  { c with interned := numbered.2, names := c.names.insertNew (numbered.1, arity) id }

/-- The handle that the next type gets. -/
def next (c : Catalog) : TypeId := ⟨c.size % (maxWord + 1)⟩

/-- Add a type that is filed nowhere. -/
def addType (c : Catalog) (flags : TypeFlags) (name space : String) (kind : TypeKind) : Catalog :=
  { c with table := ⟨c.table.entries.push ⟨c.next, flags, name, space, kind⟩⟩ }

/-- Add a type of the host language. -/
def addBuiltin (c : Catalog) (name : String) (flags : TypeFlags) : Catalog :=
  (c.addType flags name "" .builtin).register name 0 c.next

/-- Add a class or interface and give it its dotted and its simple name. -/
def declare (c : Catalog) (d : ClassDecl) : TypeId × Catalog :=
  let added := c.addType d.flags d.name d.space (.declared d.body)
  let dotted :=
    if d.space.isEmpty then added
    else added.register (d.space ++ "." ++ d.name) d.arity c.next
  (c.next, dotted.register d.name d.arity c.next)

/-- Add members to a class declared earlier. -/
def addMembers (c : Catalog) (id : TypeId) (members : List Member) : Except Dangling Catalog := do
  let table ← c.table.addMembers id members
  return { c with table }

/-- `definition.<args>`, added and filed if it is not filed yet. -/
def makeGeneric (c : Catalog) (definition : TypeId) (args : List TypeId) :
    Except Dangling (TypeId × Catalog) :=
  match c.generics.get? (definition, args) with
  | some id => .ok (id, c)
  | none => do
    let d ← c.table.get definition
    let added :=
      c.addType (Registry.instanceFlags d.flags) d.name d.space (.generic definition args)
    return (c.next, { added with generics := c.generics.insert (definition, args) c.next })

/-- The native array of `element` with `rank` dimensions, added and filed if it is not filed
yet. -/
def makeArray (c : Catalog) (element : TypeId) (rank : Nat) : TypeId × Catalog :=
  match c.arrays.get? (element, rank) with
  | some id => (id, c)
  | none =>
    let added := c.addType .array "" "" (.array element rank)
    (c.next, { added with arrays := c.arrays.insert (element, rank) c.next })

/-- The catalog after a change. -/
def run (c : Catalog) : RegistryOp → Except Dangling Catalog
  | .declare d => .ok (c.declare d).2
  | .addMembers id members => c.addMembers id members
  | .makeGeneric definition args => do
    let made ← c.makeGeneric definition args
    return made.2
  | .makeArray element rank => .ok (c.makeArray element rank).2

end Catalog

/-! ## The types every program starts with -/

/-- A step on the way to the first catalog. Types of the host language and type parameters are
added only there. -/
inductive BootStep where
  | builtin (name : String) (flags : TypeFlags)
  | parameter (name : String) (index : Nat)
  | change (op : RegistryOp)

/-! Handles in the steps are those of types that were added before. -/

def hostSteps : List BootStep :=
  [ .builtin "*" .dynamic,
    .change (.declare (.ofClass "Object")),
    .change (.declare ((ClassDecl.ofClass "String").withFlags .primitive)),
    .builtin "Boolean" .primitive,
    .builtin "int" .primitive,
    .builtin "uint" .primitive,
    .builtin "Number" .primitive,
    .builtin "void" .void,
    .builtin "null" .null,
    .change (.addMembers .object [.method "toString" [] .string]),
    .change (.addMembers .string [.field "length" .int]) ]

def runtimeSteps : List BootStep :=
  [ .parameter "T0" 0,
    .parameter "T1" 1,
    .change (.declare .dictionary),
    .change (.declare .dictionaryGeneric),
    .change (.declare .dynamicClass),
    .change (.declare .array),
    .change (.declare .vector) ]

/-- `Expando` implements an instance, which is made here. -/
def expandoSteps : List BootStep :=
  [ .change (.makeGeneric .dictionaryGeneric [.string, .object]),
    .change (.declare .expando) ]

def literalSteps : List BootStep :=
  [ .change (.declare .regexp),
    .change (.declare .xml),
    .change (.declare .undefined),
    .change (.addMembers .undefined [.staticField undefinedField .undefined]) ]

/-- All steps in their order. -/
def bootSteps (root : String) : List BootStep :=
  hostSteps ++ runtimeSteps ++ expandoSteps ++ literalSteps ++
    [.change (.declare (.typeofHelper root))]

namespace Catalog

/-- The catalog after a step. -/
def boot (c : Catalog) : BootStep → Except Dangling Catalog
  | .builtin name flags => .ok (c.addBuiltin name flags)
  | .parameter name index => .ok (c.addType .typeParameter name "" (.parameter index))
  | .change op => c.run op

/-- The catalog every program starts with. -/
def bootstrap (root : String) : Except Dangling Catalog := (bootSteps root).foldlM boot (empty root)

end Catalog

end Dynascript
