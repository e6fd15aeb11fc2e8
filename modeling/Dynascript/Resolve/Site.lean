import Dynascript.Resolve.Written

/-!
# The type of an initializer

An object or array initializer takes its type from where its value goes (`Site`). In
the extended dialect the first of these counts : a type asked for by the caller, an
element type written at the initializer (arrays only), the declared type of the
variable, the type of the assignment's target. Otherwise, and in the strict dialect
with no element type, it is the default collection.
-/

namespace Dynascript

/-- The declared type of a variable. -/
inductive DeclaredType where
  /-- No type is written. -/
  | infer
  | typed (type : TypeId)
deriving DecidableEq

/-- What is known of the place that an expression's value goes to. -/
structure Site where
  asked : Option TypeId := none
  declared : Option DeclaredType := none
  assigned : Option TypeId := none
deriving DecidableEq

namespace Site

/-- Nothing is known. -/
def unknown : Site := {}

def ofDeclared (declared : DeclaredType) : Site := { declared := some declared }

def ofAssigned (type : TypeId) : Site := { assigned := some type }

/-- The type that the place calls for. A declaration without a type, or with the dynamic
type, calls for none, whatever is assigned. -/
def type? (s : Site) : Option TypeId :=
  match s.asked, s.declared with
  | some type, _ => some type
  | none, some (.typed type) => if type = .dynamic then none else some type
  | none, some .infer => none
  | none, none => s.assigned.filter (· != .dynamic)

end Site

namespace Resolve

/-- `type`, or `default` in place of a dynamic type. -/
def concrete (default type : TypeId) : Resolve TypeId := do
  if ← ask (·.isDynamic type) then return default else return type

/-- The type of an object initializer. -/
def objectType (site : Site) : Resolve TypeId := do
  if ← isExtended then concrete .expando (site.type?.getD .expando)
  else return .expando

/-- `Vector.<T>` for the element type written at an array initializer, if it is known. -/
def vectorType (element : Option TypeName) : Resolve (Option TypeId) :=
  match element with
  | none => return none
  | some element => do
    andThen (← writtenType false element) fun element =>
      return some (← makeGeneric .vector [element])

/-- The type of an array initializer. -/
def arrayType (element : Option TypeName) (site : Site) : Resolve TypeId := do
  let extended ← isExtended
  match if extended then site.asked else none with
  | some type => concrete .array type
  | none =>
    match ← vectorType element with
    | some type => return type
    | none =>
      if extended then concrete .array (site.type?.getD .array) else return .array

end Resolve

end Dynascript
