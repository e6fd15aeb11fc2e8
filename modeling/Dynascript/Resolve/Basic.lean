import Dynascript.Config.Settings
import Dynascript.Diagnostic.Log
import Dynascript.Resolve.Scope
import Dynascript.Types.Bootstrap

/-!
# Resolution steps

A step of resolution reads the settings and the scopes (`Context`), may add types to the
registry, files diagnostics and gives a value : `Resolve α`. A step that fails gives
`none` and files the reason, so the steps after it still run and still file theirs.
Only a dangling handle ends everything.
-/

namespace Dynascript

/-- What a step of resolution can see besides the registry. -/
structure Context where
  settings : Settings
  scopes : Scopes := .fresh

/-- What a step leaves : its value, the diagnostics it filed, and the registry. -/
structure Outcome (α : Type) where
  value : α
  filed : Log
  registry : Registry

/-- A step of resolution. -/
def Resolve (α : Type) : Type := Context → Registry → Except Dangling (Outcome α)

namespace Resolve

variable {α β γ : Type}

/-- Give a value and do nothing. -/
protected def pure (a : α) : Resolve α := fun _ r => .ok ⟨a, [], r⟩

/-- Do one step and then another; what they file comes in that order. -/
protected def bind (x : Resolve α) (f : α → Resolve β) : Resolve β := fun cx r =>
  match x cx r with
  | .error e => .error e
  | .ok a =>
    match f a.value cx a.registry with
    | .error e => .error e
    | .ok b => .ok ⟨b.value, a.filed ++ b.filed, b.registry⟩

instance : Monad Resolve where
  pure := Resolve.pure
  bind := Resolve.bind

/-- What the step can see. -/
def context : Resolve Context := fun cx r => .ok ⟨cx, [], r⟩

/-- A question to the registry that always has an answer. -/
def see (f : Registry → α) : Resolve α := fun _ r => .ok ⟨f r, [], r⟩

/-- A question to the registry about types that may be dangling. -/
def ask (f : Registry → Except Dangling α) : Resolve α := fun _ r =>
  match f r with
  | .error e => .error e
  | .ok a => .ok ⟨a, [], r⟩

/-- `definition.<args>` -/
def makeGeneric (definition : TypeId) (args : List TypeId) : Resolve TypeId := fun _ r =>
  match r.makeGeneric definition args with
  | .error e => .error e
  | .ok (id, r) => .ok ⟨id, [], r⟩

/-- A native array type. -/
def makeArray (element : TypeId) (rank : Nat) : Resolve TypeId := fun _ r =>
  let made := r.makeArray element rank
  .ok ⟨made.1, [], made.2⟩

/-- File a complaint. -/
def complain (message : Message) (loc : Location) (args : List String) : Resolve Unit :=
  fun _ r => .ok ⟨(), [.ofMessage message loc args], r⟩

/-- File a complaint and fail. -/
def fail (message : Message) (loc : Location) (args : List String) : Resolve (Option α) := do
  complain message loc args
  return none

/-- Do a step under other scopes. -/
def under (scopes : Scopes) (x : Resolve α) : Resolve α := fun cx => x { cx with scopes }

/-- Go on with a value if there is one. -/
def andThen (a : Option α) (f : α → Resolve (Option β)) : Resolve (Option β) :=
  match a with
  | some a => f a
  | none => return none

/-- Go on with two values if both are there. -/
def both (a : Option α) (b : Option β) (f : α → β → Resolve (Option γ)) :
    Resolve (Option γ) :=
  match a, b with
  | some a, some b => f a b
  | _, _ => return none

/-- The type of a local variable. -/
def localType (name : String) : Resolve (Option TypeId) := do
  return (← context).scopes.lookup name

def typeName (type : TypeId) : Resolve String := ask (·.nameOf type)

def isScript : Resolve Bool := do
  return (← context).settings.isScript

def isExtended : Resolve Bool := do
  return (← context).settings.isExtended

end Resolve

end Dynascript
