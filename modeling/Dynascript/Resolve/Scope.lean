import Dynascript.Types.Table

/-!
# Scopes of local variables

A stack of scopes that is never empty. A name is looked up from the innermost scope
outwards, and a declaration goes into the innermost one, where it hides older
declarations of the name.
-/

namespace Dynascript

/-- The variables of one block with their types, newest first. -/
abbrev Scope := List (String × TypeId)

/-- The innermost scope and those around it. -/
structure Scopes where
  inner : Scope := []
  outer : List Scope := []

namespace Scopes

/-- One empty scope. -/
def fresh : Scopes := {}

/-- Enter a block. -/
def push (s : Scopes) : Scopes := ⟨[], s.inner :: s.outer⟩

/-- Leave a block. The last scope stays. -/
def pop (s : Scopes) : Scopes :=
  match s.outer with
  | [] => s
  | inner :: outer => ⟨inner, outer⟩

def declare (s : Scopes) (name : String) (type : TypeId) : Scopes :=
  { s with inner := (name, type) :: s.inner }

/-- The type of the variable that `name` denotes. -/
def lookup (s : Scopes) (name : String) : Option TypeId :=
  (s.inner :: s.outer).findSome? (List.lookup name)

/-- Whether `name` denotes a variable. -/
def declares (s : Scopes) (name : String) : Bool := (s.lookup name).isSome

end Scopes

end Dynascript
