import Dynascript.Source.Location

/-!
# Written types

A type as the source writes it : a name that may be dotted, type arguments, and the
number of dimensions of a native array.
-/

namespace Dynascript

/-- A written type; `rank` is `0` when it is not an array. -/
inductive TypeName where
  | mk (name : String) (args : List TypeName) (rank : Nat) (loc : Location)

namespace TypeName

def name : TypeName → String
  | mk name _ _ _ => name

def args : TypeName → List TypeName
  | mk _ args _ _ => args

def rank : TypeName → Nat
  | mk _ _ rank _ => rank

def loc : TypeName → Location
  | mk _ _ _ loc => loc

/-- `name.<args>` -/
def generic (name : String) (args : List TypeName) (loc : Location) : TypeName :=
  mk name args 0 loc

def simple (name : String) (loc : Location) : TypeName := generic name [] loc

/-- The type with `extra` more dimensions, if their number is still 32 bits wide. -/
def arrayOf? (element : TypeName) (extra : Nat) : Option TypeName :=
  if element.rank + extra ≤ maxWord then
    some (mk element.name element.args (element.rank + extra) element.loc)
  else none

mutual

/-- Whether two written types are the same, places included. -/
def same : TypeName → TypeName → Bool
  | mk name args rank loc, mk name' args' rank' loc' =>
    name == name' && sameAll args args' && rank == rank' && loc == loc'

def sameAll : List TypeName → List TypeName → Bool
  | [], [] => true
  | t :: ts, t' :: ts' => same t t' && sameAll ts ts'
  | _, _ => false

end

end TypeName

end Dynascript
