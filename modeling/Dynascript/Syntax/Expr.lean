import Dynascript.Syntax.Literal
import Dynascript.Syntax.TypeName

/-!
# Expressions

The expressions of the source, before anything is known about their types. Each node
carries its location. `Expr.same` is equality with locations, under which a NaN
literal differs from itself.
-/

namespace Dynascript

mutual

/-- An expression as written. -/
inductive Expr where
  | literal (loc : Location) (value : Literal)
  | name (loc : Location) (name : String)
  /-- `target.name` -/
  | member (loc : Location) (target : Expr) (name : String)
  /-- `target[args]` -/
  | element (loc : Location) (target : Expr) (args : List Expr)
  /-- `callee(args)` -/
  | call (loc : Location) (callee : Expr) (args : List Expr)
  /-- `target = value` -/
  | assign (loc : Location) (target value : Expr)
  /-- A type written where an expression may stand. -/
  | typeRef (loc : Location) (type : TypeName)
  /-- `{ name: value, … }` -/
  | object (loc : Location) (fields : List Field)
  /-- `[a, b, …]`, with the element type when one is written at the literal. -/
  | array (loc : Location) (elements : List Expr) (vector : Option TypeName)
  | delete (loc : Location) (operand : Expr)
  | new (loc : Location) (operand : Expr)
  | typeof (loc : Location) (operand : Expr)
  /-- `key in container` -/
  | isIn (loc : Location) (key container : Expr)
  | undefined (loc : Location)
  | regex (loc : Location) (value : RegexLiteral)
  | xml (loc : Location) (value : XmlLiteral)
  /-- `source.(query)` -/
  | xmlQuery (loc : Location) (source query : Expr)

/-- One `name: value` of an object initializer. -/
inductive Field where
  | mk (name : String) (loc : Location) (value : Expr)

end

namespace Field

def name : Field → String
  | mk name _ _ => name

def loc : Field → Location
  | mk _ loc _ => loc

def value : Field → Expr
  | mk _ _ value => value

end Field

namespace Expr

def loc : Expr → Location
  | literal loc _ | name loc _ | member loc _ _ | element loc _ _ | call loc _ _
  | assign loc _ _ | typeRef loc _ | object loc _ | array loc _ _ | delete loc _
  | new loc _ | typeof loc _ | isIn loc _ _ | undefined loc | regex loc _ | xml loc _
  | xmlQuery loc _ _ => loc

/-- What kind of expression this is, in words. -/
def kindName : Expr → String
  | literal .. => "literal"
  | name .. => "name"
  | member .. => "member access"
  | element .. => "element access"
  | call .. => "invocation"
  | assign .. => "assignment"
  | typeRef .. => "type reference"
  | object .. => "object initializer"
  | array .. => "array initializer"
  | delete .. => "delete"
  | new .. => "new"
  | typeof .. => "typeof"
  | isIn .. => "in"
  | undefined .. => "undefined"
  | regex .. => "regex literal"
  | xml .. => "xml literal"
  | xmlQuery .. => "xml query"

/-- `a.b.c` for a chain of names. -/
def path? : Expr → Option String
  | name _ n => some n
  | member _ target n => (path? target).map (· ++ "." ++ n)
  | _ => none

/-- The first name of such a chain. -/
def root? : Expr → Option String
  | name _ n => some n
  | member _ target _ => root? target
  | _ => none

/-- How an expression reads in a complaint. -/
def display (e : Expr) : String := e.path?.getD e.kindName

/-- Whether the written element types of two array initializers are the same. -/
def sameVector : Option TypeName → Option TypeName → Bool
  | some t, some t' => t.same t'
  | none, none => true
  | _, _ => false

mutual

/-- Whether two expressions are the same, places included. -/
def same : Expr → Expr → Bool
  | literal l a, literal l' b => a.same b && l == l'
  | name l a, name l' b => a == b && l == l'
  | member l t n, member l' t' n' => same t t' && n == n' && l == l'
  | element l t as, element l' t' as' => same t t' && sameAll as as' && l == l'
  | call l c as, call l' c' as' => same c c' && sameAll as as' && l == l'
  | assign l t v, assign l' t' v' => same t t' && same v v' && l == l'
  | typeRef l t, typeRef l' t' => t.same t' && l == l'
  | object l fs, object l' fs' => sameFields fs fs' && l == l'
  | array l es v, array l' es' v' => sameAll es es' && sameVector v v' && l == l'
  | delete l o, delete l' o' => same o o' && l == l'
  | new l o, new l' o' => same o o' && l == l'
  | typeof l o, typeof l' o' => same o o' && l == l'
  | isIn l k c, isIn l' k' c' => same k k' && same c c' && l == l'
  | undefined l, undefined l' => l == l'
  | regex l r, regex l' r' => r == r' && l == l'
  | xml l x, xml l' x' => x == x' && l == l'
  | xmlQuery l s q, xmlQuery l' s' q' => same s s' && same q q' && l == l'
  | _, _ => false

def sameAll : List Expr → List Expr → Bool
  | [], [] => true
  | e :: es, e' :: es' => same e e' && sameAll es es'
  | _, _ => false

def sameFields : List Field → List Field → Bool
  | [], [] => true
  | .mk n l v :: fs, .mk n' l' v' :: fs' =>
    n == n' && same v v' && l == l' && sameFields fs fs'
  | _, _ => false

end

end Expr

end Dynascript
