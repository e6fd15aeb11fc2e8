import Dynascript.Syntax.Literal
import Dynascript.Types.Table

/-!
# Resolved expressions

What resolution makes of an expression. Every node carries its type, its role and its
location, so there is nothing left to ask about it. Nodes named `script…` and the two
literals are for the script target only.
-/

namespace Dynascript

/-- How a resolved expression may be used. -/
inductive Role where
  | value
  /-- A value that can be assigned to. -/
  | place
  /-- A type and not a value. -/
  | type
  | nothing
deriving DecidableEq

/-- Whether there is a value to use. -/
def Role.hasValue : Role → Bool
  | value | place => true
  | type | nothing => false

/-- What is known of a resolved expression. -/
structure Info where
  type : TypeId
  role : Role
  loc : Location
deriving DecidableEq

/-- What is known of an expression that is a plain value. -/
def Info.value (type : TypeId) (loc : Location) : Info := ⟨type, .value, loc⟩

inductive Constant where
  | string (value : String)
  | int (value : Int64)
  | number (value : Binary64)
  | bool (value : Bool)
  | null
  | regex (value : RegexLiteral)
  | xml (value : XmlLiteral)
deriving DecidableEq

mutual

/-- A resolved expression. -/
inductive TypedExpr where
  | constant (info : Info) (value : Constant)
  | localVar (info : Info) (name : String)
  /-- The type of the node, as an expression. -/
  | typeRef (info : Info)
  | staticField (info : Info) (owner : TypeId) (name : String)
  | instanceField (info : Info) (target : TypedExpr) (owner : TypeId) (name : String)
  /-- A member looked up when the program runs. -/
  | dynamicMember (info : Info) (target : TypedExpr) (name : String)
  | element (info : Info) (target : TypedExpr) (args : List TypedExpr)
  | staticCall (info : Info) (owner : TypeId) (method : String) (args : List TypedExpr)
  | instanceCall (info : Info) (receiver : TypedExpr) (owner : TypeId) (method : String)
      (args : List TypedExpr)
  /-- A method looked up when the program runs. -/
  | dynamicCall (info : Info) (receiver : TypedExpr) (method : String) (args : List TypedExpr)
  /-- A call of a dynamic value. -/
  | dynamicInvoke (info : Info) (callee : TypedExpr) (args : List TypedExpr)
  /-- The operand seen as the type of the node. -/
  | cast (info : Info) (operand : TypedExpr)
  /-- A new instance of the type of the node. -/
  | new (info : Info) (args : List TypedExpr)
  /-- A new instance of whatever type a dynamic value stands for. -/
  | dynamicNew (info : Info) (callee : TypedExpr) (args : List TypedExpr)
  /-- A new instance of the type of the node, then filled. -/
  | newWith (info : Info) (args : List TypedExpr) (initializers : List Initializer)
  /-- A native array of the type of the node, by its dimensions. -/
  | newArray (info : Info) (element : TypeId) (dimensions : List TypedExpr)
  /-- A native array of the type of the node, then filled. -/
  | arrayOf (info : Info) (element : TypeId) (dimensions values : List TypedExpr)
  | assign (info : Info) (target value : TypedExpr)
  | scriptDelete (info : Info) (operand : TypedExpr)
  | scriptNew (info : Info) (operand : TypedExpr)
  | scriptTypeof (info : Info) (operand : TypedExpr)
  | scriptIn (info : Info) (key container : TypedExpr)
  | scriptUndefined (info : Info)
  | objectLiteral (info : Info) (properties : List Property)
  | arrayLiteral (info : Info) (elements : List TypedExpr)

/-- One step of filling a new instance. -/
inductive Initializer where
  /-- The value is added to a collection. -/
  | element (value : TypedExpr)
  /-- The value is stored under a name. -/
  | named (name : String) (value : TypedExpr)

/-- One `name: value` of an object literal. -/
inductive Property where
  | mk (name : String) (value : TypedExpr)

end

def Initializer.value : Initializer → TypedExpr
  | element value | named _ value => value

namespace Property

def name : Property → String
  | mk name _ => name

def value : Property → TypedExpr
  | mk _ value => value

end Property

namespace TypedExpr

def info : TypedExpr → Info
  | constant i _ | localVar i _ | typeRef i | staticField i _ _ | instanceField i _ _ _
  | dynamicMember i _ _ | element i _ _ | staticCall i _ _ _ | instanceCall i _ _ _ _
  | dynamicCall i _ _ _ | dynamicInvoke i _ _ | cast i _ | new i _ | dynamicNew i _ _
  | newWith i _ _ | newArray i _ _ | arrayOf i _ _ _ | assign i _ _ | scriptDelete i _
  | scriptNew i _ | scriptTypeof i _ | scriptIn i _ _ | scriptUndefined i
  | objectLiteral i _ | arrayLiteral i _ => i

def type (e : TypedExpr) : TypeId := e.info.type

def role (e : TypedExpr) : Role := e.info.role

def loc (e : TypedExpr) : Location := e.info.loc

/-- The value of a string constant. -/
def string? : TypedExpr → Option String
  | constant _ (.string s) => some s
  | _ => none

/-- What kind of expression this is, in words. -/
def kindName : TypedExpr → String
  | constant .. => "constant"
  | localVar .. => "local"
  | typeRef .. => "type reference"
  | staticField .. => "static field"
  | instanceField .. => "instance field"
  | dynamicMember .. => "dynamic member"
  | element .. => "element access"
  | staticCall .. | instanceCall .. | dynamicCall .. => "call"
  | dynamicInvoke .. => "dynamic invocation"
  | cast .. => "cast"
  | new .. => "new"
  | dynamicNew .. => "dynamic new"
  | newWith .. => "new with initializer"
  | newArray .. | arrayOf .. => "array creation"
  | assign .. => "assignment"
  | scriptDelete .. => "delete"
  | scriptNew .. => "new"
  | scriptTypeof .. => "typeof"
  | scriptIn .. => "in"
  | scriptUndefined .. => "undefined"
  | objectLiteral .. => "object literal"
  | arrayLiteral .. => "array literal"

mutual

/-- Whether the expression can be left out without changing what the program does. -/
def isPure : TypedExpr → Bool
  | constant .. | localVar .. | typeRef .. | staticField .. | scriptUndefined .. => true
  | instanceField _ target _ _ => isPure target
  | cast _ operand | scriptTypeof _ operand => isPure operand
  | objectLiteral _ properties => arePure properties
  | arrayLiteral _ elements => areAllPure elements
  | dynamicMember .. | element .. | staticCall .. | instanceCall .. | dynamicCall ..
  | dynamicInvoke .. | new .. | dynamicNew .. | newWith .. | newArray .. | arrayOf ..
  | assign .. | scriptDelete .. | scriptNew .. | scriptIn .. => false

def areAllPure : List TypedExpr → Bool
  | [] => true
  | e :: es => isPure e && areAllPure es

def arePure : List Property → Bool
  | [] => true
  | .mk _ value :: rest => isPure value && arePure rest

end

end TypedExpr

end Dynascript
