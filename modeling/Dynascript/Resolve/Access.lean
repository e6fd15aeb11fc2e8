import Dynascript.Resolve.Written
import Dynascript.Typed.Stmt

/-!
# Members, elements and calls

What becomes of an access or a call once its parts are resolved.
-/

namespace Dynascript.Resolve

/-- A literal has the type of its kind. -/
def ofLiteral (loc : Location) : Literal → TypedExpr
  | .string s => .constant (.value .string loc) (.string s)
  | .int n => .constant (.value .int loc) (.int n)
  | .number x => .constant (.value .number loc) (.number x)
  | .bool b => .constant (.value .boolean loc) (.bool b)
  | .null => .constant (.value .null loc) .null

/-- A string constant that the source does not spell as one. -/
def stringConstant (loc : Location) (s : String) : TypedExpr :=
  .constant (.value .string loc) (.string s)

/-- A name is a local variable or else a type. -/
def ofName (loc : Location) (name : String) : Resolve (Option TypedExpr) := do
  match ← localType name with
  | some type => return some (.localVar ⟨type, .place, loc⟩ name)
  | none =>
    match ← see (·.lookup name 0) with
    | some type => return some (.typeRef ⟨type, .type, loc⟩)
    | none => fail .unknownName loc [name]

/-- A written type as an expression, placed where the type is written. -/
def ofTypeName (type : TypeName) : Resolve (Option TypedExpr) := do
  andThen (← writtenType true type) fun id =>
    return some (.typeRef ⟨id, .type, type.loc⟩)

/-- Complain that `type` has no member `name`. -/
def failNoMember {α : Type} (loc : Location) (type : TypeId) (name : String) :
    Resolve (Option α) := do
  fail .noSuchMember loc [← typeName type, name]

/-- `target.name`, read or assigned. -/
def memberOf (loc : Location) (target : TypedExpr) (name : String) :
    Resolve (Option TypedExpr) := do
  let wantsStatic := target.role == .type
  let late := TypedExpr.dynamicMember ⟨.dynamic, .place, loc⟩ target name
  let dynamic ← if wantsStatic then pure false else ask (·.isDynamic target.type)
  if dynamic then return some late
  let otherwise : Resolve (Option TypedExpr) := do
    let keyed ← if wantsStatic then pure false else ask (·.isDynamicClass target.type)
    if keyed then return some late else failNoMember loc target.type name
  match ← ask (·.findMember target.type name) with
  | some (owner, member) =>
    if member.isStatic = wantsStatic then
      match member.kind with
      | .field type =>
        if wantsStatic then return some (.staticField ⟨type, .place, loc⟩ owner name)
        else return some (.instanceField ⟨type, .place, loc⟩ target owner name)
      | .method .. | .indexer .. => fail .methodAsValue loc [name]
    else otherwise
  | none => otherwise

/-- The type of `target[…]`, if `target` can be indexed. -/
def elementType (target : TypeId) : Resolve (Option TypeId) := do
  if ← ask (·.isDynamic target) then return some .dynamic
  match ← ask (·.arrayElement target) with
  | some (element, _) => return some element
  | none =>
    match ← ask (·.findMember target Member.indexerName) with
    | some (_, indexer) => return some indexer.valueType
    | none => if ← ask (·.isDynamicClass target) then return some .dynamic else return none

/-- `target[args]`, read or assigned. -/
def elementOf (loc : Location) (target : TypedExpr) (args : List TypedExpr) :
    Resolve (Option TypedExpr) := do
  match ← elementType target.type with
  | some type => return some (.element ⟨type, .place, loc⟩ target args)
  | none => fail .notIndexable loc [← typeName target.type]

/-- What is known of a call with result type `result`. -/
def callInfo (loc : Location) (result : TypeId) : Info :=
  ⟨result, if result = .void then .nothing else .value, loc⟩

/-- The method `name` of `owner` : the type it belongs to and its result type. -/
def findMethod (loc : Location) (owner : TypeId) (name : String) (isStatic : Bool) :
    Resolve (Option (TypeId × TypeId)) := do
  match ← ask (·.findMember owner name) with
  | some (declaring, member) =>
    if member.isStatic = isStatic then
      match member.kind with
      | .method _ result => return some (declaring, result)
      | .field .. | .indexer .. => fail .notInvocable loc [name]
    else failNoMember loc owner name
  | none => failNoMember loc owner name

/-- `owner.name(args)` on a type. -/
def staticCall (loc : Location) (owner : TypeId) (name : String) (args : List TypedExpr) :
    Resolve (Option TypedExpr) := do
  andThen (← findMethod loc owner name true) fun (declaring, result) =>
    return some (.staticCall (callInfo loc result) declaring name args)

/-- `receiver.name(args)`, with the method looked up on `owner`. -/
def instanceCall (loc : Location) (receiver : TypedExpr) (owner : TypeId) (name : String)
    (args : List TypedExpr) : Resolve (Option TypedExpr) := do
  andThen (← findMethod loc owner name false) fun (declaring, result) =>
    return some (.instanceCall (callInfo loc result) receiver declaring name args)

/-- `receiver.name(args)`, with the method looked up when the program runs. -/
def lateCall (loc : Location) (receiver : TypedExpr) (name : String) (args : List TypedExpr) :
    TypedExpr :=
  .dynamicCall (.value .dynamic loc) receiver name args

/-- `receiver.name(args)`, where the receiver may be a type. -/
def methodCall (loc : Location) (receiver : TypedExpr) (name : String)
    (args : List TypedExpr) : Resolve (Option TypedExpr) := do
  if receiver.role = .type then staticCall loc receiver.type name args
  else if ← ask (·.isDynamic receiver.type) then return some (lateCall loc receiver name args)
  else
    match ← ask (·.findMember receiver.type name) with
    | some (_, member) =>
      if member.isField then
        if ← ask (·.isDynamic member.valueType) then
          andThen (← memberOf loc receiver name) fun field =>
            return some (.dynamicInvoke (.value .dynamic loc) field args)
        else fail .notInvocable loc [name]
      else instanceCall loc receiver receiver.type name args
    | none =>
      if ← ask (·.isDynamicClass receiver.type) then return some (lateCall loc receiver name args)
      else instanceCall loc receiver receiver.type name args

/-- `callee(args)`, where the callee is not a member access. -/
def invoke (loc : Location) (source : Expr) (callee : TypedExpr) (args : List TypedExpr) :
    Resolve (Option TypedExpr) := do
  let dynamic ← if callee.role = .type then pure false else ask (·.isDynamic callee.type)
  if dynamic then return some (.dynamicInvoke (.value .dynamic loc) callee args)
  else fail .notInvocable loc [source.display]

end Dynascript.Resolve
