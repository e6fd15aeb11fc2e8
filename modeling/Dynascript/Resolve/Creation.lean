import Dynascript.Resolve.Access
import Dynascript.Resolve.Site

/-!
# Construction, initializers and the dynamic operators

What becomes of `new`, of initializers and of `delete`, `typeof` and `in` once their
parts are resolved. For the native target the operators turn into calls of the runtime.

The dimensions of an array are counted by 32-bit words : fewer than 2^32 of them are
assumed.
-/

namespace Dynascript.Resolve

/-- Whether `type` has instances; if not, complain. -/
def checkConstructible (loc : Location) (type : TypeId) : Resolve Bool := do
  let flags ← ask (·.flags type)
  if flags.intersects (.unconstructible ∪ .dynamic) then
    complain .notConstructible loc [← typeName type]
    return false
  else return true

/-- `new type(args)` -/
def construct (loc : Location) (type : TypeId) (args : List TypedExpr) :
    Resolve (Option TypedExpr) := do
  if ← checkConstructible loc type then return some (.new (.value type loc) args)
  else return none

/-- `operand` seen as `type`. -/
def castTo (type : TypeId) (operand : TypedExpr) : TypedExpr :=
  .cast (.value type operand.loc) operand

/-! ## `new` -/

/-- `new operand(args)` for an operand that is not written as a type. -/
def newOf (loc : Location) (source : Expr) (operand : TypedExpr) (args : List TypedExpr) :
    Resolve (Option TypedExpr) := do
  if operand.role = .type then construct loc operand.type args
  else if ← ask (·.isDynamic operand.type) then
    return some (.dynamicNew (.value .dynamic loc) operand args)
  else fail .valueNotType source.loc [source.display]

/-- The part of a dotted path before its first point. -/
def firstSegment (path : String) : String := String.ofList (path.toList.takeWhile (· != '.'))

/-- The element type of `new target[…]`. -/
def newElementType (target : Expr) : Resolve (Option TypeId) := do
  match target with
  | .typeRef _ type => writtenType true type
  | _ =>
    match ← exprType target with
    | some type => return some type
    | none =>
      let unknown ← match target.path? with
        | some path => pure (← localType (firstSegment path)).isNone
        | none => pure false
      if unknown then fail .unknownType target.loc [target.display]
      else fail .valueNotType target.loc [target.display]

/-- Whether `new target[args]` may be tried; if not, complain. -/
def checkNewArray (loc : Location) (target : Expr) (args : List Expr) : Resolve Bool := do
  let refuse (message : Message) : Resolve Bool := do
    complain message loc []
    return false
  if !(← isExtended) then refuse .arrayOutsideExtended
  else
    match target with
    | .element .. => refuse .jaggedArray
    | _ => if args.isEmpty then refuse .arrayWithoutSize else return true

/-- `new element[dimensions]` -/
def newArray (loc : Location) (element : TypeId) (dimensions : List TypedExpr) :
    Resolve (Option TypedExpr) := do
  let type ← makeArray element dimensions.length
  return some (.newArray (.value type loc) element dimensions)

/-! ## Initializers -/

/-- Whether every field is an instance field of `type`; complain of each that is not. -/
def checkFields (type : TypeId) : List Field → Resolve Bool
  | [] => return true
  | .mk name loc _ :: rest => do
    let known ← match ← ask (·.findMember type name) with
      | some (_, member) => pure (!member.isStatic && member.isField)
      | none => pure false
    if !known then complain .noSuchMember loc [← typeName type, name]
    let restKnown ← checkFields type rest
    return known && restKnown

/-- An object initializer of `type`. A type that takes no members by key takes the fields
it declares and no others. -/
def objectOf (loc : Location) (type : TypeId) (fields : List Field)
    (properties : List Property) : Resolve (Option TypedExpr) := do
  if ← isScript then return some (.objectLiteral (.value type loc) properties)
  else if ← checkConstructible loc type then
    let accepted ← if ← ask (·.isDynamicCapable type) then pure true else checkFields type fields
    if accepted then
      return some (.newWith (.value type loc) []
        (properties.map fun p => .named p.name p.value))
    else return none
  else return none

/-- The length of an initializer as a constant. -/
def lengthConstant (loc : Location) (n : Nat) : TypedExpr :=
  .constant (.value .int loc)
    (.int (if n < 0x8000000000000000 then Int64.ofNat n else Int64.maxValue))

/-- An array initializer of `type`. -/
def arrayOf (loc : Location) (type : TypeId) (elements : List TypedExpr) :
    Resolve (Option TypedExpr) := do
  if ← isScript then return some (.arrayLiteral (.value type loc) elements)
  else
    match ← ask (·.arrayElement type) with
    | some (element, rank) =>
      if rank = 1 then
        return some (.arrayOf (.value type loc) element [lengthConstant loc elements.length]
          elements)
      else fail .initializerRank loc [← typeName type]
    | none =>
      if ← checkConstructible loc type then
        return some (.newWith (.value type loc) [] (elements.map .element))
      else return none

/-! ## Operators -/

/-- `delete` for the native target. On arrays an index is refused in its own words. -/
def deleteOf (loc : Location) (target key : TypedExpr) (indexed : Bool) :
    Resolve (Option TypedExpr) := do
  let onArray ← if indexed then ask (·.isArray target.type) else pure false
  if onArray then fail .deleteOnArray loc []
  else if ← ask (·.isDynamicCapable target.type) then
    instanceCall loc (castTo .dynamicClass target) .dynamicClass deleteMethod [key]
  else fail .deleteOnFixedType loc []

/-- `typeof operand` : a call of the helper under the root namespace. -/
def typeofOf (loc : Location) (operand : TypedExpr) : Resolve (Option TypedExpr) := do
  if ← isScript then return some (.scriptTypeof (.value .dynamic loc) operand)
  else
    let helper := (← context).settings.root ++ "." ++ typeofClass
    match ← see (·.lookup helper 0) with
    | some owner => staticCall loc owner typeofMethod [operand]
    | none => fail .unknownType loc [helper]

/-- `key in container` -/
def inOf (loc : Location) (key container : TypedExpr) : Resolve (Option TypedExpr) := do
  if ← isScript then return some (.scriptIn (.value .boolean loc) key container)
  else if ← ask (·.isDynamic container.type) then
    let dictionary ← makeGeneric .dictionaryGeneric [.string, .object]
    instanceCall loc (castTo dictionary container) dictionary "ContainsKey" [key]
  else
    let keyed ← ask (·.implements container.type .dictionary)
    instanceCall loc container container.type (if keyed then "ContainsKey" else "Contains") [key]

/-! ## Literals of the dynamic language -/

/-- `undefined` is a field of the runtime. -/
def undefinedOf (loc : Location) : Resolve TypedExpr := do
  if ← isScript then return .scriptUndefined (.value .dynamic loc)
  else return .staticField (.value .undefined loc) .undefined undefinedField

def regexOf (loc : Location) (r : RegexLiteral) : Resolve (Option TypedExpr) := do
  if ← isScript then return some (.constant (.value .regexp loc) (.regex r))
  else construct loc .regexp [stringConstant loc r.pattern, stringConstant loc r.options]

def xmlOf (loc : Location) (x : XmlLiteral) : Resolve (Option TypedExpr) := do
  if ← isScript then return some (.constant (.value .xml loc) (.xml x))
  else construct loc .xml [stringConstant loc x.text]

end Dynascript.Resolve
