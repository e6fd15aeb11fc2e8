import Dynascript.Emit.Emission
import Dynascript.Native.Instr
import Dynascript.Typed.Stmt
import Dynascript.Types.Bootstrap

/-!
# Native code

The instructions of resolved trees. The code of an expression leaves its value, if it
has one, on the stack; the code of a statement leaves the stack as it was.

An assignment whose value is used can only go to a local variable or a static field; as
a statement of its own it can go to any place (`Native.store`).

Dimensions are counted by 32-bit words : fewer than 2^32 of them are assumed.
-/

namespace Dynascript.Native

/-- The name of this target in errors. -/
def backend : String := "native"

def indexerGet : String := "get_Item"

def indexerSet : String := "set_Item"

/-- A construct that this target does not have. -/
def unsupported (e : TypedExpr) : Emission Instr :=
  .reject (.unsupportedConstruct e.kindName backend e.loc)

/-- An integer constant is loaded in four bytes if it fits. -/
def loadInt (value : Int64) : Instr :=
  if -2147483648 ≤ value.toInt ∧ value.toInt ≤ 2147483647 then .ldcI4 value.toInt32
  else .ldcI8 value

/-- Load a constant. Regular expressions and XML are constructed, never loaded. -/
def loadConstant? : Constant → Option Instr
  | .string s => some (.ldStr s)
  | .int n => some (loadInt n)
  | .number x => some (.ldcR8 x)
  | .bool b => some (.ldcI4 (if b then 1 else 0))
  | .null => some .ldNull
  | .regex _ | .xml _ => none

/-- Load an element of a `target` with `args` indices on the stack. -/
def loadElement (r : Registry) (target : TypeId) (args : Nat) : Except Dangling Instr := do
  if ← r.isDynamic target then return .dynamicGetIndex args
  match ← r.arrayElement target with
  | some (element, rank) =>
    return if rank = 1 then .ldElem element else .ldElemMulti target rank
  | none =>
    match ← r.findMember target Member.indexerName with
    | some (owner, _) => return .callVirt owner indexerGet args
    | none => return .dynamicGetIndex args

/-- Store into an element of a `target` with `args` indices and the value on the stack. -/
def storeElement (r : Registry) (target : TypeId) (args : Nat) : Except Dangling Instr := do
  if ← r.isDynamic target then return .dynamicSetIndex args
  match ← r.arrayElement target with
  | some (element, rank) =>
    return if rank = 1 then .stElem element else .stElemMulti target rank
  | none =>
    match ← r.findMember target Member.indexerName with
    | some (owner, _) => return .callVirt owner indexerSet (args + 1)
    | none => return .dynamicSetIndex args

/-- Why a filled array cannot be written : an initializer fills one dimension. -/
def initializerShape (dimensions rank : Nat) : EmitError :=
  .unsupportedShape "array creation"
    ("initializer with " ++ toString dimensions ++ " dimension expressions for a rank " ++
      toString rank ++ " array")

/-- The index of an initializer's value, if it can be loaded in four bytes. -/
def loadIndex (index : Nat) : Emission Instr :=
  if index < 0x80000000 then .write [.dup, .ldcI4 (Int32.ofNat index)]
  else .reject (.unsupportedShape "array creation" "initializer too long")

mutual

/-- The code of an expression. -/
def code (r : Registry) (e : TypedExpr) : Emission Instr :=
  match e with
  | .constant info value =>
    match loadConstant? value with
    | some load => .write [load]
    | none => unsupported (.constant info value)
  | .localVar _ name => .write [.ldLoc name]
  | .typeRef _ => .reject (.unsupportedShape "type reference" "a type is not a value")
  | .staticField _ owner name => .write [.ldSFld owner name]
  | .instanceField _ target owner name => code r target ++ .write [.ldFld owner name]
  | .dynamicMember _ target name => code r target ++ .write [.dynamicGet name]
  | .element _ target args =>
    code r target ++ codeAll r args ++
      .asking (loadElement r target.type args.length) fun load => .write [load]
  | .staticCall _ owner method args =>
    codeAll r args ++ .write [.call owner method args.length]
  | .instanceCall _ receiver owner method args =>
    code r receiver ++ codeAll r args ++ .write [.callVirt owner method args.length]
  | .dynamicCall _ receiver method args =>
    code r receiver ++ codeAll r args ++ .write [.dynamicCall method args.length]
  | .dynamicInvoke _ callee args =>
    code r callee ++ codeAll r args ++ .write [.dynamicInvoke args.length]
  | .cast info operand => code r operand ++ .write [.castClass info.type]
  | .new info args => codeAll r args ++ .write [.newObj info.type args.length]
  | .dynamicNew _ callee args =>
    code r callee ++ codeAll r args ++ .write [.dynamicNew args.length]
  | .newWith info args initializers =>
    codeAll r args ++ .write [.newObj info.type args.length] ++
      .asking (r.isDynamicCapable info.type) fun keyed => fill r info.type keyed initializers
  | .newArray info element dimensions =>
    codeAll r dimensions ++
      .write [if dimensions.length = 1 then .newArr element
        else .newMultiArr info.type dimensions.length]
  | .arrayOf info element dimensions values =>
    .asking (r.arrayElement info.type) fun array =>
      let rank := (array.map (·.2)).getD 0
      if dimensions.length = 1 ∧ rank = 1 then
        codeAll r dimensions ++ .write [.newArr element] ++ fillArray r element 0 values
      else .reject (initializerShape dimensions.length rank)
  | .assign _ target value =>
    match target with
    | .localVar _ name => code r value ++ .write [.dup, .stLoc name]
    | .staticField _ owner name => code r value ++ .write [.dup, .stSFld owner name]
    | target =>
      .reject (.unsupportedShape "assignment"
        ("value of a " ++ target.kindName ++ " store used as an expression"))
  | .scriptDelete .. | .scriptNew .. | .scriptTypeof .. | .scriptIn .. | .scriptUndefined ..
  | .objectLiteral .. | .arrayLiteral .. => unsupported e
termination_by structural e

/-- The code of expressions one after the other. -/
def codeAll (r : Registry) (es : List TypedExpr) : Emission Instr :=
  match es with
  | [] => .nothing
  | e :: es => code r e ++ codeAll r es
termination_by structural es

/-- Fill the new object on the stack : by key if it is `keyed`, else by field. -/
def fill (r : Registry) (type : TypeId) (keyed : Bool) (initializers : List Initializer) :
    Emission Instr :=
  match initializers with
  | [] => .nothing
  | .element value :: rest =>
    .write [.dup] ++ code r value ++ .write [.callVirt type addMethod 1] ++
      fill r type keyed rest
  | .named name value :: rest =>
    if keyed then
      .write [.dup, .ldStr name] ++ code r value ++ .write [.callVirt type indexerSet 2] ++
        fill r type keyed rest
    else
      .write [.dup] ++ code r value ++ .write [.stFld type name] ++ fill r type keyed rest
termination_by structural initializers

/-- Fill the new array on the stack from `index` on. -/
def fillArray (r : Registry) (element : TypeId) (index : Nat) (values : List TypedExpr) :
    Emission Instr :=
  match values with
  | [] => .nothing
  | value :: rest =>
    loadIndex index ++ code r value ++ .write [.stElem element] ++
      fillArray r element (index + 1) rest
termination_by structural values

end

/-- Assign, leaving nothing on the stack. -/
def store (r : Registry) (target value : TypedExpr) : Emission Instr :=
  match target with
  | .localVar _ name => code r value ++ .write [.stLoc name]
  | .staticField _ owner name => code r value ++ .write [.stSFld owner name]
  | .instanceField _ object owner name =>
    code r object ++ code r value ++ .write [.stFld owner name]
  | .dynamicMember _ object name => code r object ++ code r value ++ .write [.dynamicSet name]
  | .element _ object args =>
    code r object ++ codeAll r args ++ code r value ++
      .asking (storeElement r object.type args.length) fun store => .write [store]
  | target =>
    .reject (.unsupportedShape "assignment" ("cannot store into a " ++ target.kindName))

/-- The code of an expression whose value is not used. -/
def discard (r : Registry) (e : TypedExpr) : Emission Instr :=
  match e with
  | .assign _ target value => store r target value
  | e => code r e ++ .write (if e.role.hasValue then [.pop] else [])

mutual

/-- The code of a statement. -/
def stmtCode (r : Registry) (s : TypedStmt) : Emission Instr :=
  match s with
  | .declare _ name type none => .write [.declareLocal name type]
  | .declare _ name type (some value) =>
    .write [.declareLocal name type] ++ code r value ++ .write [.stLoc name]
  | .expr _ e => discard r e
  | .nonAssign _ e => if e.isPure then .nothing else discard r e
  | .block _ body => unitCode r body
  | .localFunction .. | .useNamespace .. => .nothing
termination_by structural s

/-- The code of statements one after the other. -/
def unitCode (r : Registry) (body : List TypedStmt) : Emission Instr :=
  match body with
  | [] => .nothing
  | s :: rest => stmtCode r s ++ unitCode r rest
termination_by structural body

end

end Dynascript.Native
