import Dynascript.Decimal.Binary64
import Dynascript.Types.Table

/-!
# Native instructions

The instructions of a stack machine with typed fields and calls, native arrays, and
operations that a runtime binder carries out on dynamic values.
-/

namespace Dynascript

/-- One instruction. -/
inductive Instr where
  | nop
  | dup
  | pop
  | ldStr (value : String)
  | ldcI4 (value : Int32)
  | ldcI8 (value : Int64)
  | ldcR8 (value : Binary64)
  | ldNull
  | declareLocal (name : String) (type : TypeId)
  | ldLoc (name : String)
  | stLoc (name : String)
  | ldSFld (owner : TypeId) (name : String)
  | stSFld (owner : TypeId) (name : String)
  | ldFld (owner : TypeId) (name : String)
  | stFld (owner : TypeId) (name : String)
  | call (owner : TypeId) (method : String) (args : Nat)
  | callVirt (owner : TypeId) (method : String) (args : Nat)
  | newObj (type : TypeId) (args : Nat)
  | castClass (type : TypeId)
  | newArr (element : TypeId)
  | newMultiArr (array : TypeId) (rank : Nat)
  | ldElem (element : TypeId)
  | stElem (element : TypeId)
  /-- Load from an array of several dimensions. -/
  | ldElemMulti (array : TypeId) (rank : Nat)
  | stElemMulti (array : TypeId) (rank : Nat)
  | dynamicGet (name : String)
  | dynamicSet (name : String)
  | dynamicGetIndex (args : Nat)
  | dynamicSetIndex (args : Nat)
  | dynamicCall (method : String) (args : Nat)
  | dynamicInvoke (args : Nat)
  | dynamicNew (args : Nat)
deriving DecidableEq

/-- The name of an instruction in a listing. -/
def Instr.mnemonic : Instr → String
  | nop => "Nop"
  | dup => "Dup"
  | pop => "Pop"
  | ldStr _ => "LdStr"
  | ldcI4 _ => "LdcI4"
  | ldcI8 _ => "LdcI8"
  | ldcR8 _ => "LdcR8"
  | ldNull => "LdNull"
  | declareLocal .. => "DeclareLocal"
  | ldLoc _ => "LdLoc"
  | stLoc _ => "StLoc"
  | ldSFld .. => "LdSFld"
  | stSFld .. => "StSFld"
  | ldFld .. => "LdFld"
  | stFld .. => "StFld"
  | call .. => "Call"
  | callVirt .. => "CallVirt"
  | newObj .. => "NewObj"
  | castClass _ => "CastClass"
  | newArr _ => "NewArr"
  | newMultiArr .. => "NewMultiArr"
  | ldElem _ => "LdElem"
  | stElem _ => "StElem"
  | ldElemMulti .. => "LdElemMulti"
  | stElemMulti .. => "StElemMulti"
  | dynamicGet _ => "DynamicGet"
  | dynamicSet _ => "DynamicSet"
  | dynamicGetIndex _ => "DynamicGetIndex"
  | dynamicSetIndex _ => "DynamicSetIndex"
  | dynamicCall .. => "DynamicCall"
  | dynamicInvoke _ => "DynamicInvoke"
  | dynamicNew _ => "DynamicNew"

end Dynascript
