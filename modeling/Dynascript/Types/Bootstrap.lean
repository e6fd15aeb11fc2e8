import Dynascript.Types.Registry

/-!
# The types every program starts with

`Registry.bootstrap` builds a registry with the host types, two shared type parameters
and the types of the dynamic runtime, always in the same order, so their handles are
constants. Only the namespace of the `typeof` helper varies.

It is put together from finished entries. `Catalog.bootstrap` takes the steps one by one,
with members that come later and an instance that is asked for, and ends in these types.
-/

namespace Dynascript

namespace TypeId

def dynamic : TypeId := ⟨0⟩

def object : TypeId := ⟨1⟩

def string : TypeId := ⟨2⟩

def boolean : TypeId := ⟨3⟩

def int : TypeId := ⟨4⟩

def uint : TypeId := ⟨5⟩

def number : TypeId := ⟨6⟩

def void : TypeId := ⟨7⟩

def null : TypeId := ⟨8⟩

/-- The first shared type parameter. -/
def param0 : TypeId := ⟨9⟩

/-- The second shared type parameter. -/
def param1 : TypeId := ⟨10⟩

/-- What a container has to implement for `in` to ask it for a key. -/
def dictionary : TypeId := ⟨11⟩

/-- The definition of `IDictionary.<K, V>`. -/
def dictionaryGeneric : TypeId := ⟨12⟩

/-- The interface behind `delete`. -/
def dynamicClass : TypeId := ⟨13⟩

/-- What an array initializer makes when nothing else is asked for. -/
def array : TypeId := ⟨14⟩

/-- The definition of `Vector.<T>`. -/
def vector : TypeId := ⟨15⟩

/-- What an object initializer makes when nothing else is asked for. -/
def expando : TypeId := ⟨17⟩

def regexp : TypeId := ⟨18⟩

def xml : TypeId := ⟨19⟩

def undefined : TypeId := ⟨20⟩

/-- The class of the `typeof` helper. -/
def typeofHelper : TypeId := ⟨21⟩

/-- The shared type parameters, for the signatures of generic classes. -/
def param? : Nat → Option TypeId
  | 0 => some param0
  | 1 => some param1
  | _ => none

end TypeId

/-! ## Names with a meaning to the resolver -/

/-- The namespace of the dynamic runtime. -/
def runtimeSpace : String := "pscript"

def collectionsSpace : String := "System.Collections"

def genericCollectionsSpace : String := "System.Collections.Generic"

def typeofClass : String := "_typeof_fn"

def typeofMethod : String := "_typeof"

def undefinedField : String := "_undefined"

/-- The method that `delete` calls. -/
def deleteMethod : String := "__DeleteDynamicValue"

/-- The method that a collection initializer calls for each element. -/
def addMethod : String := "Add"

/-! ## The classes of the runtime -/

namespace ClassDecl

/-- What a container has to implement for `in` to ask it for a key. -/
def dictionary : ClassDecl :=
  ofInterface "IDictionary"
    |>.inSpace collectionsSpace
    |>.withMember (.method "Contains" [.object] .boolean)

/-- `IDictionary.<K, V>` -/
def dictionaryGeneric : ClassDecl :=
  ofInterface "IDictionary"
    |>.inSpace genericCollectionsSpace
    |>.generic 2
    |>.implementing .dictionary
    |>.withMember (.method "ContainsKey" [.param0] .boolean)
    |>.withMember (.method "Remove" [.param0] .boolean)
    |>.withMember (.indexer .param0 .param1)

/-- The interface behind `delete`. -/
def dynamicClass : ClassDecl :=
  ofInterface "IDynamicClass"
    |>.inSpace runtimeSpace
    |>.withMember (.method deleteMethod [.object] .boolean)
    |>.withMember (.method "__HasDynamicValue" [.string] .boolean)
    |>.withMember (.method "__GetDynamicValue" [.string] .dynamic)

def array : ClassDecl :=
  ofClass "Array"
    |>.inSpace runtimeSpace
    |>.dynamic
    |>.implementing .dynamicClass
    |>.withMember (.field "length" .int)
    |>.withMember (.method "Contains" [.dynamic] .boolean)
    |>.withMember (.method "push" [.dynamic] .uint)
    |>.withMember (.method addMethod [.dynamic] .void)
    |>.withMember (.indexer .int .dynamic)

/-- `Vector.<T>` -/
def vector : ClassDecl :=
  ofClass "Vector"
    |>.inSpace runtimeSpace
    |>.generic 1
    |>.withMember (.field "length" .int)
    |>.withMember (.method "Contains" [.param0] .boolean)
    |>.withMember (.method "push" [.param0] .uint)
    |>.withMember (.method addMethod [.param0] .void)
    |>.withMember (.indexer .int .param0)

/-- The second interface is `IDictionary.<String, Object>`. -/
def expando : ClassDecl :=
  ofClass "Expando"
    |>.inSpace runtimeSpace
    |>.dynamic
    |>.implementing .dynamicClass
    |>.implementing ⟨16⟩
    |>.withMember (.method "ContainsKey" [.string] .boolean)
    |>.withMember (.indexer .string .dynamic)

def regexp : ClassDecl :=
  ofClass "RegExp"
    |>.inSpace runtimeSpace
    |>.withMember (.field "source" .string)
    |>.withMember (.method "test" [.string] .boolean)

def xml : ClassDecl :=
  ofClass "XML"
    |>.inSpace runtimeSpace
    |>.withMember (.method "toXMLString" [] .string)

/-- The type of `undefined`, before it has the field that holds it. -/
def undefined : ClassDecl := ofClass "Undefined" |>.inSpace runtimeSpace

/-- The static class of the `typeof` helper, under the root namespace. -/
def typeofHelper (root : String) : ClassDecl :=
  ofClass typeofClass
    |>.inSpace root
    |>.withFlags .staticClass
    |>.withMember (.staticMethod typeofMethod [.object] .string)

end ClassDecl

namespace Registry

/-- The host types. -/
def hostTypes (r : Registry) : Registry :=
  r |>.addBuiltin "*" .dynamic
    |>.addClass (ClassDecl.ofClass "Object"
      |>.withMember (.method "toString" [] .string))
    |>.addClass (ClassDecl.ofClass "String"
      |>.withFlags .primitive
      |>.withMember (.field "length" .int))
    |>.addBuiltin "Boolean" .primitive
    |>.addBuiltin "int" .primitive
    |>.addBuiltin "uint" .primitive
    |>.addBuiltin "Number" .primitive
    |>.addBuiltin "void" .void
    |>.addBuiltin "null" .null

/-- The shared type parameters, which have no name to look up. -/
def typeParameters (r : Registry) : Registry :=
  r |>.addType .typeParameter "T0" "" (.parameter 0)
    |>.addType .typeParameter "T1" "" (.parameter 1)

/-- The interfaces behind `in` and `delete`. -/
def runtimeInterfaces (r : Registry) : Registry :=
  r |>.addClass .dictionary |>.addClass .dictionaryGeneric |>.addClass .dynamicClass

/-- The sequence types. -/
def runtimeSequences (r : Registry) : Registry :=
  r |>.addClass .array |>.addClass .vector

/-- `IDictionary.<String, Object>`, which `Expando` implements. -/
def stringDictionary (r : Registry) : Registry :=
  r.addType (instanceFlags (.interface ∪ .genericDefinition)) "IDictionary"
    genericCollectionsSpace (.generic .dictionaryGeneric [.string, .object])

/-- The classes of the runtime that stand alone. -/
def runtimeClasses (r : Registry) : Registry :=
  r |>.addClass .expando
    |>.addClass .regexp
    |>.addClass .xml
    |>.addClass (ClassDecl.undefined.withMember (.staticField undefinedField .undefined))

/-- The registry every program starts with. -/
def bootstrap (root : String) : Registry :=
  (empty root).hostTypes.typeParameters.runtimeInterfaces.runtimeSequences
    |>.stringDictionary
    |>.runtimeClasses
    |>.addClass (.typeofHelper root)

end Registry

end Dynascript
