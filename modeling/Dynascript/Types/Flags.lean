/-!
# Capabilities of a type

Thirteen yes-or-no facts about a type, kept as the bits of a word. A word from outside
is cut to the known bits (`TypeFlags.ofBits`).
-/

namespace Dynascript

/-- A set of capabilities. -/
structure TypeFlags where
  bits : BitVec 13
deriving DecidableEq

namespace TypeFlags

/-- The known bits of a word. -/
def ofBits (word : Nat) : TypeFlags := ⟨BitVec.ofNat 13 word⟩

def toNat (f : TypeFlags) : Nat := f.bits.toNat

def none : TypeFlags := ⟨0⟩

/-- The type `*`, whose members are looked up when the program runs. -/
def dynamic : TypeFlags := ⟨1⟩

def primitive : TypeFlags := ⟨2⟩

def void : TypeFlags := ⟨4⟩

def null : TypeFlags := ⟨8⟩

def plainClass : TypeFlags := ⟨16⟩

def interface : TypeFlags := ⟨32⟩

/-- A class whose instances take members by key when the program runs. -/
def dynamicClass : TypeFlags := ⟨64⟩

def staticClass : TypeFlags := ⟨128⟩

def array : TypeFlags := ⟨256⟩

def genericDefinition : TypeFlags := ⟨512⟩

def genericInstance : TypeFlags := ⟨1024⟩

def typeParameter : TypeFlags := ⟨2048⟩

def space : TypeFlags := ⟨4096⟩

def union (f g : TypeFlags) : TypeFlags := ⟨f.bits ||| g.bits⟩

def diff (f g : TypeFlags) : TypeFlags := ⟨f.bits &&& ~~~g.bits⟩

/-- Every capability of `g` is in `f`. -/
def contains (f g : TypeFlags) : Bool := f.bits &&& g.bits == g.bits

/-- Some capability of `g` is in `f`. -/
def intersects (f g : TypeFlags) : Bool := f.bits &&& g.bits != 0

def isEmpty (f : TypeFlags) : Bool := f.bits == 0

instance : Union TypeFlags := ⟨union⟩

/-- What has no instances : interfaces, static classes, type parameters, namespaces and
`void`. -/
def unconstructible : TypeFlags := interface ∪ staticClass ∪ typeParameter ∪ space ∪ void

end TypeFlags

end Dynascript
