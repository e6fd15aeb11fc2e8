/-!
# Double-precision numbers by their bits

A `Binary64` is the 64-bit word of a double-precision number. Keeping the word keeps
signed zeros and every NaN apart; `Binary64.same` is the numeric comparison, for
which a NaN differs from itself and the two zeros agree.
-/

namespace Dynascript

/-- A double-precision number as its 64-bit word. -/
structure Binary64 where
  bits : UInt64
deriving DecidableEq

namespace Binary64

/-- The sign bit. -/
def negative (x : Binary64) : Bool := 0x8000000000000000 ≤ x.bits.toNat

/-- The biased exponent field. -/
def exponentField (x : Binary64) : Nat := x.bits.toNat / 0x10000000000000 % 2048

/-- The fraction field. -/
def fractionField (x : Binary64) : Nat := x.bits.toNat % 0x10000000000000

def isNaN (x : Binary64) : Bool := x.exponentField == 2047 && x.fractionField != 0

def isInfinite (x : Binary64) : Bool := x.exponentField == 2047 && x.fractionField == 0

def isZero (x : Binary64) : Bool := x.exponentField == 0 && x.fractionField == 0

/-- Numeric equality. -/
def same (x y : Binary64) : Bool :=
  !x.isNaN && !y.isNaN && (x.bits == y.bits || x.isZero && y.isZero)

/-- The integer `m` of the absolute value `m * 2 ^ q` of a finite number. -/
def significand (x : Binary64) : Nat :=
  if x.exponentField = 0 then x.fractionField else 0x10000000000000 + x.fractionField

/-- The power `q` of the absolute value `m * 2 ^ q` of a finite number. -/
def power (x : Binary64) : Int :=
  if x.exponentField = 0 then -1074 else (x.exponentField : Int) - 1075

/-- Whether the gap to the next smaller number is half the gap to the next larger. -/
def narrowBelow (x : Binary64) : Bool := 1 < x.exponentField && x.fractionField == 0

end Binary64

end Dynascript
