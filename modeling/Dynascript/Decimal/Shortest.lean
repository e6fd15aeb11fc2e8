import Dynascript.Decimal.Binary64

/-!
# Shortest decimal text

The decimal text of a finite double with the fewest digits that read back as the
same number; of two such, the nearer one, and the larger on a tie. Digits are always
written positionally : no exponent, and no point in an integer.

The reals that round to `m * 2 ^ q` form an interval around it, whose ends count when
`m` is even. `search` looks at ever finer decimal grids, and on each at the two
neighbours of the value; the first grid with a neighbour in the interval wins.
All arithmetic is on natural numbers.
-/

namespace Dynascript.Decimal

/-- A positive value with the interval of reals that round to it, all over one
denominator. -/
structure Bracket where
  low : Nat
  value : Nat
  high : Nat
  denominator : Nat
  /-- Whether the ends of the interval belong to it. -/
  closed : Bool

/-- The interval of a finite non-zero number, sign left aside. -/
def Bracket.ofBinary64 (x : Binary64) : Bracket :=
  let m := x.significand
  let up := Nat.pow 2 (x.power - 2).toNat
  { low := (4 * m - if x.narrowBelow then 1 else 2) * up
    value := 4 * m * up
    high := (4 * m + 2) * up
    denominator := Nat.pow 2 (2 - x.power).toNat
    closed := m % 2 == 0 }

/-- A natural number of units `10 ^ exponent`. -/
structure Scientific where
  digits : Nat
  exponent : Int

/-- The neighbour of the value on the grid of `10 ^ exponent` that lies in the
interval, the nearer one if both do. -/
def Bracket.neighbour? (b : Bracket) (exponent : Int) : Option Nat :=
  let fine := Nat.pow 10 (-exponent).toNat
  let unit := Nat.pow 10 exponent.toNat * b.denominator
  let low := b.low * fine
  let value := b.value * fine
  let high := b.high * fine
  let below := value / unit
  let slack := if b.closed then 0 else 1
  let fromBelow : Bool := low + slack ≤ below * unit
  let fromAbove : Bool := (below + 1) * unit + slack ≤ high
  if fromBelow && fromAbove then
    if 2 * (value - below * unit) < unit then some below else some (below + 1)
  else if fromBelow then some below
  else if fromAbove then some (below + 1)
  else none

/-- The first hit on the grids `10 ^ (n - 325)`, …, `10 ^ (-324)`. The last of them is
finer than any interval. -/
def Bracket.search (b : Bracket) : Nat → Scientific
  | 0 => ⟨0, 0⟩
  | n + 1 =>
    match b.neighbour? ((n : Int) - 324) with
    | some digits => ⟨digits, (n : Int) - 324⟩
    | none => b.search n

/-- The digits with the point put in, or zeros put at either end. -/
def Scientific.positional (s : Scientific) : String :=
  let digits := (toString s.digits).toList
  if 0 ≤ s.exponent then
    String.ofList (digits ++ List.replicate s.exponent.toNat '0')
  else
    let places := (-s.exponent).toNat
    if places < digits.length then
      String.ofList (digits.take (digits.length - places) ++ '.' ::
        digits.drop (digits.length - places))
    else
      String.ofList ('0' :: '.' :: List.replicate (places - digits.length) '0' ++ digits)

/-- The shortest text of a finite number. -/
def shortest (x : Binary64) : String :=
  let sign := if x.negative then "-" else ""
  if x.isZero then sign ++ "0"
  else sign ++ ((Bracket.ofBinary64 x).search 634).positional

end Dynascript.Decimal
