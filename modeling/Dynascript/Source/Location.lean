/-!
# Spans and locations

A `Span` is a stretch of source text given by its start and length in bytes, and a
`Location` is a span in a numbered file. Positions are 32 bits wide : a span whose
end would not fit cannot be built, so `Span.ofBounds?` and `Span.ofLength?` are the
two ways in and `Span.stop` is total.
-/

namespace Dynascript

/-- The largest position, rank, arity or file number. -/
def maxWord : Nat := 4294967295

/-- A stretch of source text whose end is a position too. -/
structure Span where
  start : Nat
  length : Nat
  fits : start + length ≤ maxWord
deriving DecidableEq

namespace Span

/-- The position just after the span. -/
def stop (s : Span) : Nat := s.start + s.length

def isEmpty (s : Span) : Bool := s.length == 0

/-- The empty span at the start of a text. -/
def zero : Span := ⟨0, 0, Nat.zero_le _⟩

/-- The span from `start` up to `stop`, if they are in order and both are positions. -/
def ofBounds? (start stop : Nat) : Option Span :=
  if h : start ≤ stop ∧ stop ≤ maxWord then
    some ⟨start, stop - start, by omega⟩
  else none

/-- The span of `length` bytes from `start`, if its end is a position. -/
def ofLength? (start length : Nat) : Option Span :=
  if h : start + length ≤ maxWord then some ⟨start, length, h⟩ else none

/-- `start..stop` -/
def range (s : Span) : String := toString s.start ++ ".." ++ toString s.stop

/-- `[start, stop)` -/
def interval (s : Span) : String :=
  "[" ++ toString s.start ++ ", " ++ toString s.stop ++ ")"

end Span

/-- Where a piece of a program was written : a file by number and a span in it. -/
structure Location where
  file : Nat
  span : Span
deriving DecidableEq

namespace Location

/-- The empty span at the start of the first file. -/
def origin : Location := ⟨0, Span.zero⟩

instance : Inhabited Location := ⟨origin⟩

/-- `#file@start..stop` -/
def text (l : Location) : String := "#" ++ toString l.file ++ "@" ++ l.span.range

end Location

end Dynascript
