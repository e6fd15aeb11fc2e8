/-!
# Interned names

A `NameTable` gives each distinct name a number, in the order in which names first
come in. Interning a name twice gives the same number. Numbers are taken to fit a
32-bit word, so a table holds fewer than 2^32 - 1 names.
-/

namespace Dynascript

/-- The distinct names seen so far; a name's handle is its position. -/
structure NameTable where
  names : Array String

namespace NameTable

def empty : NameTable := ⟨#[]⟩

def size (t : NameTable) : Nat := t.names.size

def isEmpty (t : NameTable) : Bool := t.names.isEmpty

/-- The handle of a name seen before. -/
def handle? (t : NameTable) (name : String) : Option Nat := t.names.findIdx? (· == name)

/-- The name behind a handle. -/
def name? (t : NameTable) (handle : Nat) : Option String := t.names[handle]?

/-- The handle of `name`, which a new name gets at the end of the table. -/
def intern (t : NameTable) (name : String) : Nat × NameTable :=
  match t.handle? name with
  | some handle => (handle, t)
  | none => (t.names.size, ⟨t.names.push name⟩)

/-- A one-line account of the table. -/
def summary (t : NameTable) : String :=
  "NameInterner \x7b len: " ++ toString t.size ++ " \x7d"

end NameTable

end Dynascript
