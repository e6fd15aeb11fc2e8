import Dynascript.Source.Location

/-!
# Script text with its origins

Script text is put together from small writes, each of which knows the location it
comes from. A `Buffer` keeps the text and, at each change of location, a mark with the
byte offset where the new location starts.
-/

namespace Dynascript.Script

/-- A piece of text and where it comes from. -/
structure Write where
  text : String
  loc : Location
deriving DecidableEq

/-- From `offset` on the text comes from `loc`. -/
structure Mark where
  offset : Nat
  loc : Location
deriving DecidableEq

/-- The text so far and its marks. -/
structure Buffer where
  text : String
  marks : Array Mark

namespace Buffer

def empty : Buffer := ⟨"", #[]⟩

/-- Append a piece of text. Only a new location leaves a mark. -/
def write (b : Buffer) (w : Write) : Buffer :=
  let marks :=
    if b.marks.back?.map Mark.loc = some w.loc then b.marks
    else b.marks.push ⟨b.text.utf8ByteSize, w.loc⟩
  ⟨b.text ++ w.text, marks⟩

def writeAll (b : Buffer) (ws : List Write) : Buffer := ws.foldl write b

theorem toList_writeAll (b : Buffer) (ws : List Write) :
    (b.writeAll ws).text.toList = b.text.toList ++ ws.flatMap (·.text.toList) := by
  induction ws generalizing b with
  | nil => simp [writeAll]
  | cons w ws ih =>
    rw [writeAll, List.foldl_cons, ← writeAll, ih]
    simp [write]

end Buffer

end Dynascript.Script
