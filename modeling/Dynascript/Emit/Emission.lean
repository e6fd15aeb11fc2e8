import Dynascript.Source.Location
import Dynascript.Types.Table

/-!
# What an emitter writes

An `Emission` is what was written, in order, and what stopped the writing, if anything.
Emissions are put together with `++`, where nothing is written after a stop; what was
written before it stays.
-/

namespace Dynascript

/-- A tree that an emitter cannot write. This is a fault of the program that made the
tree, not of its user. -/
inductive EmitError where
  /-- The tree was never resolved. -/
  | missingResolve (kind : String) (loc : Location)
  /-- The target has no form for this construct. -/
  | unsupportedConstruct (construct backend : String) (loc : Location)
  /-- The target has no form for this use of a construct. -/
  | unsupportedShape (construct detail : String)
deriving DecidableEq

def EmitError.message : EmitError → String
  | missingResolve kind loc => "internal error: missing resolve call for " ++ kind ++ " at " ++ loc.text
  | unsupportedConstruct construct backend loc =>
    "internal error: " ++ construct ++ " cannot be emitted by the " ++ backend ++
      " backend (at " ++ loc.text ++ ")"
  | unsupportedShape construct detail =>
    "internal error: unsupported shape for " ++ construct ++ ": " ++ detail

/-- Why writing stopped. -/
inductive Stop where
  | rejected (error : EmitError)
  | dangling (d : Dangling)
deriving DecidableEq

/-- What was written and why it stopped. -/
structure Emission (ω : Type) where
  written : List ω
  stop : Option Stop := none

namespace Emission

variable {ω α : Type}

/-- Write. -/
def write (items : List ω) : Emission ω := ⟨items, none⟩

/-- Write nothing. -/
def nothing : Emission ω := write []

/-- Stop at a tree that cannot be written. -/
def reject (e : EmitError) : Emission ω := ⟨[], some (.rejected e)⟩

/-- Write one thing after the other, up to the first stop. -/
def append (a b : Emission ω) : Emission ω :=
  match a.stop with
  | none => ⟨a.written ++ b.written, b.stop⟩
  | some _ => a

instance : Append (Emission ω) := ⟨append⟩

/-- Go on with the answer to a question about types that may be dangling. -/
def asking (answer : Except Dangling α) (f : α → Emission ω) : Emission ω :=
  match answer with
  | .ok a => f a
  | .error d => ⟨[], some (.dangling d)⟩

/-- Everything that was written, unless it stopped short. A dangling handle is kept apart
from a tree that cannot be written. -/
def result (e : Emission ω) : Except Dangling (Except EmitError (List ω)) :=
  match e.stop with
  | none => .ok (.ok e.written)
  | some (.rejected error) => .ok (.error error)
  | some (.dangling d) => .error d

end Emission

end Dynascript
