import Dynascript.Diagnostic.Message
import Dynascript.Source.Location
import Dynascript.Text.Template

/-!
# Diagnostics

A `Diagnostic` is a complaint with its text filled in and a place in the source, and a
log is a list of them in the order in which they were filed. `Log.sort` orders a log by
file and position and keeps the order of filing at the same place.
-/

namespace Dynascript

/-- How serious a diagnostic is. Resolution files errors only. -/
inductive Severity where
  | error
deriving DecidableEq

def Severity.name : Severity → String
  | .error => "error"

/-- A complaint as a user reads it. -/
structure Diagnostic where
  location : Option Location
  text : String
  code : Nat
  severity : Severity := .error
deriving DecidableEq

namespace Diagnostic

/-- A complaint at `location` with the places of its message filled. -/
def ofMessage (message : Message) (location : Location) (args : List String) : Diagnostic where
  location := some location
  text := Template.fill message.template args
  code := message.code

def isError (d : Diagnostic) : Bool := d.severity == .error

/-- The line a user reads. -/
def render (d : Diagnostic) : String :=
  let place := match d.location with
    | some l => "file" ++ toString l.file ++ "(" ++ toString l.span.start ++ "): "
    | none => ""
  place ++ d.severity.name ++ " PS" ++ toString d.code ++ ": " ++ d.text

/-- File and position; a diagnostic without a place comes first. -/
def sortKey (d : Diagnostic) : Nat × Nat :=
  match d.location with
  | some l => (l.file, l.span.start)
  | none => (0, 0)

/-- `a` comes before `b` or at the same place. -/
def before (a b : Diagnostic) : Bool :=
  a.sortKey.1 < b.sortKey.1 || a.sortKey.1 == b.sortKey.1 && a.sortKey.2 ≤ b.sortKey.2

/-- The same complaint, placed in `file`. -/
def inFile (file : Nat) (d : Diagnostic) : Diagnostic :=
  { d with location := d.location.map ({ · with file }) }

end Diagnostic

/-- Diagnostics in the order in which they were filed. -/
abbrev Log := List Diagnostic

namespace Log

def hasErrors (log : Log) : Bool := log.any Diagnostic.isError

def errorCount (log : Log) : Nat := log.countP Diagnostic.isError

def hasCode (log : Log) (code : Nat) : Bool := log.any (·.code == code)

def codes (log : Log) : List Nat := log.map Diagnostic.code

/-- The log by file and position, in the order of filing at the same place. -/
def sort (log : Log) : Log := log.mergeSort Diagnostic.before

end Log

end Dynascript
