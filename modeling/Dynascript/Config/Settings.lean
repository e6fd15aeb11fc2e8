import Dynascript.Config.Json
import Dynascript.Text.Quoted

/-!
# Settings

A configuration file gives a target, a dialect switch and the name of the root
namespace, each optional (`Written`). `Written.settings` fills in the defaults and
gives the `Settings` a compilation runs with.

A file is a JSON object in which each of the three keys comes at most once and other
keys are passed over, or an array of the three values in order.
-/

namespace Dynascript

/-- What a compilation produces : instructions or script text. -/
inductive Target where
  | native
  | script
deriving DecidableEq, Inhabited

def Target.name : Target → String
  | .native => "native"
  | .script => "script"

def Target.ofName? : String → Option Target
  | "native" => some .native
  | "script" => some .script
  | _ => none

/-- Strict host rules, or the extended dynamic rules. -/
inductive Dialect where
  | strict
  | extended
deriving DecidableEq, Inhabited

/-- The root namespace when none is given. -/
def defaultRoot : String := "_root"

/-- What a compilation runs with. -/
structure Settings where
  target : Target := .native
  dialect : Dialect := .strict
  /-- The namespace under which the `typeof` helper is looked for. -/
  root : String := defaultRoot
deriving DecidableEq, Inhabited

def Settings.isScript (s : Settings) : Bool := s.target == .script

def Settings.isExtended (s : Settings) : Bool := s.dialect == .extended

namespace Config

/-- The settings that a file spells out. -/
structure Written where
  target : Option Target := none
  extended : Option Bool := none
  rootNamespace : Option String := none

/-- Why a configuration could not be read. -/
inductive Failure where
  /-- There is no file, or its bytes are not text. -/
  | unreadable
  /-- The text is not a configuration. -/
  | malformed
deriving DecidableEq

/-- The written settings with defaults for what is left out. -/
def Written.settings (w : Written) : Settings where
  target := w.target.getD .native
  dialect := if w.extended.getD false then .extended else .strict
  root := w.rootNamespace.getD defaultRoot

/-- A value that may be `null`. -/
def Json.optional {α : Type} (read : Json → Option α) : Json → Option (Option α)
  | .null => some none
  | value => (read value).map some

def Json.bool? : Json → Option Bool
  | .bool b => some b
  | _ => none

def Json.text? : Json → Option String
  | .text s => s
  | _ => none

/-- A target is its name, or an object whose one key is the name and whose value is
`null`. -/
def Json.target? : Json → Option Target
  | .text (some name) => Target.ofName? name
  | .object [(some name, .null)] => Target.ofName? name
  | _ => none

/-- The value of a key that may come once. -/
def once {α : Type} (slot : Option α) (value : Option α) : Option (Option α) :=
  match slot with
  | some _ => none
  | none => value.map some

/-- The known keys read so far; the inner option is `none` for `null`. -/
structure Slots where
  target : Option (Option Target) := none
  extended : Option (Option Bool) := none
  rootNamespace : Option (Option String) := none

/-- Read one member. -/
def Slots.add (s : Slots) (member : Option String × Json) : Option Slots :=
  match member with
  | (none, _) => none
  | (some "target", value) =>
    (once s.target (value.optional Json.target?)).map ({ s with target := · })
  | (some "extended", value) =>
    (once s.extended (value.optional Json.bool?)).map ({ s with extended := · })
  | (some "rootNamespace", value) =>
    (once s.rootNamespace (value.optional Json.text?)).map ({ s with rootNamespace := · })
  | (some _, _) => some s

/-- A key that was left out counts as `null`. -/
def Slots.written (s : Slots) : Written where
  target := s.target.getD none
  extended := s.extended.getD none
  rootNamespace := s.rootNamespace.getD none

/-- The settings that a JSON value spells out. -/
def Written.ofJson? : Json → Option Written
  | .object members => (members.foldlM Slots.add {}).map Slots.written
  | .array [target, extended, root] => do
    let target ← target.optional Json.target?
    let extended ← extended.optional Json.bool?
    let root ← root.optional Json.text?
    return ⟨target, extended, root⟩
  | _ => none

/-- Read a configuration text. -/
def parse (text : String) : Except Failure Written :=
  match (Json.parse? text).bind Written.ofJson? with
  | some written => .ok written
  | none => .error .malformed

/-- Read a configuration file from its bytes, `none` if there is no such file. -/
def load (file : Option ByteArray) : Except Failure Written :=
  match file.bind String.fromUTF8? with
  | some text => parse text
  | none => .error .unreadable

/-- The settings as a configuration text. -/
def Written.render (w : Written) : String :=
  let target := (w.target.map fun t => Quoted.encode t.name).getD "null"
  let extended := (w.extended.map fun b => if b then "true" else "false").getD "null"
  let root := (w.rootNamespace.map Quoted.encode).getD "null"
  "\x7b\"target\":" ++ target ++ ",\"extended\":" ++ extended ++
    ",\"rootNamespace\":" ++ root ++ "\x7d"

end Config

end Dynascript
