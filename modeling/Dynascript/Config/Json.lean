import Dynascript.Config.Token

/-!
# JSON values

`Json.parse?` reads a text strictly : one value, no trailing commas, nothing but
blanks around it. Members keep their order and repetitions, since a reader of
settings has to see a key that is given twice.

The tokens are read by a machine with a stack of open containers (`Reader`), so the
depth of a text is not bounded.
-/

namespace Dynascript.Config

/-- A JSON value. A key or string is `none` if it has no value (`Token.text`). -/
inductive Json where
  | null
  | bool (value : Bool)
  | number
  | text (value : Option String)
  | array (items : List Json)
  | object (members : List (Option String × Json))

/-- An open container, its contents newest first. -/
inductive Container where
  | array (items : List Json)
  | object (members : List (Option String × Json)) (key : Option String)

/-- What may come next. -/
inductive Expecting where
  | value
  | valueOrEnd
  | key
  | keyOrEnd (members : List (Option String × Json))
  | colon (members : List (Option String × Json)) (key : Option String)
  | separator
  | nothing (result : Json)

/-- The open containers, innermost first, and what may come next. -/
structure Reader where
  expecting : Expecting
  stack : List Container

/-- Go on after a complete value. -/
def Reader.complete (value : Json) : List Container → Reader
  | [] => ⟨.nothing value, []⟩
  | .array items :: rest => ⟨.separator, .array (value :: items) :: rest⟩
  | .object members key :: rest => ⟨.separator, .object ((key, value) :: members) none :: rest⟩

/-- Start a value. -/
def Reader.begin (containers : List Container) (token : Token) : Option Reader :=
  match token with
  | .null => some (.complete .null containers)
  | .bool b => some (.complete (.bool b) containers)
  | .number => some (.complete .number containers)
  | .text s => some (.complete (.text s) containers)
  | .openBracket => some ⟨.valueOrEnd, .array [] :: containers⟩
  | .openBrace => some ⟨.keyOrEnd [], containers⟩
  | _ => none

/-- One token. -/
def Reader.step (s : Reader) (token : Token) : Option Reader :=
  match s.expecting, s.stack, token with
  | .value, containers, token => Reader.begin containers token
  | .valueOrEnd, .array items :: rest, .closeBracket =>
    some (.complete (.array items.reverse) rest)
  | .valueOrEnd, containers, token => Reader.begin containers token
  | .keyOrEnd members, containers, .text key => some ⟨.colon members key, containers⟩
  | .keyOrEnd members, containers, .closeBrace =>
    some (.complete (.object members.reverse) containers)
  | .key, .object members _ :: rest, .text key => some ⟨.colon members key, rest⟩
  | .colon members key, containers, .colon => some ⟨.value, .object members key :: containers⟩
  | .separator, .array items :: rest, .comma => some ⟨.value, .array items :: rest⟩
  | .separator, .array items :: rest, .closeBracket =>
    some (.complete (.array items.reverse) rest)
  | .separator, .object members key :: rest, .comma => some ⟨.key, .object members key :: rest⟩
  | .separator, .object members _ :: rest, .closeBrace =>
    some (.complete (.object members.reverse) rest)
  | _, _, _ => none

/-- The value read, if it is complete. -/
def Reader.result? (s : Reader) : Option Json :=
  match s.expecting with
  | .nothing value => some value
  | _ => none

/-- The value that `text` spells. -/
def Json.parse? (text : String) : Option Json := do
  let tokens ← lex? text
  let reader ← tokens.foldlM Reader.step ⟨.value, []⟩
  reader.result?

end Dynascript.Config
