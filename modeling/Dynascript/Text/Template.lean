/-!
# Message templates

A template holds places `{0}`, `{1}`, … for arguments. `Template.fill` puts in the
arguments one after the other, each over the whole text so far, so a place that an
earlier argument brought along is filled by the later argument of that number.
-/

namespace Dynascript.Template

/-- `text` with every occurrence of `pattern`, read left to right without overlap,
replaced by `new`, once the first `skip` characters have been dropped. -/
def replaceFrom (pattern new : List Char) : Nat → List Char → List Char
  | _, [] => []
  | skip + 1, _ :: rest => replaceFrom pattern new skip rest
  | 0, c :: rest =>
    if pattern.isPrefixOf (c :: rest) then
      new ++ replaceFrom pattern new (pattern.length - 1) rest
    else c :: replaceFrom pattern new 0 rest

/-- Replace every occurrence of a non-empty pattern. -/
def replaceAll (pattern new text : List Char) : List Char := replaceFrom pattern new 0 text

/-- The place of argument `i`. -/
def place (i : Nat) : List Char := '\x7b' :: (toString i).toList ++ ['\x7d']

/-- Fill the places from number `i` on. -/
def fillFrom : Nat → List String → List Char → List Char
  | _, [], text => text
  | i, arg :: args, text => fillFrom (i + 1) args (replaceAll (place i) arg.toList text)

/-- `template` with its places filled by `args`. -/
def fill (template : String) (args : List String) : String :=
  String.ofList (fillFrom 0 args template.toList)

end Dynascript.Template
