import Dynascript.Text.Hidden

/-!
# Escaped text

A text in double quotes for a reader of logs. The quote, the backslash and the common
control characters are escaped by a letter, and other hidden characters by their number
in braces.
-/

namespace Dynascript.Escaped

/-- `\u{n}`, with the number in hexadecimal digits. -/
def byNumber (c : Char) : List Char :=
  '\\' :: 'u' :: '\x7b' :: Nat.toDigits 16 c.toNat ++ ['\x7d']

/-- How one character is written between the quotes. -/
def escape (c : Char) : List Char :=
  match c with
  | '\x00' => ['\\', '0']
  | '\t' => ['\\', 't']
  | '\r' => ['\\', 'r']
  | '\n' => ['\\', 'n']
  | '"' => ['\\', '"']
  | '\\' => ['\\', '\\']
  | c => if Hidden.isHidden c then byNumber c else [c]

/-- `text` in quotes. -/
def encode (text : String) : String :=
  String.ofList ('"' :: text.toList.flatMap escape ++ ['"'])

end Dynascript.Escaped
