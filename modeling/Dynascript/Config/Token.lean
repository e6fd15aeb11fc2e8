/-!
# Tokens of a configuration text

The lexical layer of JSON : punctuation, the three words, numbers and strings.
`lex?` reads a text character by character with a small machine (`Mode`), and fails
on anything that is not a token or blank.

A string may spell half of a surrogate pair by an escape. Such a string is a token,
but it has no value (`Token.text none`).
-/

namespace Dynascript.Config

/-- One token; the value of a number is never needed. -/
inductive Token where
  | openBrace
  | closeBrace
  | openBracket
  | closeBracket
  | colon
  | comma
  | null
  | bool (value : Bool)
  | number
  | text (value : Option String)
deriving DecidableEq

/-- A piece of a string : a character, or half of a surrogate pair. -/
inductive Piece where
  | char (c : Char)
  | half (unit : Nat)

/-- The character number of a surrogate pair. -/
def pairCode (high low : Nat) : Nat := 65536 + (high - 55296) * 1024 + (low - 56320)

/-- The characters of a string, if its halves come in pairs. -/
def joinPieces : List Piece → Option (List Char)
  | [] => some []
  | .char c :: rest => (joinPieces rest).map (c :: ·)
  | .half high :: .half low :: rest =>
    if high < 56320 ∧ 56320 ≤ low then
      (joinPieces rest).map (Char.ofNat (pairCode high low) :: ·)
    else none
  | .half _ :: _ => none

/-- The piece with code `unit` below `65536`. -/
def Piece.ofUnit (unit : Nat) : Piece :=
  if 55296 ≤ unit ∧ unit < 57344 then .half unit else .char (Char.ofNat unit)

/-- How far a number has been read. -/
inductive NumberMode where
  | minus
  | zero
  | whole
  | point
  | fraction
  | exponentMark
  | exponentSign
  | exponent
deriving DecidableEq

/-- Whether a number may end here. -/
def NumberMode.complete : NumberMode → Bool
  | .zero | .whole | .fraction | .exponent => true
  | .minus | .point | .exponentMark | .exponentSign => false

/-- One more character of a number, if it goes on with it. -/
def NumberMode.next? (mode : NumberMode) (c : Char) : Option NumberMode :=
  match mode with
  | .minus => if c = '0' then some .zero else if c.isDigit then some .whole else none
  | .zero => if c = '.' then some .point else if c = 'e' ∨ c = 'E' then some .exponentMark else none
  | .whole =>
    if c.isDigit then some .whole
    else if c = '.' then some .point
    else if c = 'e' ∨ c = 'E' then some .exponentMark
    else none
  | .point => if c.isDigit then some .fraction else none
  | .fraction =>
    if c.isDigit then some .fraction else if c = 'e' ∨ c = 'E' then some .exponentMark else none
  | .exponentMark =>
    if c.isDigit then some .exponent else if c = '+' ∨ c = '-' then some .exponentSign else none
  | .exponentSign => if c.isDigit then some .exponent else none
  | .exponent => if c.isDigit then some .exponent else none

/-- Where the reader stands; string pieces are kept newest first. -/
inductive Mode where
  | ground
  /-- Inside a word : the letters still to come and the token it makes. -/
  | word (rest : List Char) (token : Token)
  | number (mode : NumberMode)
  | string (pieces : List Piece)
  | escape (pieces : List Piece)
  /-- Inside a `\u` escape : digits still to come and the value so far. -/
  | unit (left value : Nat) (pieces : List Piece)

/-- The value of a hexadecimal digit. -/
def hexValue? (c : Char) : Option Nat :=
  if '0' ≤ c ∧ c ≤ '9' then some (c.toNat - 48)
  else if 'a' ≤ c ∧ c ≤ 'f' then some (c.toNat - 87)
  else if 'A' ≤ c ∧ c ≤ 'F' then some (c.toNat - 55)
  else none

/-- The character that a one-letter escape stands for. -/
def escaped? (c : Char) : Option Char :=
  match c with
  | '"' => some '"'
  | '\\' => some '\\'
  | '/' => some '/'
  | 'b' => some '\x08'
  | 'f' => some '\x0c'
  | 'n' => some '\n'
  | 'r' => some '\r'
  | 't' => some '\t'
  | _ => none

/-- The reader's mode and the tokens so far, newest first. -/
structure Lexer where
  mode : Mode
  tokens : List Token

/-- Between tokens. -/
def Lexer.start (tokens : List Token) (c : Char) : Option Lexer :=
  match c with
  | ' ' | '\t' | '\n' | '\r' => some ⟨.ground, tokens⟩
  | '\x7b' => some ⟨.ground, .openBrace :: tokens⟩
  | '\x7d' => some ⟨.ground, .closeBrace :: tokens⟩
  | '[' => some ⟨.ground, .openBracket :: tokens⟩
  | ']' => some ⟨.ground, .closeBracket :: tokens⟩
  | ':' => some ⟨.ground, .colon :: tokens⟩
  | ',' => some ⟨.ground, .comma :: tokens⟩
  | 'n' => some ⟨.word ['u', 'l', 'l'] .null, tokens⟩
  | 't' => some ⟨.word ['r', 'u', 'e'] (.bool true), tokens⟩
  | 'f' => some ⟨.word ['a', 'l', 's', 'e'] (.bool false), tokens⟩
  | '"' => some ⟨.string [], tokens⟩
  | '-' => some ⟨.number .minus, tokens⟩
  | '0' => some ⟨.number .zero, tokens⟩
  | c => if c.isDigit then some ⟨.number .whole, tokens⟩ else none

/-- One character. -/
def Lexer.step (s : Lexer) (c : Char) : Option Lexer :=
  match s.mode with
  | .ground => Lexer.start s.tokens c
  | .word [] _ => none
  | .word [last] token => if c = last then some ⟨.ground, token :: s.tokens⟩ else none
  | .word (next :: rest) token => if c = next then some ⟨.word rest token, s.tokens⟩ else none
  | .number mode =>
    match mode.next? c with
    | some mode => some ⟨.number mode, s.tokens⟩
    | none => if mode.complete then Lexer.start (.number :: s.tokens) c else none
  | .string pieces =>
    if c = '"' then
      some ⟨.ground, .text ((joinPieces pieces.reverse).map String.ofList) :: s.tokens⟩
    else if c = '\\' then some ⟨.escape pieces, s.tokens⟩
    else if c.toNat < 32 then none
    else some ⟨.string (.char c :: pieces), s.tokens⟩
  | .escape pieces =>
    if c = 'u' then some ⟨.unit 4 0 pieces, s.tokens⟩
    else (escaped? c).map fun d => ⟨.string (.char d :: pieces), s.tokens⟩
  | .unit left value pieces =>
    (hexValue? c).map fun digit =>
      let value := 16 * value + digit
      if left ≤ 1 then ⟨.string (.ofUnit value :: pieces), s.tokens⟩
      else ⟨.unit (left - 1) value pieces, s.tokens⟩

/-- The tokens at the end of the text, in order. -/
def Lexer.finish (s : Lexer) : Option (List Token) :=
  match s.mode with
  | .ground => some s.tokens.reverse
  | .number mode => if mode.complete then some (Token.number :: s.tokens).reverse else none
  | _ => none

/-- The tokens of `text`. -/
def lex? (text : String) : Option (List Token) :=
  (text.toList.foldlM Lexer.step ⟨.ground, []⟩).bind Lexer.finish

end Dynascript.Config
