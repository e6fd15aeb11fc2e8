import Dynascript.Decimal.Binary64

/-!
# Literals

Constants as the source writes them, and the two literals that carry raw text :
regular expressions and XML.
-/

namespace Dynascript

/-- A plain constant. -/
inductive Literal where
  | string (value : String)
  | int (value : Int64)
  | number (value : Binary64)
  | bool (value : Bool)
  | null

namespace Literal

/-- Whether two literals are the same; numbers compare as numbers. -/
def same : Literal → Literal → Bool
  | string a, string b => a == b
  | int a, int b => a == b
  | number a, number b => a.same b
  | bool a, bool b => a == b
  | null, null => true
  | _, _ => false

end Literal

/-- `/pattern/options` -/
structure RegexLiteral where
  pattern : String
  options : String
deriving DecidableEq

namespace RegexLiteral

/-- The literal as written. -/
def value (r : RegexLiteral) : String := "/" ++ r.pattern ++ "/" ++ r.options

/-- A literal with nothing in it is the default value, and stands for `null`. -/
def isDefault (r : RegexLiteral) : Bool := r.pattern.isEmpty && r.options.isEmpty

def isNull (r : RegexLiteral) : Bool := r.isDefault

/-- A regular expression is never a negative constant. -/
def isNegative (_ : RegexLiteral) : Bool := false

end RegexLiteral

/-- XML as raw text. -/
structure XmlLiteral where
  text : String
deriving DecidableEq

namespace XmlLiteral

/-- A literal with nothing in it is the default value, and stands for `null`. -/
def isDefault (x : XmlLiteral) : Bool := x.text.isEmpty

def isNull (x : XmlLiteral) : Bool := x.isDefault

/-- XML is never a negative constant. -/
def isNegative (_ : XmlLiteral) : Bool := false

end XmlLiteral

end Dynascript
