/-!
# Diagnostic messages

The complaints that resolution can make, each with its stable code and the template
of its text.
-/

namespace Dynascript

/-- A kind of complaint. -/
inductive Message where
  | notIndexable
  | unknownName
  | noSuchMember
  | valueNotType
  | notAssignable
  | notConstructible
  | unknownType
  | notInvocable
  | methodAsValue
  | arrayWithoutSize
  | typeArgumentCount
  | deleteIndexCount
  | deleteOnArray
  | deleteOnFixedType
  | deleteOperand
  | typeofInExtended
  | arrayOutsideExtended
  | jaggedArray
  | initializerRank
deriving DecidableEq

namespace Message

/-- The number that tools filter on. -/
def code : Message → Nat
  | notIndexable => 21
  | unknownName => 103
  | noSuchMember => 117
  | valueNotType => 118
  | notAssignable => 131
  | notConstructible => 144
  | unknownType => 246
  | notInvocable => 1955
  | methodAsValue => 428
  | arrayWithoutSize => 1586
  | typeArgumentCount => 305
  | deleteIndexCount => 7021
  | deleteOnArray => 7022
  | deleteOnFixedType => 7023
  | deleteOperand => 7024
  | typeofInExtended => 7101
  | arrayOutsideExtended => 7103
  | jaggedArray => 7104
  | initializerRank => 7105

/-- The text, with places for arguments. -/
def template : Message → String
  | notIndexable => "Cannot apply indexing with [] to an expression of type '\x7b0\x7d'."
  | unknownName => "The name '\x7b0\x7d' does not exist in the current context."
  | noSuchMember => "'\x7b0\x7d' does not contain a definition for '\x7b1\x7d'."
  | valueNotType => "'\x7b0\x7d' is a value but a type was expected."
  | notAssignable =>
    "The left-hand side of an assignment must be a variable, a property or an indexer."
  | notConstructible =>
    "Cannot create an instance of the abstract class or interface '\x7b0\x7d'."
  | unknownType => "The type or namespace name '\x7b0\x7d' could not be found."
  | notInvocable => "Non-invocable member '\x7b0\x7d' cannot be used like a method."
  | methodAsValue => "Cannot convert method group '\x7b0\x7d' to a value."
  | arrayWithoutSize => "Array creation must have array size or array initializer."
  | typeArgumentCount =>
    "Using the generic type '\x7b0\x7d' requires '\x7b1\x7d' type arguments."
  | deleteIndexCount => "delete statement must have only one index argument."
  | deleteOnArray => "delete statement not allowed on arrays."
  | deleteOnFixedType =>
    "delete statement only allowed on dynamic types or dynamic classes."
  | deleteOperand =>
    "The operand of a delete statement must be a property or element reference."
  | typeofInExtended => "'typeof' operator not supported in the extended dialect."
  | arrayOutsideExtended => "Native arrays are only supported in the extended dialect."
  | jaggedArray =>
    "Creating jagged native arrays is not supported; use a single multi-dimensional array."
  | initializerRank =>
    "An array initializer cannot create the multi-dimensional array type '\x7b0\x7d'."

end Message

end Dynascript
