import PascalTree.BuildError
import PascalTree.Numeric.Shortest

/-!
# Fault — why a document was refused

* `Fault`: the causes, those of the text and those of its content;
* `Fault.message`: their wording.
-/

namespace PascalTree
namespace Json

/-- What was being read when the text ended. -/
inductive Part where
  | value
  | list
  | object
  | string
  deriving DecidableEq

/-- What was found where something else was expected. -/
inductive Found where
  | null
  | boolean (b : Bool)
  | integer (n : Int)
  | real (x : Numeric.Binary64)
  | string (s : String)
  | sequence
  | map
  /-- The bare name of a variant. -/
  | bareVariant

/-- What was expected. -/
inductive Expected where
  | unit
  | boolean
  | string
  | sequence
  /-- An unsigned number of 32 bits. -/
  | word32
  /-- An unsigned number of 64 bits that serves as an index. -/
  | index
  /-- A signed number of 64 bits. -/
  | integer
  | real
  | record (name : String)
  /-- A variant together with its content. -/
  | variantContent

/-- Why a document was refused. -/
inductive Fault where
  | endOfInput (within : Part)
  | expectedColon
  | expectedListCommaOrEnd
  | expectedObjectCommaOrEnd
  | expectedValue
  | expectedWord
  | invalidEscape
  | invalidNumber
  | numberOutOfRange
  | controlCharacter
  | loneSurrogate
  | unfinishedSurrogatePair
  | keyNotString
  | trailingComma
  | trailingCharacters
  | nestedTooDeep
  | wrongType (found : Found) (expected : Expected)
  | wrongValue (found : Found) (expected : Expected)
  | unknownVariant (name : String) (known : List String)
  | missingField (name : String)
  | duplicateField (name : String)
  | wrongLength (found : Nat) (record : String) (size : Nat)
  /-- The parts were read, but no node can be built from them. -/
  | refused (error : BuildError)

namespace Part

def describe : Part → String
  | value => "a value"
  | list => "a list"
  | object => "an object"
  | string => "a string"

end Part

/-- Reals are written positionally from `10 ^ -5` up to `10 ^ 16`. -/
def realLayout : Numeric.Layout :=
  { leastPositional := -5, greatestPositional := 15 }

/-- A text between backquotes. -/
def backquoted (text : String) : String := "`" ++ text ++ "`"

namespace Found

def describe : Found → String
  | null => "null"
  | boolean b => "boolean " ++ backquoted (if b then "true" else "false")
  | integer n => "integer " ++ backquoted (toString n)
  | real x => "floating point " ++ backquoted (realLayout.render x)
  | string s => "string " ++ Text.quoted s
  | sequence => "sequence"
  | map => "map"
  | bareVariant => "unit variant"

end Found

namespace Expected

def describe : Expected → String
  | unit => "unit"
  | boolean => "a boolean"
  | string => "a string"
  | sequence => "a sequence"
  | word32 => "u32"
  | index => "usize"
  | integer => "i64"
  | real => "f64"
  | record name => "struct " ++ name
  | variantContent => "newtype variant"

end Expected

namespace Fault

/-- The known names of variants: none, one, two, or a list. -/
def describeNames : List String → String
  | [] => "there are no variants"
  | [a] => "expected " ++ backquoted a
  | [a, b] => "expected " ++ backquoted a ++ " or " ++ backquoted b
  | names => "expected one of " ++ ", ".intercalate (names.map backquoted)

/-- A number of elements. -/
def describeSize (n : Nat) : String :=
  if n = 1 then "1 element" else toString n ++ " elements"

def message : Fault → String
  | endOfInput part => "EOF while parsing " ++ part.describe
  | expectedColon => "expected `:`"
  | expectedListCommaOrEnd => "expected `,` or `]`"
  | expectedObjectCommaOrEnd => "expected `,` or `\x7d`"
  | expectedValue => "expected value"
  | expectedWord => "expected ident"
  | invalidEscape => "invalid escape"
  | invalidNumber => "invalid number"
  | numberOutOfRange => "number out of range"
  | controlCharacter => "control character (\\u0000-\\u001F) found while parsing a string"
  | loneSurrogate => "lone leading surrogate in hex escape"
  | unfinishedSurrogatePair => "unexpected end of hex escape"
  | keyNotString => "key must be a string"
  | trailingComma => "trailing comma"
  | trailingCharacters => "trailing characters"
  | nestedTooDeep => "recursion limit exceeded"
  | wrongType found expected =>
    "invalid type: " ++ found.describe ++ ", expected " ++ expected.describe
  | wrongValue found expected =>
    "invalid value: " ++ found.describe ++ ", expected " ++ expected.describe
  | unknownVariant name known => "unknown variant " ++ backquoted name ++ ", " ++ describeNames known
  | missingField name => "missing field " ++ backquoted name
  | duplicateField name => "duplicate field " ++ backquoted name
  | wrongLength found record size =>
    "invalid length " ++ toString found ++ ", expected struct " ++ record ++ " with " ++
      describeSize size
  | refused error => error.message

end Fault

end Json
end PascalTree
