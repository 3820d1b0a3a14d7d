import PascalTree.Numeric.Binary64

/-!
# Value — typed literal values
-/

namespace PascalTree

/-- The type of a literal. -/
inductive LiteralType where
  | integer
  | real
  | boolean
  | string
  deriving DecidableEq, Inhabited, Repr

namespace LiteralType

def all : List LiteralType := [.integer, .real, .boolean, .string]

/-- The short name shown behind a literal's text. -/
def name : LiteralType → String
  | integer => "int"
  | real => "real"
  | boolean => "bool"
  | string => "str"

/-- The tag of a literal type in stored documents. -/
def tag : LiteralType → String
  | integer => "Integer"
  | real => "Real"
  | boolean => "Boolean"
  | string => "String"

end LiteralType

/-- A literal value: a 64-bit integer, a double, a truth value or a text. -/
inductive Value where
  | integer (n : Int64)
  | real (x : Numeric.Binary64)
  | boolean (b : Bool)
  | string (s : String)
  deriving DecidableEq, Inhabited

namespace Value

def type : Value → LiteralType
  | integer _ => .integer
  | real _ => .real
  | boolean _ => .boolean
  | string _ => .string

def integer? : Value → Option Int64
  | integer n => some n
  | _ => none

def real? : Value → Option Numeric.Binary64
  | real x => some x
  | _ => none

def boolean? : Value → Option Bool
  | boolean b => some b
  | _ => none

def string? : Value → Option String
  | string s => some s
  | _ => none

/-- Equality of values of one type; reals are compared as numbers. -/
def equal : Value → Value → Bool
  | integer a, integer b => a == b
  | real a, real b => a == b
  | boolean a, boolean b => a == b
  | string a, string b => a == b
  | _, _ => false

instance : BEq Value := ⟨equal⟩

end Value

end PascalTree
