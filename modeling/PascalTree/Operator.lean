import PascalTree.Text.Ascii

/-!
# Operator — binary operators and their families
-/

namespace PascalTree

/-- The family of an operator. -/
inductive OperatorClass where
  | arithmetic
  | relational
  | logical
  deriving DecidableEq, Repr

namespace OperatorClass

def name : OperatorClass → String
  | arithmetic => "Arithmetic"
  | relational => "Relational"
  | logical => "Logical"

end OperatorClass

/-- The binary operators. `divide` is real division, `div` integer division. -/
inductive Operator where
  | add
  | sub
  | mul
  | divide
  | div
  | mod
  | ge
  | le
  | ne
  | eq
  | gt
  | lt
  | and
  | or
  deriving DecidableEq, Inhabited, Repr

namespace Operator

/-- All operators in their fixed order. -/
def all : List Operator :=
  [.add, .sub, .mul, .divide, .div, .mod, .ge, .le, .ne, .eq, .gt, .lt, .and, .or]

/-- How an operator is written in source text. -/
def symbol : Operator → String
  | add => "+"
  | sub => "-"
  | mul => "*"
  | divide => "/"
  | div => "div"
  | mod => "mod"
  | ge => ">="
  | le => "<="
  | ne => "<>"
  | eq => "="
  | gt => ">"
  | lt => "<"
  | and => "and"
  | or => "or"

/-- The tag of an operator in stored documents. -/
def tag : Operator → String
  | add => "Add"
  | sub => "Sub"
  | mul => "Mul"
  | divide => "Division"
  | div => "Div"
  | mod => "Mod"
  | ge => "Ge"
  | le => "Le"
  | ne => "Ne"
  | eq => "Eq"
  | gt => "Gt"
  | lt => "Lt"
  | and => "And"
  | or => "Or"

/-- The family of an operator. -/
def operatorClass : Operator → OperatorClass
  | add | sub | mul | divide | div | mod => .arithmetic
  | ge | le | ne | eq | gt | lt => .relational
  | and | or => .logical

/-- The operator written `symbol`; word operators may be written in either case. -/
def ofSymbol? (symbol : String) : Option Operator :=
  all.find? fun op => Text.sameIgnoringCase op.symbol symbol

end Operator

end PascalTree
