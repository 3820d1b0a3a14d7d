import PascalTree.BuildError
import PascalTree.Literal.Form
import PascalTree.NodeInfo

/-!
# Literal — literal nodes and their resolution

A literal keeps its source text beside the value that the text resolves to. Text is resolved as a
whole and never evaluated; any other text is malformed.
-/

namespace PascalTree

/-- The type of a literal text, by its written form alone. -/
def classify (text : String) : Except BuildError LiteralType :=
  match Form.parse? text with
  | some form => .ok form.type
  | none => .error (.malformedLiteral text)

/-- The value of a literal text. -/
def resolve (text : String) : Except BuildError Value :=
  match (Form.parse? text).bind Form.value? with
  | some value => .ok value
  | none => .error (.malformedLiteral text)

/-- A literal: its source text and the value resolved from it. -/
structure Literal where
  text : String
  value : Value
  info : NodeInfo := {}
  deriving DecidableEq

namespace Literal

/-- The literal with the given source text. -/
def ofText (text : String) (info : NodeInfo := {}) : Except BuildError Literal :=
  (resolve text).map fun value => { text, value, info }

def type (n : Literal) : LiteralType := n.value.type

/-- The source text followed by the type in parentheses. -/
def label (n : Literal) : String := s!"{n.text} ({n.type.name})"

def equal (a b : Literal) : Bool := a.text == b.text && a.value == b.value && a.info == b.info

instance : BEq Literal := ⟨equal⟩

end Literal

end PascalTree
