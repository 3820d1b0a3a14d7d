import PascalTree.Kind
import PascalTree.Text.Quoted

/-!
# BuildError — why a node could not be built

Only two constructions can fail: a literal from its text, and a routine from a list of parts.
-/

namespace PascalTree

/-- The parts of a routine declaration. -/
inductive RoutineSlot where
  | name
  | params
  | returnType
  | vars
  | body
  deriving DecidableEq, Repr

namespace RoutineSlot

def describe : RoutineSlot → String
  | name => "name"
  | params => "params"
  | returnType => "return type"
  | vars => "var section"
  | body => "statement list"

end RoutineSlot

/-- Why a node could not be built. -/
inductive BuildError where
  /-- The text is no integer, real, boolean or string literal. -/
  | malformedLiteral (text : String)
  /-- A routine takes `fewest` or one more parts, and `found` were given. -/
  | arity (kind : Kind) (fewest found : Nat)
  /-- The part at the 1-based `position` belongs into another slot. -/
  | unexpectedArgument (kind : Kind) (position : Nat) (expected found : RoutineSlot)
  deriving DecidableEq

namespace BuildError

def message : BuildError → String
  | malformedLiteral text => "malformed literal: " ++ Text.quoted text
  | arity kind fewest found =>
    s!"{kind.name} takes {fewest} or {fewest + 1} arguments, found {found}"
  | unexpectedArgument kind position expected found =>
    s!"{kind.name} argument #{position}: expected {expected.describe}, found {found.describe}"

end BuildError

end PascalTree
