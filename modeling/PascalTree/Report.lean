import PascalTree.Node.Outline
import PascalTree.Stored.Read

/-!
# Report — what can be asked about a program

Each report is one text without a final line end: the outline of a program, the numbers of its
nodes by kind, its identifiers, or the classification of a literal.
-/

namespace PascalTree

/-- Why a report could not be given. -/
inductive ReportError where
  /-- The text of a program was refused. -/
  | load (error : Stored.LoadError)
  /-- A literal was refused. -/
  | build (error : BuildError)

namespace ReportError

def message : ReportError → String
  | load error => "invalid syntax tree: " ++ error.message
  | build error => error.message

end ReportError

namespace Report

/-- Loads a program from its stored text. -/
def parseProgram (source : String) : Except ReportError Program :=
  (Stored.loadTree (.node .program) source).mapError .load

/-- The outline of a program. -/
def render (p : Program) : String := (Node.program p).dump

/-- Counts a node, in the place of its kind. -/
def countNode (n : Node) (counts : Vector Nat Kind.all.length) : Vector Nat Kind.all.length :=
  have := n.kind.rank_lt
  counts.set n.kind.rank (counts[n.kind.rank] + 1)

/-- The number of nodes of each kind, in the places of the kinds. -/
def tally (p : Program) : Vector Nat Kind.all.length :=
  (Node.program p).visit countNode (Vector.replicate Kind.all.length 0)

/-- The number of nodes, and the number of nodes of each kind that occurs. -/
def stats (p : Program) : String :=
  let total := s!"nodes: {(Node.program p).count}"
  let perKind := (Kind.all.zip (tally p).toList).filterMap fun (k, count) =>
    if 0 < count then some s!"  {k.name}: {count}" else none
  Text.joinLines (total :: perKind)

/-- The names of all identifiers in pre-order, one on each line. -/
def idents (p : Program) : String :=
  let names := (Node.program p).preorder.filterMap fun
    | .ident n => some n.name
    | _ => none
  Text.joinLines names

/-- A literal text followed by its type. -/
def literal (text : String) : Except ReportError String :=
  (Literal.ofText text).map Literal.label |>.mapError .build

end Report

end PascalTree
