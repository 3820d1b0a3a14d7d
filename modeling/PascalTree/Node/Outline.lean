import PascalTree.Node.Walk
import PascalTree.Text.Lines

/-!
# Outline — a tree drawn with box characters

One line per node: its label, behind one two-character group per level. A node with later
siblings is marked `├ ` and the lines below it go on with `│ `; a last child is marked `└ ` and
the lines below it are indented by two blanks.

```text
Program
├ Demo
├ var
└ ...
  └ :=
    ├ x
    └ 5 (int)
```
-/

namespace PascalTree
namespace Outline

/-- The groups put before the first line and before the other lines of a child's block. -/
structure Marker where
  first : String
  rest : String

/-- The marker of a child with later siblings. -/
def Marker.branch : Marker := { first := "├ ", rest := "│ " }

/-- The marker of a last child. -/
def Marker.last : Marker := { first := "└ ", rest := "  " }

/-- A child's block of lines, marked. -/
def Marker.apply (m : Marker) : List String → List String
  | [] => []
  | line :: lines => (m.first ++ line) :: lines.map (m.rest ++ ·)

/-- The blocks of all children of a node, marked and joined. -/
def join : List (List String) → List String
  | [] => []
  | [block] => Marker.last.apply block
  | block :: blocks => Marker.branch.apply block ++ join blocks

end Outline

namespace Node

/-- The lines of a tree's outline. -/
def render (n : Node) : List String :=
  n.label :: Outline.join (n.children.attach.map fun ⟨c, _⟩ => c.render)
termination_by n.size
decreasing_by
  exact size_lt_of_mem_children (by assumption)

theorem render_eq (n : Node) : n.render = n.label :: Outline.join (n.children.map render) := by
  rw [render]
  simp

/-- The outline as one text. -/
def dump (n : Node) : String := Text.joinLines n.render

end Node

end PascalTree
