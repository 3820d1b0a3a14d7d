/-!
# NodeInfo — what every node carries besides its parts

A node knows where it was read, whether it was filled in without source text of its own, and
possibly a note for diagnostics. All of this is fixed when the node is built.
-/

namespace PascalTree

/-- A place in the source text; both coordinates count from one and either may be unknown. -/
structure Position where
  line : Option UInt32 := none
  row : Option UInt32 := none
  deriving DecidableEq, Inhabited

namespace Position

/-- The place with both coordinates known. -/
def located (line row : UInt32) : Position := { line := some line, row := some row }

def unknown : Position := {}

/-- Whether at least one coordinate is known. -/
def isKnown (p : Position) : Bool := p.line.isSome || p.row.isSome

end Position

/-- Properties of a node: whether it has no source text of its own, and a note. -/
structure Props where
  synthesized : Bool := false
  note : Option String := none
  deriving DecidableEq, Inhabited

/-- Position and properties of a node. -/
structure NodeInfo where
  pos : Position := {}
  props : Props := {}
  deriving DecidableEq, Inhabited

namespace NodeInfo

/-- A known place and no properties. -/
def located (line row : UInt32) : NodeInfo := { pos := Position.located line row }

/-- What a node carries that stands for absent source text. -/
def synthesized : NodeInfo := { props := { synthesized := true } }

def withNote (info : NodeInfo) (note : String) : NodeInfo :=
  { info with props := { info.props with note := some note } }

/-- The same properties at another place. -/
def moveTo (info : NodeInfo) (line row : UInt32) : NodeInfo :=
  { info with pos := Position.located line row }

/-- Whether nothing is known about the node. -/
def isDefault (info : NodeInfo) : Bool := info == {}

end NodeInfo

end PascalTree
