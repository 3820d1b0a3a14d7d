import PascalTree.Literal.Basic
import PascalTree.Operator

/-!
# Expr — identifiers, expressions and assignment targets

Each node kind is a structure of its parts; `Expr` and `AssignTarget` are the slots such nodes
stand in.
-/

namespace PascalTree

/-- An identifier. -/
structure Ident where
  name : String
  info : NodeInfo := {}
  deriving DecidableEq, Inhabited

mutual

/-- An expression slot. -/
inductive Expr where
  | literal (node : Literal)
  | ident (node : Ident)
  | element (node : ElementRef)
  | binary (node : BinaryOp)
  | call (node : Call)

/-- One element of an array: `base[index]`. -/
structure ElementRef where
  base : Ident
  index : Expr
  info : NodeInfo := {}

/-- A binary operation: `left op right`. -/
structure BinaryOp where
  op : Operator
  left : Expr
  right : Expr
  info : NodeInfo := {}

/-- A call of a procedure or function: `callee(args)`. -/
structure Call where
  callee : Ident
  args : List Expr
  info : NodeInfo := {}

end

/-- The left-hand side of an assignment. -/
inductive AssignTarget where
  | ident (node : Ident)
  | element (node : ElementRef)

/-! ## Structural equality -/

mutual

def Expr.equal : Expr → Expr → Bool
  | .literal a, .literal b => a == b
  | .ident a, .ident b => a == b
  | .element a, .element b => a.equal b
  | .binary a, .binary b => a.equal b
  | .call a, .call b => a.equal b
  | _, _ => false
termination_by structural e => e

def ElementRef.equal : ElementRef → ElementRef → Bool
  | ⟨base, index, info⟩, ⟨base', index', info'⟩ =>
    base == base' && index.equal index' && info == info'
termination_by structural n => n

def BinaryOp.equal : BinaryOp → BinaryOp → Bool
  | ⟨op, left, right, info⟩, ⟨op', left', right', info'⟩ =>
    op == op' && left.equal left' && right.equal right' && info == info'
termination_by structural n => n

def Call.equal : Call → Call → Bool
  | ⟨callee, args, info⟩, ⟨callee', args', info'⟩ =>
    callee == callee' && Expr.equalAll args args' && info == info'
termination_by structural n => n

/-- Pairwise equality of two lists of expressions. -/
def Expr.equalAll : List Expr → List Expr → Bool
  | [], [] => true
  | a :: as, b :: bs => a.equal b && Expr.equalAll as bs
  | _, _ => false
termination_by structural es => es

end

instance : BEq Expr := ⟨Expr.equal⟩
instance : BEq ElementRef := ⟨ElementRef.equal⟩
instance : BEq BinaryOp := ⟨BinaryOp.equal⟩
instance : BEq Call := ⟨Call.equal⟩

namespace AssignTarget

def equal : AssignTarget → AssignTarget → Bool
  | ident a, ident b => a == b
  | element a, element b => a == b
  | _, _ => false

instance : BEq AssignTarget := ⟨equal⟩

end AssignTarget

end PascalTree
