import PascalTree.Node.Basic

/-!
# Type — the types of stored values

Everything that can be read from a document has a code: scalars, options and lists, the records
and enumerations around nodes, and the trees themselves. `Ty.Val` gives the values of a code.
-/

namespace PascalTree
namespace Stored

/-- The types of trees: the twenty kinds of nodes and the four kinds of slots. -/
inductive TreeType where
  | node (kind : Kind)
  | expr
  | stmt
  | target
  | entry
  deriving DecidableEq

/-- The nodes of a kind. -/
abbrev NodeOf : Kind → Type
  | .literal => Literal
  | .ident => Ident
  | .elementRef => ElementRef
  | .binaryOp => BinaryOp
  | .identList => IdentList
  | .typeSpec => TypeSpec
  | .varDecl => VarDecl
  | .arrayDecl => ArrayDecl
  | .varSection => VarSection
  | .call => Call
  | .assign => Assign
  | .ifStmt => If
  | .whileStmt => While
  | .forStmt => For
  | .stmtList => StmtList
  | .body => Body
  | .params => Params
  | .program => Program
  | .procedureDecl => ProcedureDecl
  | .functionDecl => FunctionDecl

namespace TreeType

/-- The trees of a type. -/
abbrev Val : TreeType → Type
  | node kind => NodeOf kind
  | expr => Expr
  | stmt => Stmt
  | target => AssignTarget
  | entry => VarEntry

/-- The node of a tree; a slot is left for the node standing in it. -/
def toNode : (t : TreeType) → t.Val → Node
  | node .literal, n => .literal n
  | node .ident, n => .ident n
  | node .elementRef, n => .elementRef n
  | node .binaryOp, n => .binaryOp n
  | node .identList, n => .identList n
  | node .typeSpec, n => .typeSpec n
  | node .varDecl, n => .varDecl n
  | node .arrayDecl, n => .arrayDecl n
  | node .varSection, n => .varSection n
  | node .call, n => .call n
  | node .assign, n => .assign n
  | node .ifStmt, n => .ifStmt n
  | node .whileStmt, n => .whileStmt n
  | node .forStmt, n => .forStmt n
  | node .stmtList, n => .stmtList n
  | node .body, n => .body n
  | node .params, n => .params n
  | node .program, n => .program n
  | node .procedureDecl, n => .procedureDecl n
  | node .functionDecl, n => .functionDecl n
  | expr, e => e.toNode
  | stmt, s => s.toNode
  | target, t => t.toNode
  | entry, e => e.toNode

end TreeType

/-- A node with its kind as a type. -/
def ofNode : (n : Node) → NodeOf n.kind
  | .literal n => n
  | .ident n => n
  | .elementRef n => n
  | .binaryOp n => n
  | .identList n => n
  | .typeSpec n => n
  | .varDecl n => n
  | .arrayDecl n => n
  | .varSection n => n
  | .call n => n
  | .assign n => n
  | .ifStmt n => n
  | .whileStmt n => n
  | .forStmt n => n
  | .stmtList n => n
  | .body n => n
  | .params n => n
  | .program n => n
  | .procedureDecl n => n
  | .functionDecl n => n

/-- The types of stored values. -/
inductive Ty where
  | unit
  | flag
  | text
  /-- Unsigned numbers of 32 bits. -/
  | word32
  /-- Numbers of nodes: unsigned, of 64 bits. -/
  | index
  /-- Signed numbers of 64 bits. -/
  | integer
  | real
  | optional (t : Ty)
  | list (t : Ty)
  | position
  | props
  | info
  | operator
  | kind
  | literalType
  | value
  | tree (t : TreeType)

namespace Ty

/-- The values of a type. -/
abbrev Val : Ty → Type
  | unit => Unit
  | flag => Bool
  | text => String
  | word32 => UInt32
  | index => Nat
  | integer => Int64
  | real => Numeric.Binary64
  | optional t => Option t.Val
  | list t => List t.Val
  | position => Position
  | props => Props
  | info => NodeInfo
  | operator => Operator
  | kind => Kind
  | literalType => LiteralType
  | value => Value
  | tree t => t.Val

end Ty

end Stored
end PascalTree
