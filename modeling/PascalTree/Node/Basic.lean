import PascalTree.Tree.Routine
import PascalTree.Tree.Weight

/-!
# Node — the uniform view of a tree

A `Node` is a node of any kind. All kinds share a label, the information they carry and an
ordered list of children, and every slot can be viewed as the node standing in it.

* `Node.children`: the direct children in source order, absent parts left out;
* `Node.weight_eq`: the weight of a node is that of its kind plus the weights of its children,
  so the typed recursion and the uniform view see the same nodes.
-/

namespace PascalTree

open Numeric (total)

/-- A node of any kind. -/
inductive Node where
  | literal (n : Literal)
  | ident (n : Ident)
  | elementRef (n : ElementRef)
  | binaryOp (n : BinaryOp)
  | identList (n : IdentList)
  | typeSpec (n : TypeSpec)
  | varDecl (n : VarDecl)
  | arrayDecl (n : ArrayDecl)
  | varSection (n : VarSection)
  | call (n : Call)
  | assign (n : Assign)
  | ifStmt (n : If)
  | whileStmt (n : While)
  | forStmt (n : For)
  | stmtList (n : StmtList)
  | body (n : Body)
  | params (n : Params)
  | program (n : Program)
  | procedureDecl (n : ProcedureDecl)
  | functionDecl (n : FunctionDecl)

/-! ## Slots as nodes -/

namespace Expr

def toNode : Expr → Node
  | literal n => .literal n
  | ident n => .ident n
  | element n => .elementRef n
  | binary n => .binaryOp n
  | call n => .call n

end Expr

namespace AssignTarget

def toNode : AssignTarget → Node
  | ident n => .ident n
  | element n => .elementRef n

end AssignTarget

namespace VarEntry

def toNode : VarEntry → Node
  | var n => .varDecl n
  | array n => .arrayDecl n

end VarEntry

namespace Stmt

def toNode : Stmt → Node
  | assign n => .assign n
  | call n => .call n
  | ifThen n => .ifStmt n
  | whileDo n => .whileStmt n
  | forTo n => .forStmt n
  | list n => .stmtList n
  | body n => .body n
  | procedure n => .procedureDecl n
  | function n => .functionDecl n

end Stmt

namespace RoutinePart

/-- The node that is a part of a routine. -/
def toNode : RoutinePart → Node
  | ⟨.name, n⟩ => .ident n
  | ⟨.params, n⟩ => .params n
  | ⟨.returnType, n⟩ => .typeSpec n
  | ⟨.vars, n⟩ => .varSection n
  | ⟨.body, n⟩ => .stmtList n

end RoutinePart

namespace Node

/-! ## Nodes in slots -/

/-- The expression a node is, if its kind may stand in an expression slot. -/
def toExpr? : Node → Option Expr
  | literal n => some (.literal n)
  | ident n => some (.ident n)
  | elementRef n => some (.element n)
  | binaryOp n => some (.binary n)
  | call n => some (.call n)
  | _ => none

/-- The assignment target a node is, if its kind may stand in such a slot. -/
def toTarget? : Node → Option AssignTarget
  | ident n => some (.ident n)
  | elementRef n => some (.element n)
  | _ => none

/-- The declaration a node is, if its kind may stand in a `var` section. -/
def toDeclaration? : Node → Option VarEntry
  | varDecl n => some (.var n)
  | arrayDecl n => some (.array n)
  | _ => none

/-- The statement a node is, if its kind may stand in a statement slot. -/
def toStmt? : Node → Option Stmt
  | assign n => some (.assign n)
  | call n => some (.call n)
  | ifStmt n => some (.ifThen n)
  | whileStmt n => some (.whileDo n)
  | forStmt n => some (.forTo n)
  | stmtList n => some (.list n)
  | body n => some (.body n)
  | procedureDecl n => some (.procedure n)
  | functionDecl n => some (.function n)
  | _ => none

/-- The part of a routine a node is, if its kind is one of theirs. -/
def toRoutinePart? : Node → Option RoutinePart
  | ident n => some ⟨.name, n⟩
  | params n => some ⟨.params, n⟩
  | typeSpec n => some ⟨.returnType, n⟩
  | varSection n => some ⟨.vars, n⟩
  | stmtList n => some ⟨.body, n⟩
  | _ => none

/-! ## What all kinds share -/

def kind : Node → Kind
  | literal _ => .literal
  | ident _ => .ident
  | elementRef _ => .elementRef
  | binaryOp _ => .binaryOp
  | identList _ => .identList
  | typeSpec _ => .typeSpec
  | varDecl _ => .varDecl
  | arrayDecl _ => .arrayDecl
  | varSection _ => .varSection
  | call _ => .call
  | assign _ => .assign
  | ifStmt _ => .ifStmt
  | whileStmt _ => .whileStmt
  | forStmt _ => .forStmt
  | stmtList _ => .stmtList
  | body _ => .body
  | params _ => .params
  | program _ => .program
  | procedureDecl _ => .procedureDecl
  | functionDecl _ => .functionDecl

def info : Node → NodeInfo
  | literal n => n.info
  | ident n => n.info
  | elementRef n => n.info
  | binaryOp n => n.info
  | identList n => n.info
  | typeSpec n => n.info
  | varDecl n => n.info
  | arrayDecl n => n.info
  | varSection n => n.info
  | call n => n.info
  | assign n => n.info
  | ifStmt n => n.info
  | whileStmt n => n.info
  | forStmt n => n.info
  | stmtList n => n.info
  | body n => n.info
  | params n => n.info
  | program n => n.info
  | procedureDecl n => n.info
  | functionDecl n => n.info

/-- The same node with other information; its parts keep theirs. -/
def withInfo (info : NodeInfo) : Node → Node
  | literal n => .literal { n with info }
  | ident n => .ident { n with info }
  | elementRef n => .elementRef { n with info }
  | binaryOp n => .binaryOp { n with info }
  | identList n => .identList { n with info }
  | typeSpec n => .typeSpec { n with info }
  | varDecl n => .varDecl { n with info }
  | arrayDecl n => .arrayDecl { n with info }
  | varSection n => .varSection { n with info }
  | call n => .call { n with info }
  | assign n => .assign { n with info }
  | ifStmt n => .ifStmt { n with info }
  | whileStmt n => .whileStmt { n with info }
  | forStmt n => .forStmt { n with info }
  | stmtList n => .stmtList { n with info }
  | body n => .body { n with info }
  | params n => .params { n with info }
  | program n => .program { n with info }
  | procedureDecl n => .procedureDecl { n with info }
  | functionDecl n => .functionDecl { n with info }

/-- The same node at another place of the source text. -/
def moveTo (line row : UInt32) (n : Node) : Node := n.withInfo (n.info.moveTo line row)

/-- The label of a node in an outline. -/
def label : Node → String
  | literal n => n.label
  | ident n => n.name
  | elementRef _ => "[]"
  | binaryOp n => n.op.symbol
  | identList _ => "idents"
  | typeSpec n => n.name
  | varDecl _ => "var_dec"
  | arrayDecl _ => "arr_decl"
  | varSection _ => "var"
  | call _ => "call"
  | assign _ => ":="
  | ifStmt _ => "if"
  | whileStmt _ => "while"
  | forStmt _ => "for"
  | stmtList _ => "..."
  | body _ => "Body"
  | params _ => "params"
  | program _ => "Program"
  | procedureDecl _ => "procedure"
  | functionDecl _ => "function"

/-- The direct children in source order; absent parts are left out. -/
def children : Node → List Node
  | literal _ | ident _ | typeSpec _ => []
  | elementRef n => [.ident n.base, n.index.toNode]
  | binaryOp n => [n.left.toNode, n.right.toNode]
  | identList n => n.idents.map .ident
  | varDecl n => [.identList n.idents, .typeSpec n.type]
  | arrayDecl n => [.typeSpec n.elemType, .ident n.name, .literal n.lower, .literal n.upper]
  | varSection n => n.entries.map VarEntry.toNode
  | call n => .ident n.callee :: n.args.map Expr.toNode
  | assign n => [n.target.toNode, n.value.toNode]
  | ifStmt n => n.cond.toNode :: n.thenBranch.toNode :: n.elseBranch.toList.map Stmt.toNode
  | whileStmt n => [n.cond.toNode, n.body.toNode]
  | forStmt n => [n.init.toNode, n.bound.toNode, n.body.toNode]
  | stmtList n => n.stmts.map Stmt.toNode
  | body n => [.stmtList n.list]
  | params n => n.decls.map .varDecl
  | program n => [.ident n.name, .varSection n.vars, .stmtList n.body]
  | procedureDecl n => [.ident n.name, .params n.params, .varSection n.vars, .stmtList n.body]
  | functionDecl n =>
    [.ident n.name, .params n.params, .typeSpec n.returnType, .varSection n.vars,
     .stmtList n.body]

/-- The child at a 0-based index. -/
def child? (n : Node) (index : Nat) : Option Node := n.children[index]?

/-- Structural equality: same kind and equal parts. -/
def equal : Node → Node → Bool
  | literal a, literal b => a == b
  | ident a, ident b => a == b
  | elementRef a, elementRef b => a == b
  | binaryOp a, binaryOp b => a == b
  | identList a, identList b => a == b
  | typeSpec a, typeSpec b => a == b
  | varDecl a, varDecl b => a == b
  | arrayDecl a, arrayDecl b => a == b
  | varSection a, varSection b => a == b
  | call a, call b => a == b
  | assign a, assign b => a == b
  | ifStmt a, ifStmt b => a == b
  | whileStmt a, whileStmt b => a == b
  | forStmt a, forStmt b => a == b
  | stmtList a, stmtList b => a == b
  | body a, body b => a == b
  | params a, params b => a == b
  | program a, program b => a == b
  | procedureDecl a, procedureDecl b => a == b
  | functionDecl a, functionDecl b => a == b
  | _, _ => false

instance : BEq Node := ⟨equal⟩

/-! ## Weight -/

/-- The weight of the tree below a node, by its typed parts. -/
def weight (f : Kind → Nat) : Node → Nat
  | literal n => n.weight f
  | ident n => n.weight f
  | elementRef n => n.weight f
  | binaryOp n => n.weight f
  | identList n => n.weight f
  | typeSpec n => n.weight f
  | varDecl n => n.weight f
  | arrayDecl n => n.weight f
  | varSection n => n.weight f
  | call n => n.weight f
  | assign n => n.weight f
  | ifStmt n => n.weight f
  | whileStmt n => n.weight f
  | forStmt n => n.weight f
  | stmtList n => n.weight f
  | body n => n.weight f
  | params n => n.weight f
  | program n => n.weight f
  | procedureDecl n => n.weight f
  | functionDecl n => n.weight f

section

variable (f : Kind → Nat)

@[simp]
theorem weight_literal (n : Literal) : (Node.literal n).weight f = n.weight f := rfl

@[simp]
theorem weight_ident (n : Ident) : (Node.ident n).weight f = n.weight f := rfl

@[simp]
theorem weight_elementRef (n : ElementRef) : (Node.elementRef n).weight f = n.weight f := rfl

@[simp]
theorem weight_binaryOp (n : BinaryOp) : (Node.binaryOp n).weight f = n.weight f := rfl

@[simp]
theorem weight_identList (n : IdentList) : (Node.identList n).weight f = n.weight f := rfl

@[simp]
theorem weight_typeSpec (n : TypeSpec) : (Node.typeSpec n).weight f = n.weight f := rfl

@[simp]
theorem weight_varDecl (n : VarDecl) : (Node.varDecl n).weight f = n.weight f := rfl

@[simp]
theorem weight_arrayDecl (n : ArrayDecl) : (Node.arrayDecl n).weight f = n.weight f := rfl

@[simp]
theorem weight_varSection (n : VarSection) : (Node.varSection n).weight f = n.weight f := rfl

@[simp]
theorem weight_call (n : Call) : (Node.call n).weight f = n.weight f := rfl

@[simp]
theorem weight_assign (n : Assign) : (Node.assign n).weight f = n.weight f := rfl

@[simp]
theorem weight_ifStmt (n : If) : (Node.ifStmt n).weight f = n.weight f := rfl

@[simp]
theorem weight_whileStmt (n : While) : (Node.whileStmt n).weight f = n.weight f := rfl

@[simp]
theorem weight_forStmt (n : For) : (Node.forStmt n).weight f = n.weight f := rfl

@[simp]
theorem weight_stmtList (n : StmtList) : (Node.stmtList n).weight f = n.weight f := rfl

@[simp]
theorem weight_body (n : Body) : (Node.body n).weight f = n.weight f := rfl

@[simp]
theorem weight_params (n : Params) : (Node.params n).weight f = n.weight f := rfl

@[simp]
theorem weight_program (n : Program) : (Node.program n).weight f = n.weight f := rfl

@[simp]
theorem weight_procedureDecl (n : ProcedureDecl) :
    (Node.procedureDecl n).weight f = n.weight f := rfl

@[simp]
theorem weight_functionDecl (n : FunctionDecl) : (Node.functionDecl n).weight f = n.weight f := rfl

end

/-- The number of nodes below a node, itself included. -/
def size (n : Node) : Nat := n.weight fun _ => 1

end Node

@[simp]
theorem Expr.weight_toNode (f : Kind → Nat) (e : Expr) : e.toNode.weight f = e.weight f := by
  cases e <;> simp [Expr.toNode, Expr.weight]

@[simp]
theorem AssignTarget.weight_toNode (f : Kind → Nat) (t : AssignTarget) :
    t.toNode.weight f = t.weight f := by
  cases t <;> rfl

@[simp]
theorem VarEntry.weight_toNode (f : Kind → Nat) (e : VarEntry) :
    e.toNode.weight f = e.weight f := by
  cases e <;> rfl

@[simp]
theorem Stmt.weight_toNode (f : Kind → Nat) (s : Stmt) : s.toNode.weight f = s.weight f := by
  cases s <;> simp [Stmt.toNode, Stmt.weight]

namespace Node

/-- The weight of a node is the weight of its kind plus the weights of its children. -/
theorem weight_eq (f : Kind → Nat) (n : Node) :
    n.weight f = f n.kind + total (n.children.map (weight f)) := by
  cases n with
  | literal n => simp [kind, children, Literal.weight]
  | ident n => simp [kind, children, Ident.weight]
  | typeSpec n => simp [kind, children, TypeSpec.weight]
  | elementRef n => cases n; simp [kind, children, ElementRef.weight]; omega
  | binaryOp n => cases n; simp [kind, children, BinaryOp.weight]; omega
  | identList n =>
    simp [kind, children, IdentList.weight, Function.comp_def]
  | varDecl n => simp [kind, children, VarDecl.weight]; omega
  | arrayDecl n => simp [kind, children, ArrayDecl.weight]; omega
  | varSection n => simp [kind, children, VarSection.weight, Function.comp_def]
  | call n =>
    cases n
    simp [kind, children, Call.weight, Expr.weightAll_eq_total, Function.comp_def, Nat.add_assoc]
  | assign n => simp [kind, children, Assign.weight]; omega
  | ifStmt n =>
    obtain ⟨_, _, elseBranch, _⟩ := n
    cases elseBranch <;> simp [kind, children, If.weight, Stmt.weightOptional] <;> omega
  | whileStmt n => cases n; simp [kind, children, While.weight]; omega
  | forStmt n => cases n; simp [kind, children, For.weight]; omega
  | stmtList n =>
    cases n
    simp [kind, children, StmtList.weight, Stmt.weightAll_eq_total, Function.comp_def]
  | body n => cases n; simp [kind, children, Body.weight]
  | params n => simp [kind, children, Params.weight, Function.comp_def]
  | program n => simp [kind, children, Program.weight]; omega
  | procedureDecl n => cases n; simp [kind, children, ProcedureDecl.weight]; omega
  | functionDecl n => cases n; simp [kind, children, FunctionDecl.weight]; omega

/-- A node counts one more than its children together. -/
theorem size_eq (n : Node) : n.size = 1 + total (n.children.map size) := by
  have h := n.weight_eq fun _ => 1
  exact h

/-- A child is smaller than its parent. -/
theorem size_lt_of_mem_children {c n : Node} (h : c ∈ n.children) : c.size < n.size := by
  have hle : ∀ {ns : List Node}, c ∈ ns → c.size ≤ total (ns.map size) := by
    intro ns hc
    induction ns with
    | nil => cases hc
    | cons m ns ih =>
      simp only [List.map_cons, Numeric.total_cons]
      cases hc with
      | head => omega
      | tail _ hc => have := ih hc; omega
  have := hle h
  rw [size_eq n]
  omega

end Node

end PascalTree
