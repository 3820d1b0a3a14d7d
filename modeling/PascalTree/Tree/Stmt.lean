import PascalTree.Tree.Decl

/-!
# Stmt — statements, routines and programs

Routines may be declared wherever a statement may stand, so statements and routines are defined
together. An absent statement is represented by an empty statement list.
-/

namespace PascalTree

/-- An assignment: `target := value`. -/
structure Assign where
  target : AssignTarget
  value : Expr
  info : NodeInfo := {}

mutual

/-- A statement slot. -/
inductive Stmt where
  | assign (node : Assign)
  | call (node : Call)
  | ifThen (node : If)
  | whileDo (node : While)
  | forTo (node : For)
  | list (node : StmtList)
  | body (node : Body)
  | procedure (node : ProcedureDecl)
  | function (node : FunctionDecl)

/-- A conditional: `if cond then thenBranch` with an optional `else` branch. -/
structure If where
  cond : Expr
  thenBranch : Stmt
  elseBranch : Option Stmt := none
  info : NodeInfo := {}

/-- A loop: `while cond do body`. -/
structure While where
  cond : Expr
  body : Stmt
  info : NodeInfo := {}

/-- A counting loop: `for init to bound do body`. An absent initializer or body is the empty
statement, so that the node always has three children. -/
structure For where
  init : Stmt
  bound : Expr
  body : Stmt
  info : NodeInfo := {}

/-- A sequence of statements. -/
structure StmtList where
  stmts : List Stmt
  info : NodeInfo := {}

/-- A block: `begin list end`. -/
structure Body where
  list : StmtList
  info : NodeInfo := {}

/-- A procedure: `procedure name(params); vars; body`. -/
structure ProcedureDecl where
  name : Ident
  params : Params
  vars : VarSection
  body : StmtList
  info : NodeInfo := {}

/-- A function: `function name(params): returnType; vars; body`. -/
structure FunctionDecl where
  name : Ident
  params : Params
  returnType : TypeSpec
  vars : VarSection
  body : StmtList
  info : NodeInfo := {}

end

/-- A complete program: `program name; vars; body`. -/
structure Program where
  name : Ident
  vars : VarSection
  body : StmtList
  info : NodeInfo := {}

/-! ## Empty statements -/

namespace StmtList

/-- The list that stands for an absent statement. -/
def empty : StmtList := { stmts := [], info := .synthesized }

def isEmpty (n : StmtList) : Bool := n.stmts.isEmpty

end StmtList

namespace Stmt

/-- The statement that stands for an absent one. -/
def empty : Stmt := .list .empty

/-- Whether a statement is a list without members. -/
def isEmpty : Stmt → Bool
  | list node => node.isEmpty
  | _ => false

end Stmt

namespace For

/-- A counting loop; an absent initializer or body becomes the empty statement. -/
def ofOptional (init? : Option Stmt) (bound : Expr) (body? : Option Stmt) : For :=
  { init := init?.getD .empty, bound, body := body?.getD .empty }

end For

/-! ## Structural equality -/

namespace Assign

def equal (a b : Assign) : Bool := a.target == b.target && a.value == b.value && a.info == b.info

instance : BEq Assign := ⟨equal⟩

end Assign

mutual

def Stmt.equal : Stmt → Stmt → Bool
  | .assign a, .assign b => a == b
  | .call a, .call b => a == b
  | .ifThen a, .ifThen b => a.equal b
  | .whileDo a, .whileDo b => a.equal b
  | .forTo a, .forTo b => a.equal b
  | .list a, .list b => a.equal b
  | .body a, .body b => a.equal b
  | .procedure a, .procedure b => a.equal b
  | .function a, .function b => a.equal b
  | _, _ => false
termination_by structural s => s

def If.equal : If → If → Bool
  | ⟨cond, thenBranch, elseBranch, info⟩, ⟨cond', thenBranch', elseBranch', info'⟩ =>
    cond == cond' && thenBranch.equal thenBranch' && Stmt.equalOptional elseBranch elseBranch' &&
      info == info'
termination_by structural n => n

def While.equal : While → While → Bool
  | ⟨cond, body, info⟩, ⟨cond', body', info'⟩ => cond == cond' && body.equal body' && info == info'
termination_by structural n => n

def For.equal : For → For → Bool
  | ⟨init, bound, body, info⟩, ⟨init', bound', body', info'⟩ =>
    init.equal init' && bound == bound' && body.equal body' && info == info'
termination_by structural n => n

def StmtList.equal : StmtList → StmtList → Bool
  | ⟨stmts, info⟩, ⟨stmts', info'⟩ => Stmt.equalAll stmts stmts' && info == info'
termination_by structural n => n

def Body.equal : Body → Body → Bool
  | ⟨list, info⟩, ⟨list', info'⟩ => list.equal list' && info == info'
termination_by structural n => n

def ProcedureDecl.equal : ProcedureDecl → ProcedureDecl → Bool
  | ⟨name, params, vars, body, info⟩, ⟨name', params', vars', body', info'⟩ =>
    name == name' && params == params' && vars == vars' && body.equal body' && info == info'
termination_by structural n => n

def FunctionDecl.equal : FunctionDecl → FunctionDecl → Bool
  | ⟨name, params, type, vars, body, info⟩, ⟨name', params', type', vars', body', info'⟩ =>
    name == name' && params == params' && type == type' && vars == vars' && body.equal body' &&
      info == info'
termination_by structural n => n

/-- Equality of two optional statements. -/
def Stmt.equalOptional : Option Stmt → Option Stmt → Bool
  | none, none => true
  | some a, some b => a.equal b
  | _, _ => false
termination_by structural s => s

/-- Pairwise equality of two lists of statements. -/
def Stmt.equalAll : List Stmt → List Stmt → Bool
  | [], [] => true
  | a :: as, b :: bs => a.equal b && Stmt.equalAll as bs
  | _, _ => false
termination_by structural ss => ss

end

instance : BEq Stmt := ⟨Stmt.equal⟩
instance : BEq If := ⟨If.equal⟩
instance : BEq While := ⟨While.equal⟩
instance : BEq For := ⟨For.equal⟩
instance : BEq StmtList := ⟨StmtList.equal⟩
instance : BEq Body := ⟨Body.equal⟩
instance : BEq ProcedureDecl := ⟨ProcedureDecl.equal⟩
instance : BEq FunctionDecl := ⟨FunctionDecl.equal⟩

namespace Program

def equal (a b : Program) : Bool :=
  a.name == b.name && a.vars == b.vars && a.body == b.body && a.info == b.info

instance : BEq Program := ⟨equal⟩

end Program

end PascalTree
