import PascalTree.Numeric.Total
import PascalTree.Tree.Stmt

/-!
# Weight — sums over the nodes of a tree, by its typed parts

Given a weight for each kind, the weight of a tree is the sum over all its nodes. It is defined by
recursion on the typed parts of each node, without the uniform view of children. With every kind
weighing one it is the number of nodes; with one kind weighing one, the number of its nodes.
-/

namespace PascalTree

open Numeric (total)

variable (f : Kind → Nat)

def Literal.weight (_ : Literal) : Nat := f .literal

def Ident.weight (_ : Ident) : Nat := f .ident

def TypeSpec.weight (_ : TypeSpec) : Nat := f .typeSpec

def IdentList.weight (n : IdentList) : Nat := f .identList + total (n.idents.map (Ident.weight f))

def VarDecl.weight (n : VarDecl) : Nat := f .varDecl + n.idents.weight f + n.type.weight f

def ArrayDecl.weight (n : ArrayDecl) : Nat :=
  f .arrayDecl + n.elemType.weight f + n.name.weight f + n.lower.weight f + n.upper.weight f

def VarEntry.weight : VarEntry → Nat
  | .var n => n.weight f
  | .array n => n.weight f

def VarSection.weight (n : VarSection) : Nat :=
  f .varSection + total (n.entries.map (VarEntry.weight f))

def Params.weight (n : Params) : Nat := f .params + total (n.decls.map (VarDecl.weight f))

mutual

def Expr.weight : Expr → Nat
  | .literal n => n.weight f
  | .ident n => n.weight f
  | .element n => n.weight
  | .binary n => n.weight
  | .call n => n.weight
termination_by structural e => e

def ElementRef.weight : ElementRef → Nat
  | ⟨base, index, _⟩ => f .elementRef + base.weight f + index.weight
termination_by structural n => n

def BinaryOp.weight : BinaryOp → Nat
  | ⟨_, left, right, _⟩ => f .binaryOp + left.weight + right.weight
termination_by structural n => n

def Call.weight : Call → Nat
  | ⟨callee, args, _⟩ => f .call + callee.weight f + Expr.weightAll args
termination_by structural n => n

def Expr.weightAll : List Expr → Nat
  | [] => 0
  | e :: es => e.weight + Expr.weightAll es
termination_by structural es => es

end

def AssignTarget.weight : AssignTarget → Nat
  | .ident n => n.weight f
  | .element n => n.weight f

def Assign.weight (n : Assign) : Nat := f .assign + n.target.weight f + n.value.weight f

mutual

def Stmt.weight : Stmt → Nat
  | .assign n => n.weight f
  | .call n => n.weight f
  | .ifThen n => n.weight
  | .whileDo n => n.weight
  | .forTo n => n.weight
  | .list n => n.weight
  | .body n => n.weight
  | .procedure n => n.weight
  | .function n => n.weight
termination_by structural s => s

def If.weight : If → Nat
  | ⟨cond, thenBranch, elseBranch, _⟩ =>
    f .ifStmt + cond.weight f + thenBranch.weight + Stmt.weightOptional elseBranch
termination_by structural n => n

def While.weight : While → Nat
  | ⟨cond, body, _⟩ => f .whileStmt + cond.weight f + body.weight
termination_by structural n => n

def For.weight : For → Nat
  | ⟨init, bound, body, _⟩ => f .forStmt + init.weight + bound.weight f + body.weight
termination_by structural n => n

def StmtList.weight : StmtList → Nat
  | ⟨stmts, _⟩ => f .stmtList + Stmt.weightAll stmts
termination_by structural n => n

def Body.weight : Body → Nat
  | ⟨list, _⟩ => f .body + list.weight
termination_by structural n => n

def ProcedureDecl.weight : ProcedureDecl → Nat
  | ⟨name, params, vars, body, _⟩ =>
    f .procedureDecl + name.weight f + params.weight f + vars.weight f + body.weight
termination_by structural n => n

def FunctionDecl.weight : FunctionDecl → Nat
  | ⟨name, params, returnType, vars, body, _⟩ =>
    f .functionDecl + name.weight f + params.weight f + returnType.weight f + vars.weight f +
      body.weight
termination_by structural n => n

def Stmt.weightOptional : Option Stmt → Nat
  | none => 0
  | some s => s.weight
termination_by structural s => s

def Stmt.weightAll : List Stmt → Nat
  | [] => 0
  | s :: ss => s.weight + Stmt.weightAll ss
termination_by structural ss => ss

end

def Program.weight (n : Program) : Nat :=
  f .program + n.name.weight f + n.vars.weight f + n.body.weight f

/-! ## Lists of slots -/

theorem Expr.weightAll_eq_total (es : List Expr) :
    Expr.weightAll f es = total (es.map (Expr.weight f)) := by
  induction es with
  | nil => rfl
  | cons e es ih => simp [Expr.weightAll, ih]

theorem Stmt.weightAll_eq_total (ss : List Stmt) :
    Stmt.weightAll f ss = total (ss.map (Stmt.weight f)) := by
  induction ss with
  | nil => rfl
  | cons s ss ih => simp [Stmt.weightAll, ih]

end PascalTree
