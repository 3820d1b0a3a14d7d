import PascalTree.Stored.Type

/-!
# MapLiterals — trees with other literals in the places of theirs

Everything but the literals stays as it is: kinds, names, operators, information and order. The map
is defined by recursion on the typed parts of each node, so the type of a tree stays too.

* `Expr.mapLiterals`, `Stmt.mapLiterals`: the slots, with the nodes that stand in them;
* `Stored.TreeType.mapLiterals`: trees of every type.
-/

namespace PascalTree

variable (f : Literal → Literal)

/-! ## Declarations -/

def ArrayDecl.mapLiterals (n : ArrayDecl) : ArrayDecl :=
  { n with lower := f n.lower, upper := f n.upper }

def VarEntry.mapLiterals : VarEntry → VarEntry
  | .var n => .var n
  | .array n => .array (n.mapLiterals f)

def VarSection.mapLiterals (n : VarSection) : VarSection :=
  { n with entries := n.entries.map (VarEntry.mapLiterals f) }

/-! ## Expressions -/

mutual

def Expr.mapLiterals : Expr → Expr
  | .literal n => .literal (f n)
  | .ident n => .ident n
  | .element n => .element n.mapLiterals
  | .binary n => .binary n.mapLiterals
  | .call n => .call n.mapLiterals
termination_by structural e => e

def ElementRef.mapLiterals : ElementRef → ElementRef
  | ⟨base, index, info⟩ => ⟨base, index.mapLiterals, info⟩
termination_by structural n => n

def BinaryOp.mapLiterals : BinaryOp → BinaryOp
  | ⟨op, left, right, info⟩ => ⟨op, left.mapLiterals, right.mapLiterals, info⟩
termination_by structural n => n

def Call.mapLiterals : Call → Call
  | ⟨callee, args, info⟩ => ⟨callee, Expr.mapLiteralsAll args, info⟩
termination_by structural n => n

def Expr.mapLiteralsAll : List Expr → List Expr
  | [] => []
  | e :: es => e.mapLiterals :: Expr.mapLiteralsAll es
termination_by structural es => es

end

theorem Expr.mapLiteralsAll_eq_map (es : List Expr) :
    Expr.mapLiteralsAll f es = es.map (Expr.mapLiterals f) := by
  induction es with
  | nil => rfl
  | cons e es ih => simp [Expr.mapLiteralsAll, ih]

def AssignTarget.mapLiterals : AssignTarget → AssignTarget
  | .ident n => .ident n
  | .element n => .element (n.mapLiterals f)

/-! ## Statements -/

def Assign.mapLiterals (n : Assign) : Assign :=
  { n with target := n.target.mapLiterals f, value := n.value.mapLiterals f }

mutual

def Stmt.mapLiterals : Stmt → Stmt
  | .assign n => .assign (n.mapLiterals f)
  | .call n => .call (n.mapLiterals f)
  | .ifThen n => .ifThen n.mapLiterals
  | .whileDo n => .whileDo n.mapLiterals
  | .forTo n => .forTo n.mapLiterals
  | .list n => .list n.mapLiterals
  | .body n => .body n.mapLiterals
  | .procedure n => .procedure n.mapLiterals
  | .function n => .function n.mapLiterals
termination_by structural s => s

def If.mapLiterals : If → If
  | ⟨cond, thenBranch, elseBranch, info⟩ =>
    ⟨cond.mapLiterals f, thenBranch.mapLiterals, Stmt.mapLiteralsOptional elseBranch, info⟩
termination_by structural n => n

def While.mapLiterals : While → While
  | ⟨cond, body, info⟩ => ⟨cond.mapLiterals f, body.mapLiterals, info⟩
termination_by structural n => n

def For.mapLiterals : For → For
  | ⟨init, bound, body, info⟩ => ⟨init.mapLiterals, bound.mapLiterals f, body.mapLiterals, info⟩
termination_by structural n => n

def StmtList.mapLiterals : StmtList → StmtList
  | ⟨stmts, info⟩ => ⟨Stmt.mapLiteralsAll stmts, info⟩
termination_by structural n => n

def Body.mapLiterals : Body → Body
  | ⟨list, info⟩ => ⟨list.mapLiterals, info⟩
termination_by structural n => n

def ProcedureDecl.mapLiterals : ProcedureDecl → ProcedureDecl
  | ⟨name, params, vars, body, info⟩ =>
    ⟨name, params, vars.mapLiterals f, body.mapLiterals, info⟩
termination_by structural n => n

def FunctionDecl.mapLiterals : FunctionDecl → FunctionDecl
  | ⟨name, params, returnType, vars, body, info⟩ =>
    ⟨name, params, returnType, vars.mapLiterals f, body.mapLiterals, info⟩
termination_by structural n => n

def Stmt.mapLiteralsOptional : Option Stmt → Option Stmt
  | none => none
  | some s => some s.mapLiterals
termination_by structural s => s

def Stmt.mapLiteralsAll : List Stmt → List Stmt
  | [] => []
  | s :: ss => s.mapLiterals :: Stmt.mapLiteralsAll ss
termination_by structural ss => ss

end

theorem Stmt.mapLiteralsAll_eq_map (ss : List Stmt) :
    Stmt.mapLiteralsAll f ss = ss.map (Stmt.mapLiterals f) := by
  induction ss with
  | nil => rfl
  | cons s ss ih => simp [Stmt.mapLiteralsAll, ih]

def Program.mapLiterals (n : Program) : Program :=
  { n with vars := n.vars.mapLiterals f, body := n.body.mapLiterals f }

/-! ## Trees -/

namespace Stored

/-- The tree of the same type with every literal replaced by its image. -/
def TreeType.mapLiterals : (t : TreeType) → t.Val → t.Val
  | .node .literal, n => f n
  | .node .elementRef, n => n.mapLiterals f
  | .node .binaryOp, n => n.mapLiterals f
  | .node .arrayDecl, n => n.mapLiterals f
  | .node .varSection, n => n.mapLiterals f
  | .node .call, n => n.mapLiterals f
  | .node .assign, n => n.mapLiterals f
  | .node .ifStmt, n => n.mapLiterals f
  | .node .whileStmt, n => n.mapLiterals f
  | .node .forStmt, n => n.mapLiterals f
  | .node .stmtList, n => n.mapLiterals f
  | .node .body, n => n.mapLiterals f
  | .node .program, n => n.mapLiterals f
  | .node .procedureDecl, n => n.mapLiterals f
  | .node .functionDecl, n => n.mapLiterals f
  -- Nodes of these kinds have no literals below them.
  | .node .ident, n => n
  | .node .typeSpec, n => n
  | .node .identList, n => n
  | .node .varDecl, n => n
  | .node .params, n => n
  | .expr, e => e.mapLiterals f
  | .stmt, s => s.mapLiterals f
  | .target, t => t.mapLiterals f
  | .entry, e => e.mapLiterals f

end Stored

end PascalTree
