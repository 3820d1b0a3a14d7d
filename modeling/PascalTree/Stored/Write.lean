import PascalTree.Json.Document
import PascalTree.Stored.Type

/-!
# Write — the documents of stored values

A record becomes an object with its fields in order. Information equal to the default, an absent
`else` branch, unknown coordinates, an absent note and a false mark are left out. A slot becomes
an object of one member, named for what stands in the slot, and an operator its tag. A literal is
stored by its text alone.
-/

namespace PascalTree

open Json (Document)

/-! ## What nodes carry -/

/-- The member for an optional number, if it is present. -/
def numberMember (key : String) (n : Option UInt32) : List (String × Document) :=
  n.toList.map fun n => (key, .number n.toNat)

def Position.toDocument (p : Position) : Document :=
  .object (numberMember "line" p.line ++ numberMember "row" p.row)

def Props.toDocument (p : Props) : Document :=
  .object
    ((if p.synthesized then [("synthesized", .flag true)] else []) ++
      p.note.toList.map fun note => ("note", .text note))

def NodeInfo.toDocument (info : NodeInfo) : Document :=
  .object [("pos", info.pos.toDocument), ("props", info.props.toDocument)]

/-- The last member of a node, left out if nothing is known about the node. -/
def NodeInfo.member (info : NodeInfo) : List (String × Document) :=
  if info.isDefault then [] else [("meta", info.toDocument)]

/-- The document of a node: its parts and what it carries. -/
def nodeDocument (parts : List (String × Document)) (info : NodeInfo) : Document :=
  .object (parts ++ info.member)

/-- The document of a slot: what stands in it, under its name. -/
def slotDocument (name : String) (content : Document) : Document := .object [(name, content)]

/-! ## Leaves and declarations -/

def Literal.toDocument (n : Literal) : Document := nodeDocument [("text", .text n.text)] n.info

def Ident.toDocument (n : Ident) : Document := nodeDocument [("name", .text n.name)] n.info

def TypeSpec.toDocument (n : TypeSpec) : Document := nodeDocument [("name", .text n.name)] n.info

def IdentList.toDocument (n : IdentList) : Document :=
  nodeDocument [("idents", .array (n.idents.map Ident.toDocument))] n.info

def VarDecl.toDocument (n : VarDecl) : Document :=
  nodeDocument [("idents", n.idents.toDocument), ("ty", n.type.toDocument)] n.info

def ArrayDecl.toDocument (n : ArrayDecl) : Document :=
  nodeDocument
    [("name", n.name.toDocument), ("lower", n.lower.toDocument), ("upper", n.upper.toDocument),
     ("elem_ty", n.elemType.toDocument)]
    n.info

def VarEntry.toDocument : VarEntry → Document
  | .var n => slotDocument "Var" n.toDocument
  | .array n => slotDocument "Array" n.toDocument

def VarSection.toDocument (n : VarSection) : Document :=
  nodeDocument [("entries", .array (n.entries.map VarEntry.toDocument))] n.info

def Params.toDocument (n : Params) : Document :=
  nodeDocument [("decls", .array (n.decls.map VarDecl.toDocument))] n.info

/-! ## Expressions -/

mutual

def Expr.toDocument : Expr → Document
  | .literal n => slotDocument "Literal" n.toDocument
  | .ident n => slotDocument "Ident" n.toDocument
  | .element n => slotDocument "Element" n.toDocument
  | .binary n => slotDocument "Binary" n.toDocument
  | .call n => slotDocument "Call" n.toDocument
termination_by structural e => e

def ElementRef.toDocument : ElementRef → Document
  | ⟨base, index, info⟩ =>
    nodeDocument [("base", base.toDocument), ("index", index.toDocument)] info
termination_by structural n => n

def BinaryOp.toDocument : BinaryOp → Document
  | ⟨op, left, right, info⟩ =>
    nodeDocument [("op", .text op.tag), ("left", left.toDocument), ("right", right.toDocument)] info
termination_by structural n => n

def Call.toDocument : Call → Document
  | ⟨callee, args, info⟩ =>
    nodeDocument [("callee", callee.toDocument), ("args", .array (Expr.toDocuments args))] info
termination_by structural n => n

def Expr.toDocuments : List Expr → List Document
  | [] => []
  | e :: es => e.toDocument :: Expr.toDocuments es
termination_by structural es => es

end

theorem Expr.toDocuments_eq_map (es : List Expr) :
    Expr.toDocuments es = es.map Expr.toDocument := by
  induction es with
  | nil => rfl
  | cons e es ih => simp [Expr.toDocuments, ih]

def AssignTarget.toDocument : AssignTarget → Document
  | .ident n => slotDocument "Ident" n.toDocument
  | .element n => slotDocument "Element" n.toDocument

/-! ## Statements -/

def Assign.toDocument (n : Assign) : Document :=
  nodeDocument [("target", n.target.toDocument), ("value", n.value.toDocument)] n.info

mutual

def Stmt.toDocument : Stmt → Document
  | .assign n => slotDocument "Assign" n.toDocument
  | .call n => slotDocument "Call" n.toDocument
  | .ifThen n => slotDocument "If" n.toDocument
  | .whileDo n => slotDocument "While" n.toDocument
  | .forTo n => slotDocument "For" n.toDocument
  | .list n => slotDocument "List" n.toDocument
  | .body n => slotDocument "Body" n.toDocument
  | .procedure n => slotDocument "Procedure" n.toDocument
  | .function n => slotDocument "Function" n.toDocument
termination_by structural s => s

def If.toDocument : If → Document
  | ⟨cond, thenBranch, elseBranch, info⟩ =>
    nodeDocument
      ([("cond", cond.toDocument), ("then_branch", thenBranch.toDocument)] ++
        Stmt.elseMember elseBranch)
      info
termination_by structural n => n

/-- The member for an `else` branch, if it is present. -/
def Stmt.elseMember : Option Stmt → List (String × Document)
  | none => []
  | some s => [("else_branch", s.toDocument)]
termination_by structural s => s

def While.toDocument : While → Document
  | ⟨cond, body, info⟩ =>
    nodeDocument [("cond", cond.toDocument), ("body", body.toDocument)] info
termination_by structural n => n

def For.toDocument : For → Document
  | ⟨init, bound, body, info⟩ =>
    nodeDocument
      [("init", init.toDocument), ("bound", bound.toDocument), ("body", body.toDocument)] info
termination_by structural n => n

def StmtList.toDocument : StmtList → Document
  | ⟨stmts, info⟩ => nodeDocument [("stmts", .array (Stmt.toDocuments stmts))] info
termination_by structural n => n

def Stmt.toDocuments : List Stmt → List Document
  | [] => []
  | s :: ss => s.toDocument :: Stmt.toDocuments ss
termination_by structural ss => ss

def Body.toDocument : Body → Document
  | ⟨list, info⟩ => nodeDocument [("list", list.toDocument)] info
termination_by structural n => n

def ProcedureDecl.toDocument : ProcedureDecl → Document
  | ⟨name, params, vars, body, info⟩ =>
    nodeDocument
      [("name", name.toDocument), ("params", params.toDocument), ("vars", vars.toDocument),
       ("body", body.toDocument)]
      info
termination_by structural n => n

def FunctionDecl.toDocument : FunctionDecl → Document
  | ⟨name, params, returnType, vars, body, info⟩ =>
    nodeDocument
      [("name", name.toDocument), ("params", params.toDocument),
       ("return_ty", returnType.toDocument), ("vars", vars.toDocument), ("body", body.toDocument)]
      info
termination_by structural n => n

end

theorem Stmt.toDocuments_eq_map (ss : List Stmt) :
    Stmt.toDocuments ss = ss.map Stmt.toDocument := by
  induction ss with
  | nil => rfl
  | cons s ss ih => simp [Stmt.toDocuments, ih]

def Program.toDocument (n : Program) : Document :=
  nodeDocument
    [("name", n.name.toDocument), ("vars", n.vars.toDocument), ("body", n.body.toDocument)] n.info

/-! ## Trees -/

/-- The document of a bare node. -/
def Node.toDocument : Node → Document
  | .literal n => n.toDocument
  | .ident n => n.toDocument
  | .elementRef n => n.toDocument
  | .binaryOp n => n.toDocument
  | .identList n => n.toDocument
  | .typeSpec n => n.toDocument
  | .varDecl n => n.toDocument
  | .arrayDecl n => n.toDocument
  | .varSection n => n.toDocument
  | .call n => n.toDocument
  | .assign n => n.toDocument
  | .ifStmt n => n.toDocument
  | .whileStmt n => n.toDocument
  | .forStmt n => n.toDocument
  | .stmtList n => n.toDocument
  | .body n => n.toDocument
  | .params n => n.toDocument
  | .program n => n.toDocument
  | .procedureDecl n => n.toDocument
  | .functionDecl n => n.toDocument

namespace Stored

/-- The document of a tree; a slot keeps the name of what stands in it. -/
def TreeType.toDocument : (t : TreeType) → t.Val → Document
  | .expr, e => e.toDocument
  | .stmt, s => s.toDocument
  | .target, t => t.toDocument
  | .entry, e => e.toDocument
  | .node kind, n => (TreeType.toNode (.node kind) n).toDocument

/-- The stored text of a tree. -/
def storeTree (t : TreeType) (x : t.Val) : String := (t.toDocument x).render

end Stored

end PascalTree
