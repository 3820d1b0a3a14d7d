import Mathlib.Data.List.Basic
import PascalTree.Proofs.KindCounts

/-!
# MapInfo — trees with other information on their nodes

Everything but the information stays as it is: kinds, names, operators, literals and order. The map
is defined by recursion on the typed parts of each node, so it reaches the information of every
node, also of nodes filled in without source text.

* `Node.mapInfo`: the tree with other information on each node;
* `Node.withoutInfo`: the tree with nothing known about any node;
* `Node.preorder_mapInfo`, `Node.render_mapInfo`: walks and outlines of such trees;
* `Node.information_is_unobserved`: trees that differ in information alone look the same.
-/

namespace PascalTree

/-! ## The map -/

section Map

variable (f : NodeInfo → NodeInfo)

def Literal.mapInfo (n : Literal) : Literal := { n with info := f n.info }

def Ident.mapInfo (n : Ident) : Ident := { n with info := f n.info }

def TypeSpec.mapInfo (n : TypeSpec) : TypeSpec := { n with info := f n.info }

def IdentList.mapInfo (n : IdentList) : IdentList :=
  { idents := n.idents.map (Ident.mapInfo f), info := f n.info }

def VarDecl.mapInfo (n : VarDecl) : VarDecl :=
  { idents := n.idents.mapInfo f, type := n.type.mapInfo f, info := f n.info }

def ArrayDecl.mapInfo (n : ArrayDecl) : ArrayDecl :=
  { name := n.name.mapInfo f, lower := n.lower.mapInfo f, upper := n.upper.mapInfo f,
    elemType := n.elemType.mapInfo f, info := f n.info }

def VarEntry.mapInfo : VarEntry → VarEntry
  | .var n => .var (n.mapInfo f)
  | .array n => .array (n.mapInfo f)

def VarSection.mapInfo (n : VarSection) : VarSection :=
  { entries := n.entries.map (VarEntry.mapInfo f), info := f n.info }

def Params.mapInfo (n : Params) : Params :=
  { decls := n.decls.map (VarDecl.mapInfo f), info := f n.info }

mutual

def Expr.mapInfo : Expr → Expr
  | .literal n => .literal (n.mapInfo f)
  | .ident n => .ident (n.mapInfo f)
  | .element n => .element n.mapInfo
  | .binary n => .binary n.mapInfo
  | .call n => .call n.mapInfo
termination_by structural e => e

def ElementRef.mapInfo : ElementRef → ElementRef
  | ⟨base, index, info⟩ => ⟨base.mapInfo f, index.mapInfo, f info⟩
termination_by structural n => n

def BinaryOp.mapInfo : BinaryOp → BinaryOp
  | ⟨op, left, right, info⟩ => ⟨op, left.mapInfo, right.mapInfo, f info⟩
termination_by structural n => n

def Call.mapInfo : Call → Call
  | ⟨callee, args, info⟩ => ⟨callee.mapInfo f, Expr.mapInfoAll args, f info⟩
termination_by structural n => n

def Expr.mapInfoAll : List Expr → List Expr
  | [] => []
  | e :: es => e.mapInfo :: Expr.mapInfoAll es
termination_by structural es => es

end

theorem Expr.mapInfoAll_eq_map (es : List Expr) :
    Expr.mapInfoAll f es = es.map (Expr.mapInfo f) := by
  induction es with
  | nil => rfl
  | cons e es ih => simp [Expr.mapInfoAll, ih]

def AssignTarget.mapInfo : AssignTarget → AssignTarget
  | .ident n => .ident (n.mapInfo f)
  | .element n => .element (n.mapInfo f)

def Assign.mapInfo (n : Assign) : Assign :=
  { target := n.target.mapInfo f, value := n.value.mapInfo f, info := f n.info }

mutual

def Stmt.mapInfo : Stmt → Stmt
  | .assign n => .assign (n.mapInfo f)
  | .call n => .call (n.mapInfo f)
  | .ifThen n => .ifThen n.mapInfo
  | .whileDo n => .whileDo n.mapInfo
  | .forTo n => .forTo n.mapInfo
  | .list n => .list n.mapInfo
  | .body n => .body n.mapInfo
  | .procedure n => .procedure n.mapInfo
  | .function n => .function n.mapInfo
termination_by structural s => s

def If.mapInfo : If → If
  | ⟨cond, thenBranch, elseBranch, info⟩ =>
    ⟨cond.mapInfo f, thenBranch.mapInfo, Stmt.mapInfoOptional elseBranch, f info⟩
termination_by structural n => n

def While.mapInfo : While → While
  | ⟨cond, body, info⟩ => ⟨cond.mapInfo f, body.mapInfo, f info⟩
termination_by structural n => n

def For.mapInfo : For → For
  | ⟨init, bound, body, info⟩ => ⟨init.mapInfo, bound.mapInfo f, body.mapInfo, f info⟩
termination_by structural n => n

def StmtList.mapInfo : StmtList → StmtList
  | ⟨stmts, info⟩ => ⟨Stmt.mapInfoAll stmts, f info⟩
termination_by structural n => n

def Body.mapInfo : Body → Body
  | ⟨list, info⟩ => ⟨list.mapInfo, f info⟩
termination_by structural n => n

def ProcedureDecl.mapInfo : ProcedureDecl → ProcedureDecl
  | ⟨name, params, vars, body, info⟩ =>
    ⟨name.mapInfo f, params.mapInfo f, vars.mapInfo f, body.mapInfo, f info⟩
termination_by structural n => n

def FunctionDecl.mapInfo : FunctionDecl → FunctionDecl
  | ⟨name, params, returnType, vars, body, info⟩ =>
    ⟨name.mapInfo f, params.mapInfo f, returnType.mapInfo f, vars.mapInfo f, body.mapInfo, f info⟩
termination_by structural n => n

def Stmt.mapInfoOptional : Option Stmt → Option Stmt
  | none => none
  | some s => some s.mapInfo
termination_by structural s => s

def Stmt.mapInfoAll : List Stmt → List Stmt
  | [] => []
  | s :: ss => s.mapInfo :: Stmt.mapInfoAll ss
termination_by structural ss => ss

end

theorem Stmt.mapInfoAll_eq_map (ss : List Stmt) :
    Stmt.mapInfoAll f ss = ss.map (Stmt.mapInfo f) := by
  induction ss with
  | nil => rfl
  | cons s ss ih => simp [Stmt.mapInfoAll, ih]

def Program.mapInfo (n : Program) : Program :=
  { name := n.name.mapInfo f, vars := n.vars.mapInfo f, body := n.body.mapInfo f, info := f n.info }

/-- The tree with the information of every node, the root included, replaced by its image. -/
def Node.mapInfo : Node → Node
  | .literal n => .literal (n.mapInfo f)
  | .ident n => .ident (n.mapInfo f)
  | .elementRef n => .elementRef (n.mapInfo f)
  | .binaryOp n => .binaryOp (n.mapInfo f)
  | .identList n => .identList (n.mapInfo f)
  | .typeSpec n => .typeSpec (n.mapInfo f)
  | .varDecl n => .varDecl (n.mapInfo f)
  | .arrayDecl n => .arrayDecl (n.mapInfo f)
  | .varSection n => .varSection (n.mapInfo f)
  | .call n => .call (n.mapInfo f)
  | .assign n => .assign (n.mapInfo f)
  | .ifStmt n => .ifStmt (n.mapInfo f)
  | .whileStmt n => .whileStmt (n.mapInfo f)
  | .forStmt n => .forStmt (n.mapInfo f)
  | .stmtList n => .stmtList (n.mapInfo f)
  | .body n => .body (n.mapInfo f)
  | .params n => .params (n.mapInfo f)
  | .program n => .program (n.mapInfo f)
  | .procedureDecl n => .procedureDecl (n.mapInfo f)
  | .functionDecl n => .functionDecl (n.mapInfo f)

end Map

/-- The tree with nothing known about any of its nodes. -/
def Node.withoutInfo (n : Node) : Node := n.mapInfo fun _ => {}

/-! ## What one node shows -/

section Node

variable (f : NodeInfo → NodeInfo)

@[simp]
theorem Expr.toNode_mapInfo (e : Expr) : (e.mapInfo f).toNode = e.toNode.mapInfo f := by
  cases e <;> rfl

@[simp]
theorem AssignTarget.toNode_mapInfo (t : AssignTarget) :
    (t.mapInfo f).toNode = t.toNode.mapInfo f := by
  cases t <;> rfl

@[simp]
theorem VarEntry.toNode_mapInfo (e : VarEntry) : (e.mapInfo f).toNode = e.toNode.mapInfo f := by
  cases e <;> rfl

@[simp]
theorem Stmt.toNode_mapInfo (s : Stmt) : (s.mapInfo f).toNode = s.toNode.mapInfo f := by
  cases s <;> rfl

namespace Node

@[simp]
theorem kind_mapInfo (n : Node) : (n.mapInfo f).kind = n.kind := by
  cases n <;> rfl

@[simp]
theorem label_mapInfo (n : Node) : (n.mapInfo f).label = n.label := by
  cases n with
  | binaryOp n => cases n; rfl
  | _ => rfl

theorem info_mapInfo (n : Node) : (n.mapInfo f).info = f n.info := by
  cases n with
  -- Where the map is a recursion it reduces only on a record that is taken apart.
  | elementRef n => cases n; rfl
  | binaryOp n => cases n; rfl
  | call n => cases n; rfl
  | ifStmt n => cases n; rfl
  | whileStmt n => cases n; rfl
  | forStmt n => cases n; rfl
  | stmtList n => cases n; rfl
  | body n => cases n; rfl
  | procedureDecl n => cases n; rfl
  | functionDecl n => cases n; rfl
  | _ => rfl

/-- The children of the new tree are the new trees of the children. -/
@[simp]
theorem children_mapInfo (n : Node) :
    (n.mapInfo f).children = n.children.map (mapInfo f) := by
  cases n with
  | literal n => rfl
  | ident n => rfl
  | typeSpec n => rfl
  | elementRef n => cases n; simp [mapInfo, children, ElementRef.mapInfo]
  | binaryOp n => cases n; simp [mapInfo, children, BinaryOp.mapInfo]
  | identList n => simp [mapInfo, children, IdentList.mapInfo]
  | varDecl n => rfl
  | arrayDecl n => rfl
  | varSection n => simp [mapInfo, children, VarSection.mapInfo]
  | call n => cases n; simp [mapInfo, children, Call.mapInfo, Expr.mapInfoAll_eq_map]
  | assign n => simp [mapInfo, children, Assign.mapInfo]
  | ifStmt n =>
    -- An absent branch stays absent.
    obtain ⟨_, _, elseBranch, _⟩ := n
    cases elseBranch <;> simp [mapInfo, children, If.mapInfo, Stmt.mapInfoOptional]
  | whileStmt n => cases n; simp [mapInfo, children, While.mapInfo]
  | forStmt n => cases n; simp [mapInfo, children, For.mapInfo]
  | stmtList n => cases n; simp [mapInfo, children, StmtList.mapInfo, Stmt.mapInfoAll_eq_map]
  | body n => cases n; simp [mapInfo, children, Body.mapInfo]
  | params n => simp [mapInfo, children, Params.mapInfo]
  | program n => rfl
  | procedureDecl n => cases n; rfl
  | functionDecl n => cases n; rfl

/-! ## What a tree shows -/

/-- The walk over the new tree visits the new trees of the nodes in the same order. -/
theorem preorder_mapInfo (n : Node) : (n.mapInfo f).preorder = n.preorder.map (mapInfo f) := by
  induction n using children_induction with
  | step n ih =>
    have hbelow : (n.children.map (mapInfo f)).flatMap preorder =
        (n.children.flatMap preorder).map (mapInfo f) := by
      rw [List.flatMap_map, List.map_flatMap]
      exact List.flatMap_congr ih
    rw [preorder_eq, preorder_eq n, children_mapInfo, hbelow, List.map_cons]

/-- What no node shows of its information, no walk shows. -/
theorem map_preorder_mapInfo {β : Type} {g : Node → β} (hg : ∀ m, g (mapInfo f m) = g m)
    (n : Node) : (n.mapInfo f).preorder.map g = n.preorder.map g := by
  rw [preorder_mapInfo, List.map_map]
  exact List.map_congr_left fun m _ => hg m

/-- The map reaches the information of every node. -/
theorem map_info_preorder_mapInfo (n : Node) :
    (n.mapInfo f).preorder.map info = n.preorder.map fun m => f m.info := by
  rw [preorder_mapInfo, List.map_map]
  exact List.map_congr_left fun m _ => info_mapInfo f m

@[simp]
theorem render_mapInfo (n : Node) : (n.mapInfo f).render = n.render := by
  induction n using children_induction with
  | step n ih =>
    have hblocks : (n.children.map (mapInfo f)).map render = n.children.map render := by
      rw [List.map_map]
      exact List.map_congr_left ih
    rw [render_eq, render_eq n, label_mapInfo, children_mapInfo, hblocks]

theorem kinds_mapInfo (n : Node) : (n.mapInfo f).kinds = n.kinds :=
  map_preorder_mapInfo f (kind_mapInfo f) n

end Node

end Node

/-! ## Reports -/

namespace Report

variable (f : NodeInfo → NodeInfo) (p : Program)

theorem stats_mapInfo : stats (p.mapInfo f) = stats p := by
  have hkinds : (Node.program (p.mapInfo f)).kinds = (Node.program p).kinds :=
    Node.kinds_mapInfo f (.program p)
  have hcount : (Node.program (p.mapInfo f)).count = (Node.program p).count := by
    simpa [Node.kinds, Node.count] using congrArg List.length hkinds
  simp only [stats_eq_countKind, countKind_eq, hkinds, hcount]

theorem idents_mapInfo : idents (p.mapInfo f) = idents p := by
  have hpreorder : (Node.program (p.mapInfo f)).preorder =
      (Node.program p).preorder.map (Node.mapInfo f) :=
    Node.preorder_mapInfo f (.program p)
  simp only [idents, hpreorder, List.filterMap_map]
  -- Which nodes are listed, and under which name, is decided node by node.
  refine congrArg Text.joinLines (List.filterMap_congr fun m _ => ?_)
  cases m <;> rfl

theorem render_mapInfo : render (p.mapInfo f) = render p :=
  congrArg Text.joinLines (Node.render_mapInfo f (.program p))

end Report

namespace Node

/-- What no node shows of its information, trees that differ in nothing else show alike. -/
theorem map_preorder_eq {β : Type} {g : Node → β} (hg : ∀ f m, g (mapInfo f m) = g m) {a b : Node}
    (h : a.withoutInfo = b.withoutInfo) : a.preorder.map g = b.preorder.map g := by
  calc
    a.preorder.map g = a.withoutInfo.preorder.map g := (map_preorder_mapInfo _ (hg _) a).symm
    _ = b.withoutInfo.preorder.map g := by rw [h]
    _ = b.preorder.map g := map_preorder_mapInfo _ (hg _) b

theorem map_nodeAt?_eq {β : Type} {g : Node → β} (hg : ∀ f m, g (mapInfo f m) = g m) {a b : Node}
    (h : a.withoutInfo = b.withoutInfo) (id : Nat) :
    (a.nodeAt? id).map g = (b.nodeAt? id).map g := by
  have hpreorder := congrArg (·[id]?) (map_preorder_eq hg h)
  simpa [nodeAt?] using hpreorder

/-- Trees that differ in nothing but the information on their nodes agree in everything that is
shown of their structure. -/
theorem information_is_unobserved {a b : Node} (h : a.withoutInfo = b.withoutInfo) :
    (∀ id, (a.nodeAt? id).map kind = (b.nodeAt? id).map kind ∧
      (a.nodeAt? id).map label = (b.nodeAt? id).map label ∧
      (a.nodeAt? id).map (fun m => m.children.length) =
        (b.nodeAt? id).map fun m => m.children.length) ∧
      a.count = b.count ∧
      a.preorder.map label = b.preorder.map label ∧
      a.render = b.render ∧
      a.dump = b.dump ∧
      ∀ p q, a = .program p → b = .program q →
        Report.stats p = Report.stats q ∧ Report.idents p = Report.idents q ∧
          Report.render p = Report.render q := by
  have hrender : a.render = b.render := by
    calc
      a.render = a.withoutInfo.render := (render_mapInfo _ a).symm
      _ = b.withoutInfo.render := by rw [h]
      _ = b.render := render_mapInfo _ b
  have hcount : a.count = b.count := by
    simpa [count] using congrArg List.length (map_preorder_eq label_mapInfo h)
  refine ⟨?_, hcount, map_preorder_eq label_mapInfo h, hrender,
    congrArg Text.joinLines hrender, ?_⟩
  · intro id
    exact ⟨map_nodeAt?_eq kind_mapInfo h id, map_nodeAt?_eq label_mapInfo h id,
      map_nodeAt?_eq (fun f m => by rw [children_mapInfo, List.length_map]) h id⟩
  · rintro p q rfl rfl
    have hprogram : p.mapInfo (fun _ => {}) = q.mapInfo (fun _ => {}) := Node.program.inj h
    refine ⟨?_, ?_, ?_⟩
    · rw [← Report.stats_mapInfo (fun _ => {}) p, hprogram, Report.stats_mapInfo]
    · rw [← Report.idents_mapInfo (fun _ => {}) p, hprogram, Report.idents_mapInfo]
    · rw [← Report.render_mapInfo (fun _ => {}) p, hprogram, Report.render_mapInfo]

/-- `while busy do` with an absent body, which was filled in. -/
def filledLoop : Program :=
  { name := { name := "wait", info := .located 1 9 }
    vars := { entries := [] }
    body := { stmts := [.whileDo { cond := .ident { name := "busy" }, body := .empty }] } }

/-- The same loop with an empty body of its own, and with notes in place of positions. -/
def notedLoop : Program :=
  { name := { name := "wait" }
    vars := { entries := [], info := .synthesized }
    body :=
      { stmts :=
          [.whileDo
            { cond := .ident { name := "busy", info := .withNote {} "volatile" }
              body := .list { stmts := [] } }] }
    info := .located 1 1 }

theorem information_is_unobserved_loops :
    (program filledLoop).withoutInfo = (program notedLoop).withoutInfo ∧
      (program filledLoop == program notedLoop) = false ∧
      (program filledLoop).render = (program notedLoop).render ∧
      Report.stats filledLoop = Report.stats notedLoop ∧
      Report.idents filledLoop = Report.idents notedLoop := by
  have h : (program filledLoop).withoutInfo = (program notedLoop).withoutInfo := rfl
  obtain ⟨_, _, _, hrender, _, hreports⟩ := information_is_unobserved h
  obtain ⟨hstats, hidents, _⟩ := hreports filledLoop notedLoop rfl rfl
  exact ⟨h, rfl, hrender, hstats, hidents⟩

end Node

end PascalTree
