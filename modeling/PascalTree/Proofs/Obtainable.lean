import Mathlib.Data.List.InsertIdx
import PascalTree.Proofs.RoutineParts
import PascalTree.Proofs.Stored.Accepted

/-!
# Obtainable — the trees that a client can get hold of

Trees come from texts or from the constructors of nodes, which may be applied to parts of other
trees, and every node may be given other information or another place. On all these ways a literal
is made of its text and of nothing else:

* `Obtainable`: the ways to a tree, one rule for each constructor;
* `Obtainable.resolved`: what each of them keeps;
* `obtainable_literals`: what that says of the literals of a tree.
-/

namespace PascalTree

open Stored
open List (forall_iff_forall_mem forall_mem_map forall_mem_singleton)

/-! ## The ways to a tree -/

/-- The trees that can be loaded or built. -/
inductive Obtainable : Node → Prop where
  /-- A tree that was loaded from a text. -/
  | loaded {t : TreeType} {source : String} {x : t.Val} (h : loadTree t source = .ok x) :
      Obtainable (t.toNode x)
  /-- A part of another tree. -/
  | part {n c : Node} (h : Obtainable n) (hc : c ∈ n.children) : Obtainable c
  | withInfo {n : Node} (info : NodeInfo) (h : Obtainable n) : Obtainable (n.withInfo info)
  | moveTo {n : Node} (line row : UInt32) (h : Obtainable n) : Obtainable (n.moveTo line row)
  | literal {text : String} {l : Literal} (h : Literal.ofText text = .ok l) :
      Obtainable (.literal l)
  | ident (name : String) : Obtainable (.ident { name })
  | elementRef {base : Ident} {index : Expr} (hbase : Obtainable (.ident base))
      (hindex : Obtainable index.toNode) : Obtainable (.elementRef { base, index })
  | binaryOp (op : Operator) {left right : Expr} (hleft : Obtainable left.toNode)
      (hright : Obtainable right.toNode) : Obtainable (.binaryOp { op, left, right })
  | call {callee : Ident} {args : List Expr} (hcallee : Obtainable (.ident callee))
      (hargs : ∀ e ∈ args, Obtainable e.toNode) : Obtainable (.call { callee, args })
  | typeSpec (name : String) : Obtainable (.typeSpec { name })
  | identList {idents : List Ident} (hidents : ∀ i ∈ idents, Obtainable (.ident i)) :
      Obtainable (.identList { idents })
  | varDecl {idents : IdentList} {type : TypeSpec} (hidents : Obtainable (.identList idents))
      (htype : Obtainable (.typeSpec type)) : Obtainable (.varDecl { idents, type })
  | arrayDecl {name : Ident} {lower upper : Literal} {elemType : TypeSpec}
      (hname : Obtainable (.ident name)) (hlower : Obtainable (.literal lower))
      (hupper : Obtainable (.literal upper)) (htype : Obtainable (.typeSpec elemType)) :
      Obtainable (.arrayDecl { name, lower, upper, elemType })
  | varSection {entries : List VarEntry} (hentries : ∀ e ∈ entries, Obtainable e.toNode) :
      Obtainable (.varSection { entries })
  | params {decls : List VarDecl} (hdecls : ∀ d ∈ decls, Obtainable (.varDecl d)) :
      Obtainable (.params { decls })
  | emptyParams : Obtainable (.params .empty)
  | assign {target : AssignTarget} {value : Expr} (htarget : Obtainable target.toNode)
      (hvalue : Obtainable value.toNode) : Obtainable (.assign { target, value })
  | ifThen {cond : Expr} {thenBranch : Stmt} (hcond : Obtainable cond.toNode)
      (hthen : Obtainable thenBranch.toNode) : Obtainable (.ifStmt { cond, thenBranch })
  | ifThenElse {cond : Expr} {thenBranch elseBranch : Stmt} (hcond : Obtainable cond.toNode)
      (hthen : Obtainable thenBranch.toNode) (helse : Obtainable elseBranch.toNode) :
      Obtainable (.ifStmt { cond, thenBranch, elseBranch := some elseBranch })
  | whileDo {cond : Expr} {body : Stmt} (hcond : Obtainable cond.toNode)
      (hbody : Obtainable body.toNode) : Obtainable (.whileStmt { cond, body })
  | forTo {init? : Option Stmt} {bound : Expr} {body? : Option Stmt}
      (hinit : ∀ s, init? = some s → Obtainable s.toNode) (hbound : Obtainable bound.toNode)
      (hbody : ∀ s, body? = some s → Obtainable s.toNode) :
      Obtainable (.forStmt (.ofOptional init? bound body?))
  | stmtList {stmts : List Stmt} (hstmts : ∀ s ∈ stmts, Obtainable s.toNode) :
      Obtainable (.stmtList { stmts })
  | emptyStmtList : Obtainable (.stmtList .empty)
  | body {list : StmtList} (hlist : Obtainable (.stmtList list)) : Obtainable (.body { list })
  | program {name : Ident} {vars : VarSection} {body : StmtList} (hname : Obtainable (.ident name))
      (hvars : Obtainable (.varSection vars)) (hbody : Obtainable (.stmtList body)) :
      Obtainable (.program { name, vars, body })
  | procedureDecl {name : Ident} {params : Params} {vars : VarSection} {body : StmtList}
      (hname : Obtainable (.ident name)) (hparams : Obtainable (.params params))
      (hvars : Obtainable (.varSection vars)) (hbody : Obtainable (.stmtList body)) :
      Obtainable (.procedureDecl { name, params, vars, body })
  | procedureWithoutParams {name : Ident} {vars : VarSection} {body : StmtList}
      (hname : Obtainable (.ident name)) (hvars : Obtainable (.varSection vars))
      (hbody : Obtainable (.stmtList body)) :
      Obtainable (.procedureDecl (.withoutParams name vars body))
  | procedureOfParts {parts : List RoutinePart} {n : ProcedureDecl}
      (hparts : ∀ part ∈ parts, Obtainable part.toNode)
      (h : ProcedureDecl.ofParts parts = .ok n) : Obtainable (.procedureDecl n)
  | functionDecl {name : Ident} {params : Params} {returnType : TypeSpec} {vars : VarSection}
      {body : StmtList} (hname : Obtainable (.ident name)) (hparams : Obtainable (.params params))
      (htype : Obtainable (.typeSpec returnType)) (hvars : Obtainable (.varSection vars))
      (hbody : Obtainable (.stmtList body)) :
      Obtainable (.functionDecl { name, params, returnType, vars, body })
  | functionWithoutParams {name : Ident} {returnType : TypeSpec} {vars : VarSection}
      {body : StmtList} (hname : Obtainable (.ident name))
      (htype : Obtainable (.typeSpec returnType)) (hvars : Obtainable (.varSection vars))
      (hbody : Obtainable (.stmtList body)) :
      Obtainable (.functionDecl (.withoutParams name returnType vars body))
  | functionOfParts {parts : List RoutinePart} {n : FunctionDecl}
      (hparts : ∀ part ∈ parts, Obtainable part.toNode)
      (h : FunctionDecl.ofParts parts = .ok n) : Obtainable (.functionDecl n)

/-! ## What each way keeps -/

theorem Node.children_withInfo (info : NodeInfo) (n : Node) :
    (n.withInfo info).children = n.children := by
  cases n <;> rfl

/-- Information has no part in the value of a literal. -/
theorem resolved_withInfo {n : Node} (info : NodeInfo) (h : Resolved n) :
    Resolved (n.withInfo info) := by
  rw [resolved_iff_children] at h ⊢
  rw [Node.children_withInfo]
  refine ⟨?_, h.2⟩
  intro l hl
  cases n with
  | literal l' =>
    cases hl
    exact h.1 l' rfl
  | _ => cases hl

theorem resolved_leaf {n : Node} (hn : n.literal? = none) (hchildren : n.children = []) :
    Resolved n := by
  refine resolved_of_children hn ?_
  rw [hchildren]
  exact List.forall_mem_nil _

theorem resolved_getD {s? : Option Stmt} (h : ∀ s, s? = some s → Resolved s.toNode) :
    Resolved (s?.getD .empty).toNode := by
  cases s? with
  | none => exact resolved_leaf rfl rfl
  | some s => exact h s rfl

theorem resolved_procedureDecl {n : ProcedureDecl} (hname : Resolved (.ident n.name))
    (hparams : Resolved (.params n.params)) (hvars : Resolved (.varSection n.vars))
    (hbody : Resolved (.stmtList n.body)) : Resolved (.procedureDecl n) :=
  resolved_of_children rfl
    (forall_iff_forall_mem.mp (And.intro hname (And.intro hparams (And.intro hvars hbody))))

theorem resolved_functionDecl {n : FunctionDecl} (hname : Resolved (.ident n.name))
    (hparams : Resolved (.params n.params)) (htype : Resolved (.typeSpec n.returnType))
    (hvars : Resolved (.varSection n.vars)) (hbody : Resolved (.stmtList n.body)) :
    Resolved (.functionDecl n) :=
  resolved_of_children rfl (forall_iff_forall_mem.mp
    (And.intro hname (And.intro hparams (And.intro htype (And.intro hvars hbody)))))

/-- A routine has its parts for children, and parameters without declarations where they are not
among the parts. -/
theorem resolved_of_parts {n : Node} {parts : List RoutinePart} {fewest : Nat}
    (hn : n.literal? = none)
    (hchildren : n.children =
      if parts.length = fewest then
        (parts.map RoutinePart.toNode).insertIdx 1 (.params .empty)
      else parts.map RoutinePart.toNode)
    (hparts : ∀ part ∈ parts, Resolved part.toNode) : Resolved n := by
  refine resolved_of_children hn fun c hc => ?_
  rw [hchildren] at hc
  split at hc
  · rcases List.eq_or_mem_of_mem_insertIdx hc with rfl | hc
    · exact resolved_leaf rfl rfl
    · exact forall_mem_map.mpr hparts c hc
  · exact forall_mem_map.mpr hparts c hc

namespace Obtainable

/-- On every way to a tree its literals carry the values of their texts. -/
theorem resolved {n : Node} (h : Obtainable n) : Resolved n := by
  induction h with
  | loaded h => exact (fits_of_load h).1
  | part _ hc ih => exact ih.child hc
  | withInfo info _ ih => exact resolved_withInfo info ih
  | moveTo line row _ ih => exact resolved_withInfo _ ih
  | literal h =>
    refine resolved_iff_children.mpr ⟨?_, List.forall_mem_nil _⟩
    intro l hl
    cases hl
    exact (Literal.ofText_eq_ok.mp h).2.2
  | ident name => exact resolved_leaf rfl rfl
  | typeSpec name => exact resolved_leaf rfl rfl
  | emptyParams => exact resolved_leaf rfl rfl
  | emptyStmtList => exact resolved_leaf rfl rfl
  | elementRef _ _ hbase hindex =>
    exact resolved_of_children rfl (forall_iff_forall_mem.mp (And.intro hbase hindex))
  | binaryOp op _ _ hleft hright =>
    exact resolved_of_children rfl (forall_iff_forall_mem.mp (And.intro hleft hright))
  | call _ _ hcallee hargs =>
    exact resolved_of_children rfl (List.forall_mem_cons.mpr ⟨hcallee, forall_mem_map.mpr hargs⟩)
  | identList _ hidents => exact resolved_of_children rfl (forall_mem_map.mpr hidents)
  | varDecl _ _ hidents htype =>
    exact resolved_of_children rfl (forall_iff_forall_mem.mp (And.intro hidents htype))
  | arrayDecl _ _ _ _ hname hlower hupper htype =>
    exact resolved_of_children rfl
      (forall_iff_forall_mem.mp (And.intro htype (And.intro hname (And.intro hlower hupper))))
  | varSection _ hentries => exact resolved_of_children rfl (forall_mem_map.mpr hentries)
  | params _ hdecls => exact resolved_of_children rfl (forall_mem_map.mpr hdecls)
  | assign _ _ htarget hvalue =>
    exact resolved_of_children rfl (forall_iff_forall_mem.mp (And.intro htarget hvalue))
  | ifThen _ _ hcond hthen =>
    exact resolved_of_children rfl (forall_iff_forall_mem.mp (And.intro hcond hthen))
  | ifThenElse _ _ _ hcond hthen helse =>
    exact resolved_of_children rfl
      (forall_iff_forall_mem.mp (And.intro hcond (And.intro hthen helse)))
  | whileDo _ _ hcond hbody =>
    exact resolved_of_children rfl (forall_iff_forall_mem.mp (And.intro hcond hbody))
  | forTo _ _ _ hinit hbound hbody =>
    exact resolved_of_children rfl (forall_iff_forall_mem.mp
      (And.intro (resolved_getD hinit) (And.intro hbound (resolved_getD hbody))))
  | stmtList _ hstmts => exact resolved_of_children rfl (forall_mem_map.mpr hstmts)
  | body _ hlist => exact resolved_of_children rfl (forall_mem_singleton.mpr hlist)
  | program _ _ _ hname hvars hbody =>
    exact resolved_of_children rfl
      (forall_iff_forall_mem.mp (And.intro hname (And.intro hvars hbody)))
  | procedureDecl _ _ _ _ hname hparams hvars hbody =>
    exact resolved_procedureDecl hname hparams hvars hbody
  | procedureWithoutParams _ _ _ hname hvars hbody =>
    exact resolved_procedureDecl hname (resolved_leaf rfl rfl) hvars hbody
  | procedureOfParts _ h hparts =>
    exact resolved_of_parts rfl (ProcedureDecl.buildsExactly.children h) hparts
  | functionDecl _ _ _ _ _ hname hparams htype hvars hbody =>
    exact resolved_functionDecl hname hparams htype hvars hbody
  | functionWithoutParams _ _ _ _ hname htype hvars hbody =>
    exact resolved_functionDecl hname (resolved_leaf rfl rfl) htype hvars hbody
  | functionOfParts _ h hparts =>
    exact resolved_of_parts rfl (FunctionDecl.buildsExactly.children h) hparts

end Obtainable

/-- Every literal in the walk over an obtainable tree carries the value of its text, shows the text
and the name of that value's type, is finite if it is a real, and stands on one line. -/
theorem obtainable_literals {n : Node} (h : Obtainable n) (l : Literal)
    (hl : .literal l ∈ n.preorder) :
    resolve l.text = .ok l.value ∧
      (∃ value, resolve l.text = .ok value ∧
        l.label = l.text ++ " (" ++ value.type.name ++ ")") ∧
      (∀ x, l.value.real? = some x → x.isFinite = true) ∧
      '\n' ∉ l.text.toList := by
  have hfaithful : l.Faithful := resolved_iff.mp h.resolved l (Node.mem_literals.mpr hl)
  refine ⟨hfaithful, ⟨l.value, hfaithful, rfl⟩, ?_, hfaithful.newline_notMem⟩
  intro x hx
  exact hfaithful.isFinite (Value.real?_eq_some.mp hx)

/-- A real, moved to a place of its own. -/
def movedReal : Literal := ⟨"2.5", .real ⟨0x4004000000000000⟩, .located 3 7⟩

theorem resolve_movedReal : resolve movedReal.text = .ok movedReal.value := by
  have hform : Form.parse? movedReal.text = some (.real false ['2'] ['5'] 0) := by rfl
  -- Rounding goes through `2 ^ 1074`, which only the kernel's own arithmetic takes in one step.
  have hbits : (Numeric.Binary64.ofDecimal false 25 (-1)).bits = 0x4004000000000000 := by
    decide +kernel
  have hround : Numeric.Binary64.ofDecimal false 25 (-1) = ⟨0x4004000000000000⟩ :=
    congrArg Numeric.Binary64.mk hbits
  have hvalue : Form.value? (.real false ['2'] ['5'] 0) = some movedReal.value := by
    change (if (Numeric.Binary64.ofDecimal false 25 (-1)).isFinite = true then
      some (Value.real (Numeric.Binary64.ofDecimal false 25 (-1))) else none) = _
    rw [hround]
    rfl
  rw [resolve, hform, Option.bind_some, hvalue]

/-- `a[TRUE] := 2.5`, in which the index is a part of a loaded declaration. -/
def mixedAssign : Assign :=
  { target := .element { base := { name := "a" }, index := .literal flagArray.lower }
    value := .literal movedReal }

theorem obtainable_mixedAssign : Obtainable (.assign mixedAssign) := by
  have harray : Obtainable (.arrayDecl flagArray) := .loaded loadTree_flagArrayText
  have hindex : Obtainable (.literal flagArray.lower) := .part harray (by simp [Node.children])
  have hmade : Literal.ofText movedReal.text = .ok { movedReal with info := {} } := by
    rw [Literal.ofText, resolve_movedReal]
    rfl
  have hvalue : Obtainable (.literal movedReal) := .moveTo 3 7 (.literal hmade)
  exact .assign (.elementRef (.ident "a") hindex) hvalue

theorem obtainable_literals_mixedAssign :
    Obtainable (.assign mixedAssign) ∧ .literal movedReal ∈ (Node.assign mixedAssign).preorder ∧
      resolve "2.5" = .ok (.real ⟨0x4004000000000000⟩) ∧
      (∃ value, resolve "2.5" = .ok value ∧
        movedReal.label = "2.5" ++ " (" ++ value.type.name ++ ")") ∧
      (∀ x, movedReal.value.real? = some x → x.isFinite = true) ∧
      '\n' ∉ "2.5".toList := by
  have hmem : .literal movedReal ∈ (Node.assign mixedAssign).preorder := by
    refine Node.mem_preorder_of_mem_children (c := .literal movedReal) ?_ (Node.mem_preorder_self _)
    exact List.mem_cons_of_mem _ List.mem_cons_self
  exact ⟨obtainable_mixedAssign, hmem,
    obtainable_literals obtainable_mixedAssign movedReal hmem⟩

end PascalTree
