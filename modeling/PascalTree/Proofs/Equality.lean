import PascalTree.Proofs.Obtainable

/-!
# Equality — equal trees are those with equal stored texts

Structural equality compares literals by text, value and information, and the values of real
literals as numbers: there a zero equals its negative, and what is not a number equals nothing, not
even itself. Trees whose literals carry the values of their texts are free of both effects, since
equal texts have the same value and a resolved value is finite.

* `Literal.beq_iff_eq_of_faithful`: among such literals, equal ones are the same;
* `Told`: structural equality of two values holds exactly if they are the same;
* `Node.told_of_resolved`: it does for all nodes with resolved literals;
* `Stored.storeTree_injective`: so do the stored texts, which bound no depth although loading does.
-/

namespace PascalTree

open Stored

/-! ## Values and literals -/

namespace Numeric.Binary64

/-- A finite number is equal to itself, as every number is. -/
theorem beq_self {x : Binary64} (h : x.isFinite = true) : (x == x) = true := by
  have hnumber : x.isNaN = false := by
    simp only [isFinite, bne_iff_ne] at h
    simp [isNaN, h]
  change x.equal x = true
  simp [equal, hnumber]

end Numeric.Binary64

namespace Literal

variable {l l' : Literal}

theorem Faithful.value_beq_self (h : l.Faithful) : (l.value == l.value) = true := by
  change l.value.equal l.value = true
  cases hvalue : l.value with
  | integer n => simp [Value.equal]
  | real x => exact Numeric.Binary64.beq_self (h.isFinite hvalue)
  | boolean b => simp [Value.equal]
  | string s => simp [Value.equal]

/-- Literals with the values of their texts are told apart by text and information. -/
theorem beq_iff_eq_of_faithful (h : l.Faithful) (h' : l'.Faithful) :
    (l == l') = true ↔ l = l' := by
  have hequal : (l == l') = (l.text == l'.text && l.value == l'.value && l.info == l'.info) := rfl
  rw [hequal]
  constructor
  · intro heq
    obtain ⟨⟨htext, _⟩, hinfo⟩ : (l.text = l'.text ∧ _) ∧ l.info = l'.info := by simpa using heq
    -- Equal values say too little, since a zero equals its negative; equal texts say enough.
    have hvalue : l.value = l'.value := by
      have hresolve : resolve l.text = .ok l'.value := htext ▸ h'
      exact Except.ok.inj (h.symm.trans hresolve)
    obtain ⟨text, value, info⟩ := l
    obtain ⟨text', value', info'⟩ := l'
    dsimp only at htext hvalue hinfo
    rw [htext, hvalue, hinfo]
  · rintro rfl
    simp [h.value_beq_self]

end Literal

/-! ## Slots and lists -/

/-- Structural equality tells the two apart exactly if they differ. -/
def Told {α : Type} [BEq α] (a b : α) : Prop := (a == b) = true ↔ a = b

theorem Told.iff {α : Type} [BEq α] {a b : α} (h : Told a b) : (a == b) = true ↔ a = b := h

/-- What is told apart by the nodes it stands for is told apart. -/
theorem Told.of_view {α : Type} [BEq α] {view : α → Node} {a b : α}
    (hbeq : (a == b) = (view a == view b)) (hinj : view a = view b ↔ a = b)
    (h : Told (view a) (view b)) : Told a b := by
  rw [Told, hbeq, h.iff, hinj]

theorem Expr.told {a b : Expr} (h : Told a.toNode b.toNode) : Told a b :=
  h.of_view (by cases a <;> cases b <;> rfl) (by cases a <;> cases b <;> simp [toNode])

theorem AssignTarget.told {a b : AssignTarget} (h : Told a.toNode b.toNode) : Told a b :=
  h.of_view (by cases a <;> cases b <;> rfl) (by cases a <;> cases b <;> simp [toNode])

theorem VarEntry.told {a b : VarEntry} (h : Told a.toNode b.toNode) : Told a b :=
  h.of_view (by cases a <;> cases b <;> rfl) (by cases a <;> cases b <;> simp [toNode])

theorem Stmt.told {a b : Stmt} (h : Told a.toNode b.toNode) : Told a b :=
  h.of_view (by cases a <;> cases b <;> rfl) (by cases a <;> cases b <;> simp [toNode])

theorem told_list {α : Type} [BEq α] {xs ys : List α} (h : ∀ x ∈ xs, ∀ y ∈ ys, Told x y) :
    Told xs ys := by
  induction xs generalizing ys with
  | nil => cases ys <;> simp [Told]
  | cons x xs ih =>
    cases ys with
    | nil => simp [Told]
    | cons y ys =>
      have hfirst : Told x y := h x List.mem_cons_self y List.mem_cons_self
      have hrest : Told xs ys :=
        ih fun x' hx y' hy => h x' (List.mem_cons_of_mem x hx) y' (List.mem_cons_of_mem y hy)
      rw [Told, List.cons_beq_cons, Bool.and_eq_true, hfirst.iff, hrest.iff, List.cons.injEq]

theorem told_option {α : Type} [BEq α] {x y : Option α}
    (h : ∀ a ∈ x, ∀ b ∈ y, Told a b) : Told x y := by
  cases x with
  | none => cases y <;> simp [Told]
  | some a =>
    cases y with
    | none => simp [Told]
    | some b => simpa [Told] using h a rfl b rfl

theorem Expr.equalAll_eq (as bs : List Expr) : Expr.equalAll as bs = (as == bs) := by
  induction as generalizing bs with
  | nil => cases bs <;> rfl
  | cons a as ih =>
    cases bs with
    | nil => rfl
    | cons b bs => rw [Expr.equalAll, ih, List.cons_beq_cons]; rfl

theorem Stmt.equalAll_eq (as bs : List Stmt) : Stmt.equalAll as bs = (as == bs) := by
  induction as generalizing bs with
  | nil => cases bs <;> rfl
  | cons a as ih =>
    cases bs with
    | nil => rfl
    | cons b bs => rw [Stmt.equalAll, ih, List.cons_beq_cons]; rfl

theorem Stmt.equalOptional_eq (a b : Option Stmt) : Stmt.equalOptional a b = (a == b) := by
  cases a <;> cases b <;> rfl

/-! ## Nodes of one kind

Texts, operators, types and information are compared as they are, so a node is told apart by those
of its parts that have literals in them. -/

theorem ElementRef.told {a b : ElementRef} (hindex : Told a.index b.index) : Told a b := by
  obtain ⟨base, index, info⟩ := a
  obtain ⟨base', index', info'⟩ := b
  change (base == base' && index == index' && info == info') = true ↔ _
  simp [hindex.iff, and_assoc]

theorem BinaryOp.told {a b : BinaryOp} (hleft : Told a.left b.left)
    (hright : Told a.right b.right) : Told a b := by
  obtain ⟨op, left, right, info⟩ := a
  obtain ⟨op', left', right', info'⟩ := b
  change (op == op' && left == left' && right == right' && info == info') = true ↔ _
  simp [hleft.iff, hright.iff, and_assoc]

theorem ArrayDecl.told {a b : ArrayDecl} (hlower : Told a.lower b.lower)
    (hupper : Told a.upper b.upper) : Told a b := by
  obtain ⟨name, lower, upper, elemType, info⟩ := a
  obtain ⟨name', lower', upper', elemType', info'⟩ := b
  change (name == name' && lower == lower' && upper == upper' && elemType == elemType' &&
    info == info') = true ↔ _
  simp [hlower.iff, hupper.iff, and_assoc]

theorem VarSection.told {a b : VarSection} (hentries : Told a.entries b.entries) : Told a b := by
  obtain ⟨entries, info⟩ := a
  obtain ⟨entries', info'⟩ := b
  change (entries == entries' && info == info') = true ↔ _
  simp [hentries.iff]

theorem Call.told {a b : Call} (hargs : Told a.args b.args) : Told a b := by
  obtain ⟨callee, args, info⟩ := a
  obtain ⟨callee', args', info'⟩ := b
  change (callee == callee' && Expr.equalAll args args' && info == info') = true ↔ _
  simp [Expr.equalAll_eq, hargs.iff, and_assoc]

theorem Assign.told {a b : Assign} (htarget : Told a.target b.target)
    (hvalue : Told a.value b.value) : Told a b := by
  obtain ⟨target, value, info⟩ := a
  obtain ⟨target', value', info'⟩ := b
  change (target == target' && value == value' && info == info') = true ↔ _
  simp [htarget.iff, hvalue.iff, and_assoc]

theorem If.told {a b : If} (hcond : Told a.cond b.cond) (hthen : Told a.thenBranch b.thenBranch)
    (helse : Told a.elseBranch b.elseBranch) : Told a b := by
  obtain ⟨cond, thenBranch, elseBranch, info⟩ := a
  obtain ⟨cond', thenBranch', elseBranch', info'⟩ := b
  change (cond == cond' && thenBranch == thenBranch' &&
    Stmt.equalOptional elseBranch elseBranch' && info == info') = true ↔ _
  simp [Stmt.equalOptional_eq, hcond.iff, hthen.iff, helse.iff, and_assoc]

theorem While.told {a b : While} (hcond : Told a.cond b.cond) (hbody : Told a.body b.body) :
    Told a b := by
  obtain ⟨cond, body, info⟩ := a
  obtain ⟨cond', body', info'⟩ := b
  change (cond == cond' && body == body' && info == info') = true ↔ _
  simp [hcond.iff, hbody.iff, and_assoc]

theorem For.told {a b : For} (hinit : Told a.init b.init) (hbound : Told a.bound b.bound)
    (hbody : Told a.body b.body) : Told a b := by
  obtain ⟨init, bound, body, info⟩ := a
  obtain ⟨init', bound', body', info'⟩ := b
  change (init == init' && bound == bound' && body == body' && info == info') = true ↔ _
  simp [hinit.iff, hbound.iff, hbody.iff, and_assoc]

theorem StmtList.told {a b : StmtList} (hstmts : Told a.stmts b.stmts) : Told a b := by
  obtain ⟨stmts, info⟩ := a
  obtain ⟨stmts', info'⟩ := b
  change (Stmt.equalAll stmts stmts' && info == info') = true ↔ _
  simp [Stmt.equalAll_eq, hstmts.iff]

theorem Body.told {a b : Body} (hlist : Told a.list b.list) : Told a b := by
  obtain ⟨list, info⟩ := a
  obtain ⟨list', info'⟩ := b
  change (list == list' && info == info') = true ↔ _
  simp [hlist.iff]

theorem Program.told {a b : Program} (hvars : Told a.vars b.vars) (hbody : Told a.body b.body) :
    Told a b := by
  obtain ⟨name, vars, body, info⟩ := a
  obtain ⟨name', vars', body', info'⟩ := b
  change (name == name' && vars == vars' && body == body' && info == info') = true ↔ _
  simp [hvars.iff, hbody.iff, and_assoc]

theorem ProcedureDecl.told {a b : ProcedureDecl} (hvars : Told a.vars b.vars)
    (hbody : Told a.body b.body) : Told a b := by
  obtain ⟨name, params, vars, body, info⟩ := a
  obtain ⟨name', params', vars', body', info'⟩ := b
  change (name == name' && params == params' && vars == vars' && body == body' &&
    info == info') = true ↔ _
  simp [hvars.iff, hbody.iff, and_assoc]

theorem FunctionDecl.told {a b : FunctionDecl} (hvars : Told a.vars b.vars)
    (hbody : Told a.body b.body) : Told a b := by
  obtain ⟨name, params, type, vars, body, info⟩ := a
  obtain ⟨name', params', type', vars', body', info'⟩ := b
  change (name == name' && params == params' && type == type' && vars == vars' &&
    body == body' && info == info') = true ↔ _
  simp [hvars.iff, hbody.iff, and_assoc]

/-! ## Nodes -/

namespace Node

theorem told_literal {a b : Literal} (h : Told (literal a) (literal b)) : Told a b :=
  h.of_view rfl (by simp)

theorem told_varSection {a b : VarSection} (h : Told (varSection a) (varSection b)) : Told a b :=
  h.of_view rfl (by simp)

theorem told_stmtList {a b : StmtList} (h : Told (stmtList a) (stmtList b)) : Told a b :=
  h.of_view rfl (by simp)

/-- Two nodes whose literals carry the values of their texts are told apart if their children
are. -/
theorem told_of_children {a b : Node} (ha : Resolved a) (hb : Resolved b)
    (h : ∀ c ∈ a.children, ∀ d ∈ b.children, Told c d) : Told a b := by
  change a.equal b = true ↔ a = b
  fun_cases Node.equal a b with
  | case1 l l' =>
    have hl : l.Faithful := Literal.ofText_self_iff.mp (ha l (mem_preorder_self _))
    have hl' : l'.Faithful := Literal.ofText_self_iff.mp (hb l' (mem_preorder_self _))
    rw [literal.injEq]
    exact Literal.beq_iff_eq_of_faithful hl hl'
  -- Identifiers, lists of them, types, variables and parameters have no literals in them.
  | case2 n n' => simp
  | case5 n n' => simp
  | case6 n n' => simp
  | case7 n n' => simp
  | case17 n n' => simp
  | case3 n n' =>
    have hindex := h n.index.toNode (by simp [children]) n'.index.toNode (by simp [children])
    rw [elementRef.injEq]
    exact ElementRef.told (Expr.told hindex)
  | case4 n n' =>
    have hleft := h n.left.toNode (by simp [children]) n'.left.toNode (by simp [children])
    have hright := h n.right.toNode (by simp [children]) n'.right.toNode (by simp [children])
    rw [binaryOp.injEq]
    exact BinaryOp.told (Expr.told hleft) (Expr.told hright)
  | case8 n n' =>
    have hlower := h (literal n.lower) (by simp [children]) (literal n'.lower) (by simp [children])
    have hupper := h (literal n.upper) (by simp [children]) (literal n'.upper) (by simp [children])
    rw [arrayDecl.injEq]
    exact ArrayDecl.told (told_literal hlower) (told_literal hupper)
  | case9 n n' =>
    rw [varSection.injEq]
    exact VarSection.told (told_list fun e he e' he' =>
      VarEntry.told (h _ (List.mem_map_of_mem he) _ (List.mem_map_of_mem he')))
  | case10 n n' =>
    rw [call.injEq]
    exact Call.told (told_list fun e he e' he' =>
      Expr.told (h _ (List.mem_cons_of_mem _ (List.mem_map_of_mem he)) _
        (List.mem_cons_of_mem _ (List.mem_map_of_mem he'))))
  | case11 n n' =>
    have htarget := h n.target.toNode (by simp [children]) n'.target.toNode (by simp [children])
    have hvalue := h n.value.toNode (by simp [children]) n'.value.toNode (by simp [children])
    rw [assign.injEq]
    exact Assign.told (AssignTarget.told htarget) (Expr.told hvalue)
  | case12 n n' =>
    have hcond := h n.cond.toNode (by simp [children]) n'.cond.toNode (by simp [children])
    have hthen :=
      h n.thenBranch.toNode (by simp [children]) n'.thenBranch.toNode (by simp [children])
    have helse : Told n.elseBranch n'.elseBranch := told_option fun s hs s' hs' =>
      Stmt.told (h s.toNode (by simp [children, Option.mem_def.mp hs]) s'.toNode
        (by simp [children, Option.mem_def.mp hs']))
    rw [ifStmt.injEq]
    exact If.told (Expr.told hcond) (Stmt.told hthen) helse
  | case13 n n' =>
    have hcond := h n.cond.toNode (by simp [children]) n'.cond.toNode (by simp [children])
    have hbody := h n.body.toNode (by simp [children]) n'.body.toNode (by simp [children])
    rw [whileStmt.injEq]
    exact While.told (Expr.told hcond) (Stmt.told hbody)
  | case14 n n' =>
    have hinit := h n.init.toNode (by simp [children]) n'.init.toNode (by simp [children])
    have hbound := h n.bound.toNode (by simp [children]) n'.bound.toNode (by simp [children])
    have hbody := h n.body.toNode (by simp [children]) n'.body.toNode (by simp [children])
    rw [forStmt.injEq]
    exact For.told (Stmt.told hinit) (Expr.told hbound) (Stmt.told hbody)
  | case15 n n' =>
    rw [stmtList.injEq]
    exact StmtList.told (told_list fun s hs s' hs' =>
      Stmt.told (h _ (List.mem_map_of_mem hs) _ (List.mem_map_of_mem hs')))
  | case16 n n' =>
    have hlist := h (stmtList n.list) (by simp [children]) (stmtList n'.list) (by simp [children])
    rw [body.injEq]
    exact Body.told (told_stmtList hlist)
  | case18 n n' =>
    have hvars :=
      h (varSection n.vars) (by simp [children]) (varSection n'.vars) (by simp [children])
    have hbody := h (stmtList n.body) (by simp [children]) (stmtList n'.body) (by simp [children])
    rw [program.injEq]
    exact Program.told (told_varSection hvars) (told_stmtList hbody)
  | case19 n n' =>
    have hvars :=
      h (varSection n.vars) (by simp [children]) (varSection n'.vars) (by simp [children])
    have hbody := h (stmtList n.body) (by simp [children]) (stmtList n'.body) (by simp [children])
    rw [procedureDecl.injEq]
    exact ProcedureDecl.told (told_varSection hvars) (told_stmtList hbody)
  | case20 n n' =>
    have hvars :=
      h (varSection n.vars) (by simp [children]) (varSection n'.vars) (by simp [children])
    have hbody := h (stmtList n.body) (by simp [children]) (stmtList n'.body) (by simp [children])
    rw [functionDecl.injEq]
    exact FunctionDecl.told (told_varSection hvars) (told_stmtList hbody)
  | case21 =>
    -- Nodes of different kinds are neither equal nor the same.
    refine iff_of_false (by simp) ?_
    rintro rfl
    cases a <;> grind

/-- Structural equality is the identity of trees whose literals carry the values of their texts. -/
theorem told_of_resolved {a b : Node} (ha : Resolved a) (hb : Resolved b) : Told a b := by
  induction a using children_induction generalizing b with
  | step a ih =>
    exact told_of_children ha hb fun c hc d hd => ih c hc (ha.child hc) (hb.child hd)

end Node

/-! ## Stored texts -/

namespace Stored

/-- Structural equality of trees of one type; slots also compare what stands in them by its
kind. -/
def TreeType.equal : (t : TreeType) → t.Val → t.Val → Bool
  | .expr, a, b => a == b
  | .stmt, a, b => a == b
  | .target, a, b => a == b
  | .entry, a, b => a == b
  | .node kind, a, b => TreeType.toNode (.node kind) a == TreeType.toNode (.node kind) b

theorem equal_iff_eq (t : TreeType) {x y : t.Val} (hx : Resolved (t.toNode x))
    (hy : Resolved (t.toNode y)) : t.equal x y = true ↔ x = y := by
  have hnodes : Told (t.toNode x) (t.toNode y) := Node.told_of_resolved hx hy
  cases t with
  -- A record is compared as the node it is, a slot by what stands in it.
  | node kind => cases kind <;> exact hnodes.iff.trans (by simp [TreeType.toNode])
  | expr => exact (Expr.told hnodes).iff
  | stmt => exact (Stmt.told hnodes).iff
  | target => exact (AssignTarget.told hnodes).iff
  | entry => exact (VarEntry.told hnodes).iff

/-- Trees with the same stored text are the same: with levels enough for both, the one text is
read as each of them. -/
theorem storeTree_injective (t : TreeType) {x y : t.Val} (hx : Resolved (t.toNode x))
    (hy : Resolved (t.toNode y)) (h : storeTree t x = storeTree t y) : x = y := by
  have hchars : (t.toDocument x).chars = (t.toDocument y).chars := String.ofList_injective h
  -- Loading has a fixed number of levels, which the text may exceed; a reader has any number.
  let levels := max (t.toDocument x).depth (t.toDocument y).depth
  have hreadx := stores_tree t x hx levels (t.toDocument x).chars [] trivial (by simp)
  have hready := stores_tree t y hy levels (t.toDocument y).chars [] trivial (by simp)
  rw [within, if_pos (Nat.le_max_left _ _)] at hreadx
  rw [within, if_pos (Nat.le_max_right _ _)] at hready
  obtain ⟨_, hdonex, _⟩ := hreadx
  obtain ⟨_, hdoney, _⟩ := hready
  rw [hchars, hdoney] at hdonex
  cases hdonex
  rfl

/-- Trees of one type, however deep, are equal exactly if their stored texts are, and every tree
is equal to itself. -/
theorem equal_iff_storeTree_eq (t : TreeType) {x y : t.Val} (hx : Obtainable (t.toNode x))
    (hy : Obtainable (t.toNode y)) :
    (t.equal x y = true ↔ storeTree t x = storeTree t y) ∧ t.equal x x = true := by
  have htold := equal_iff_eq t hx.resolved hy.resolved
  refine ⟨⟨?_, ?_⟩, (equal_iff_eq t hx.resolved hx.resolved).mpr rfl⟩
  · intro hequal
    rw [htold.mp hequal]
  · intro htext
    exact htold.mpr (storeTree_injective t hx.resolved hy.resolved htext)

/-- A zero that equals `negativeZero` as a number but has another text. -/
def positiveZero : Literal := ⟨"0.0", .real ⟨0⟩, {}⟩

/-- A zero that equals `positiveZero` as a number but has another text. -/
def negativeZero : Literal := ⟨"-0.0", .real ⟨0x8000000000000000⟩, {}⟩

theorem equal_iff_storeTree_eq_zeros :
    Obtainable (.literal positiveZero) ∧ Obtainable (.literal negativeZero) ∧
      (positiveZero.value == negativeZero.value) = true ∧
      storeTree .expr (.literal positiveZero) ≠ storeTree .expr (.literal negativeZero) ∧
      TreeType.equal .expr (.literal positiveZero) (.literal positiveZero) = true := by
  have hpositiveText : Literal.ofText "0.0" = .ok positiveZero := rfl
  have hnegativeText : Literal.ofText "-0.0" = .ok negativeZero := rfl
  have hpositive : Obtainable (.literal positiveZero) := .literal hpositiveText
  have hnegative : Obtainable (.literal negativeZero) := .literal hnegativeText
  obtain ⟨hiff, hself⟩ := equal_iff_storeTree_eq .expr (x := .literal positiveZero)
    (y := .literal negativeZero) hpositive hnegative
  refine ⟨hpositive, hnegative, rfl, ?_, hself⟩
  intro htext
  exact absurd (hiff.mpr htext) (by decide)

end Stored

end PascalTree
