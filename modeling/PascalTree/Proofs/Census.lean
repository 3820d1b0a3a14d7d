import PascalTree.Proofs.Preorder
import PascalTree.Report

/-!
# Census — how the numbers of nodes of the kinds hang together

The kind of a node fixes some of its children: a procedure has a name, parameters, a `var` section
and a statement list, whatever they contain. Every node but the root is the child of one node, so
the numbers of the parents of a kind bound the number of its nodes from below, and give it exactly
if nodes of that kind stand nowhere else.

* `Kind.fixedParts`: the kinds of the children that a kind fixes;
* `Node.owed`: how many nodes of a kind the other nodes of a tree call for;
* `Node.preorder_perm`: a tree is its root and the children of all its nodes;
* `Node.owed_le_count`, `Node.count_eq_owed`: the census of any tree;
* `Report.census`: the census of a program, as its report counts it.
-/

namespace PascalTree

open Numeric (total)
open scoped List

namespace Kind

/-! ## What a kind fixes -/

theorem mem_all (k : Kind) : k ∈ all := by
  cases k <;> decide

theorem nodup_all : all.Nodup := by
  decide

/-- The kinds of the children that every node of a kind has, whatever stands in its slots. -/
def fixedParts : Kind → List Kind
  | elementRef => [.ident]
  | varDecl => [.identList, .typeSpec]
  | arrayDecl => [.typeSpec, .ident, .literal, .literal]
  | call => [.ident]
  | body => [.stmtList]
  | program => [.ident, .varSection, .stmtList]
  | procedureDecl => [.ident, .params, .varSection, .stmtList]
  | functionDecl => [.ident, .params, .typeSpec, .varSection, .stmtList]
  | _ => []

/-- Whether nodes of a kind stand in slots or lists, in numbers that no kind fixes. -/
def standsFree : Kind → Bool
  | identList | typeSpec | varSection | params | program => false
  | _ => true

/-- One kind out of several different ones contributes to a sum over them. -/
theorem total_indicator (f : Kind → Nat) (k : Kind) {ks : List Kind} (hks : ks.Nodup) :
    total (ks.map fun p => f p * if k == p then 1 else 0) = if k ∈ ks then f k else 0 := by
  induction ks with
  | nil => rfl
  | cons p ks ih =>
    have hp : p ∉ ks := (List.nodup_cons.mp hks).1
    have htail := ih (List.nodup_cons.mp hks).2
    by_cases hk : k = p
    · subst hk
      simp only [List.map_cons, Numeric.total_cons, htail, if_neg hp]
      simp
    · simp only [List.map_cons, Numeric.total_cons, htail]
      simp [hk]

/-- A sum over a list of kinds, collected by kind. -/
theorem total_map_eq (f : Kind → Nat) (ks : List Kind) :
    total (ks.map f) = total (all.map fun p => f p * ks.count p) := by
  induction ks with
  | nil => exact (Numeric.total_map_zero all).symm
  | cons k ks ih =>
    have hone : total (all.map fun p => f p * if k == p then 1 else 0) = f k := by
      rw [total_indicator f k nodup_all, if_pos (mem_all k)]
    calc
      total ((k :: ks).map f)
          = total (all.map fun p => f p * ks.count p) + f k := by
            rw [List.map_cons, Numeric.total_cons, ih, Nat.add_comm]
      _ = total (all.map fun p => f p * ks.count p + f p * if k == p then 1 else 0) := by
            rw [Numeric.total_map_add, hone]
      _ = total (all.map fun p => f p * (k :: ks).count p) := by
            simp only [List.count_cons, Nat.mul_add]

end Kind

/-! ## Slots -/

@[simp]
theorem Expr.standsFree_toNode (e : Expr) : e.toNode.kind.standsFree = true := by
  cases e <;> rfl

@[simp]
theorem AssignTarget.standsFree_toNode (t : AssignTarget) :
    t.toNode.kind.standsFree = true := by
  cases t <;> rfl

@[simp]
theorem VarEntry.standsFree_toNode (e : VarEntry) : e.toNode.kind.standsFree = true := by
  cases e <;> rfl

@[simp]
theorem Stmt.standsFree_toNode (s : Stmt) : s.toNode.kind.standsFree = true := by
  cases s <;> rfl

namespace Node

/-! ## Children of one node -/

/-- The children of a node are the parts that its kind fixes, and then those that stand free. -/
theorem kind_children (n : Node) :
    ∃ rest, n.children.map kind = n.kind.fixedParts ++ rest ∧
      ∀ k ∈ rest, k.standsFree = true := by
  cases n with
  | literal n => exact ⟨[], rfl, by simp⟩
  | ident n => exact ⟨[], rfl, by simp⟩
  | typeSpec n => exact ⟨[], rfl, by simp⟩
  | elementRef n => exact ⟨[n.index.toNode.kind], rfl, by simp⟩
  | binaryOp n => exact ⟨[n.left.toNode.kind, n.right.toNode.kind], rfl, by simp⟩
  | identList n => exact ⟨_, rfl, by simp [children, kind, Kind.standsFree]⟩
  | varDecl n => exact ⟨[], rfl, by simp⟩
  | arrayDecl n => exact ⟨[], rfl, by simp⟩
  | varSection n => exact ⟨_, rfl, by simp [children]⟩
  | call n => exact ⟨(n.args.map Expr.toNode).map kind, rfl, by simp⟩
  | assign n => exact ⟨[n.target.toNode.kind, n.value.toNode.kind], rfl, by simp⟩
  | ifStmt n => exact ⟨_, rfl, by simp⟩
  | whileStmt n => exact ⟨_, rfl, by simp⟩
  | forStmt n => exact ⟨_, rfl, by simp⟩
  | stmtList n => exact ⟨_, rfl, by simp [children]⟩
  | body n => exact ⟨[], rfl, by simp⟩
  | params n => exact ⟨_, rfl, by simp [children, kind, Kind.standsFree]⟩
  | program n => exact ⟨[], rfl, by simp⟩
  | procedureDecl n => exact ⟨[], rfl, by simp⟩
  | functionDecl n => exact ⟨[], rfl, by simp⟩

theorem count_fixedParts_le (n : Node) (k : Kind) :
    n.kind.fixedParts.count k ≤ (n.children.map kind).count k := by
  obtain ⟨rest, hkinds, _⟩ := kind_children n
  rw [hkinds, List.count_append]
  exact Nat.le_add_right _ _

theorem count_fixedParts_eq (n : Node) {k : Kind} (hk : k.standsFree = false) :
    n.kind.fixedParts.count k = (n.children.map kind).count k := by
  obtain ⟨rest, hkinds, hrest⟩ := kind_children n
  -- What is not fixed stands free, so none of it is of this kind.
  have hnone : k ∉ rest := by
    intro hmem
    simp [hrest k hmem] at hk
  rw [hkinds, List.count_append, List.count_eq_zero_of_not_mem hnone, Nat.add_zero]

/-! ## Children of all nodes -/

/-- If in each of several trees all nodes but the root are children, then the nodes of these trees
are their roots and the children in them. -/
theorem flatMap_preorder_perm {cs : List Node}
    (h : ∀ c ∈ cs, c.preorder ~ c :: c.preorder.flatMap children) :
    cs.flatMap preorder ~ cs ++ (cs.flatMap preorder).flatMap children := by
  induction cs with
  | nil => exact .nil
  | cons c cs ih =>
    have hc := h c List.mem_cons_self
    have hcs := ih fun d hd => h d (List.mem_cons_of_mem c hd)
    -- The roots move to the front of what lies below them.
    calc
      c.preorder ++ cs.flatMap preorder
          ~ (c :: c.preorder.flatMap children) ++
              (cs ++ (cs.flatMap preorder).flatMap children) := hc.append hcs
      _ ~ c :: (cs ++ (c.preorder.flatMap children ++ (cs.flatMap preorder).flatMap children)) :=
          (List.perm_append_comm_assoc _ _ _).cons c
      _ = (c :: cs) ++ ((c :: cs).flatMap preorder).flatMap children := by
          simp [List.flatMap_append]

/-- A tree is its root and the children of all its nodes, each once. -/
theorem preorder_perm (n : Node) : n.preorder ~ n :: n.preorder.flatMap children := by
  induction n using children_induction with
  | step n ih =>
    have hbelow := flatMap_preorder_perm ih
    rw [preorder_eq n, List.flatMap_cons]
    exact hbelow.cons n

/-! ## The census of a tree -/

/-- The kinds of the nodes of a tree, in pre-order. -/
def kinds (n : Node) : List Kind := n.preorder.map kind

/-- How many nodes of a kind the nodes of a tree call for: one if the root is of that kind, and
those that the kinds of all nodes fix. -/
def owed (n : Node) (k : Kind) : Nat :=
  (if n.kind = k then 1 else 0) +
    total (Kind.all.map fun p => p.fixedParts.count k * n.kinds.count p)

theorem count_kinds (n : Node) (k : Kind) :
    n.kinds.count k =
      (if n.kind = k then 1 else 0) +
        total (n.preorder.map fun m => (m.children.map kind).count k) := by
  have hkinds : n.kinds ~ n.kind :: n.preorder.flatMap fun m => m.children.map kind := by
    have hmap := (preorder_perm n).map kind
    rwa [List.map_cons, List.map_flatMap] at hmap
  rw [hkinds.count_eq, List.count_cons, List.count_flatMap, Nat.add_comm]
  simp only [beq_iff_eq]
  rfl

theorem owed_eq (n : Node) (k : Kind) :
    n.owed k =
      (if n.kind = k then 1 else 0) +
        total (n.preorder.map fun m => m.kind.fixedParts.count k) := by
  rw [owed, ← Kind.total_map_eq, kinds, List.map_map]
  rfl

/-- A tree has as many nodes of a kind as its nodes call for, or more. -/
theorem owed_le_count (n : Node) (k : Kind) : n.owed k ≤ n.kinds.count k := by
  rw [owed_eq, count_kinds]
  exact Nat.add_le_add_left (Numeric.total_map_le fun m _ => count_fixedParts_le m k) _

/-- Of a kind that never stands free a tree has exactly as many nodes as its nodes call for. -/
theorem count_eq_owed (n : Node) {k : Kind} (hk : k.standsFree = false) :
    n.kinds.count k = n.owed k := by
  rw [owed_eq, count_kinds]
  refine congrArg _ (congrArg total (List.map_congr_left ?_))
  exact fun m _ => (count_fixedParts_eq m hk).symm

end Node

namespace Report

/-- The number of nodes of a kind in a program. -/
def countKind (p : Program) (k : Kind) : Nat :=
  ((Node.program p).preorder.filter fun n => n.kind = k).length

theorem countKind_eq (p : Program) (k : Kind) :
    countKind p k = (Node.program p).kinds.count k := by
  rw [Node.kinds, List.count, List.countP_map, List.countP_eq_length_filter]
  rfl

theorem owed_le_countKind (p : Program) (k : Kind) : (Node.program p).owed k ≤ countKind p k := by
  rw [countKind_eq]
  exact Node.owed_le_count _ k

theorem countKind_eq_owed (p : Program) {k : Kind} (hk : k.standsFree = false) :
    countKind p k = (Node.program p).owed k := by
  rw [countKind_eq]
  exact Node.count_eq_owed _ hk

theorem owed_eq (p : Program) (k : Kind) :
    (Node.program p).owed k =
      (if Kind.program = k then 1 else 0) +
        total (Kind.all.map fun parent => parent.fixedParts.count k * countKind p parent) := by
  simp only [Node.owed, countKind_eq]
  rfl

/-- Every node is called for by its parent: the numbers of nodes by kind of any program balance,
however deeply its routines are nested. -/
theorem census (p : Program) :
    countKind p .program = 1 ∧
      countKind p .varSection = 1 + countKind p .procedureDecl + countKind p .functionDecl ∧
      countKind p .params = countKind p .procedureDecl + countKind p .functionDecl ∧
      countKind p .identList = countKind p .varDecl ∧
      countKind p .typeSpec =
        countKind p .varDecl + countKind p .arrayDecl + countKind p .functionDecl ∧
      2 * countKind p .arrayDecl ≤ countKind p .literal ∧
      1 + countKind p .body + countKind p .procedureDecl + countKind p .functionDecl ≤
        countKind p .stmtList ∧
      1 + countKind p .procedureDecl + countKind p .functionDecl + countKind p .arrayDecl +
          countKind p .call + countKind p .elementRef ≤
        countKind p .ident := by
  have hprogram : countKind p .program = 1 := by
    rw [countKind_eq_owed p rfl, owed_eq]
    simp [Kind.all, Kind.fixedParts]
  refine ⟨hprogram, ?_, ?_, ?_, ?_, ?_, ?_, ?_⟩
  -- These kinds stand free nowhere, so the numbers of their parents give theirs.
  · have h := countKind_eq_owed p (k := .varSection) rfl
    simp [owed_eq, Kind.all, Kind.fixedParts, hprogram] at h
    omega
  · have h := countKind_eq_owed p (k := .params) rfl
    simpa [owed_eq, Kind.all, Kind.fixedParts] using h
  · have h := countKind_eq_owed p (k := .identList) rfl
    simpa [owed_eq, Kind.all, Kind.fixedParts] using h
  · have h := countKind_eq_owed p (k := .typeSpec) rfl
    simp [owed_eq, Kind.all, Kind.fixedParts] at h
    omega
  -- Literals, statement lists and identifiers also stand in slots and lists.
  · have h := owed_le_countKind p .literal
    simpa [owed_eq, Kind.all, Kind.fixedParts] using h
  · have h := owed_le_countKind p .stmtList
    simp [owed_eq, Kind.all, Kind.fixedParts, hprogram] at h
    omega
  · have h := owed_le_countKind p .ident
    simp [owed_eq, Kind.all, Kind.fixedParts, hprogram] at h
    omega

end Report

end PascalTree
