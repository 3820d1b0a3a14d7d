import PascalTree.Node.Walk

/-!
# Preorder — the stack walk visits a tree in pre-order

`Walk.next?` knows nothing but the pending nodes. What it still owes is, for each pending node from
the first to the last, that node followed by everything below it:

* `Node.nodes`: the pre-order of a tree by recursion on the children;
* `Walk.run`: a number of steps of the walk, with the nodes they give;
* `Walk.toList_eq`: what a walk still owes;
* `Node.preorder_eq`: the walk over a tree satisfies the equation of the recursion.
-/

namespace PascalTree

open Numeric (total)

namespace Node

/-! ## Recursion on the children -/

/-- Induction over trees: what passes from the children of a node to the node holds everywhere. -/
theorem children_induction {motive : Node → Prop}
    (step : ∀ n, (∀ c ∈ n.children, motive c) → motive n) (n : Node) : motive n := by
  apply step
  intro c hc
  exact children_induction step c
termination_by n.size
decreasing_by
  exact size_lt_of_mem_children hc

/-- The nodes of a tree, each before everything below it, by recursion on the children. -/
def nodes (n : Node) : List Node :=
  n :: n.children.attach.flatMap fun ⟨c, _⟩ => c.nodes
termination_by n.size
decreasing_by
  exact size_lt_of_mem_children (by assumption)

theorem nodes_eq (n : Node) : n.nodes = n :: n.children.flatMap nodes := by
  rw [nodes]
  simp

end Node

namespace Walk

/-! ## What a walk still owes -/

theorem toList_nil : toList ⟨[]⟩ = [] := by
  rw [toList]
  rfl

theorem toList_cons (n : Node) (rest : List Node) :
    toList ⟨n :: rest⟩ = n :: toList ⟨n.children ++ rest⟩ := by
  rw [toList]
  rfl

/-- A walk still owes the trees of its pending nodes, one after the other. -/
theorem toList_eq (w : Walk) : w.toList = w.pending.flatMap Node.nodes := by
  obtain ⟨pending⟩ := w
  cases pending with
  | nil => simpa using toList_nil
  | cons n rest =>
    -- One step trades the tree of `n` for `n` itself and the trees of its children.
    have hrest : toList ⟨n.children ++ rest⟩ = (n.children ++ rest).flatMap Node.nodes :=
      toList_eq ⟨n.children ++ rest⟩
    calc
      toList ⟨n :: rest⟩
          = n :: (n.children ++ rest).flatMap Node.nodes := by rw [toList_cons, hrest]
      _ = (n :: n.children.flatMap Node.nodes) ++ rest.flatMap Node.nodes := by
          simp [List.flatMap_append]
      _ = (n :: rest).flatMap Node.nodes := by
          rw [← Node.nodes_eq, List.flatMap_cons]
termination_by w.remaining
decreasing_by
  have h : next? ⟨n :: rest⟩ = some (n, ⟨n.children ++ rest⟩) := rfl
  rw [remaining_next h]
  exact Nat.lt_add_of_pos_left Nat.one_pos

/-! ## Runs of the walk -/

/-- The nodes given by the next `k` steps, and the walk after them. A walk that has ended stays as
it is. -/
def run : Nat → Walk → List Node × Walk
  | 0, w => ([], w)
  | k + 1, w =>
    match w.next? with
    | none => ([], w)
    | some (n, w') => (n :: (run k w').1, (run k w').2)

/-- A run gives the first nodes that the walk owed, and leaves the walk owing the others. -/
theorem run_eq (k : Nat) (w : Walk) :
    (run k w).1 = w.toList.take k ∧ (run k w).2.toList = w.toList.drop k := by
  induction k generalizing w with
  | zero => simp [run]
  | succ k ih =>
    obtain ⟨pending⟩ := w
    cases pending with
    | nil => simp [run, next?, toList_nil]
    | cons n rest =>
      rcases ih ⟨n.children ++ rest⟩ with ⟨hgiven, howed⟩
      rw [toList_cons]
      simp [run, next?, hgiven, howed]

end Walk

namespace Node

/-! ## The walk over a tree -/

theorem preorder_eq_nodes (n : Node) : n.preorder = n.nodes := by
  have h := Walk.toList_eq n.walk
  simpa [walk, preorder] using h

/-- A tree is its root followed by the trees of the children. -/
theorem preorder_eq (n : Node) : n.preorder = n :: n.children.flatMap preorder := by
  have h : preorder = nodes := funext preorder_eq_nodes
  rw [h]
  exact nodes_eq n

theorem mem_preorder_self (n : Node) : n ∈ n.preorder := by
  rw [preorder_eq]
  exact List.mem_cons_self

/-- What lies below a child lies below its parent. -/
theorem mem_preorder_of_mem_children {m c n : Node} (hc : c ∈ n.children) (hm : m ∈ c.preorder) :
    m ∈ n.preorder := by
  rw [preorder_eq]
  exact List.mem_cons_of_mem n (List.mem_flatMap.2 ⟨c, hc, hm⟩)

theorem count_eq (n : Node) : n.count = 1 + total (n.children.map count) := by
  have h : n.count = (n :: n.children.flatMap preorder).length := by
    rw [count, preorder_eq]
  rw [h, List.length_cons, List.length_flatMap, Nat.add_comm]
  rfl

/-- If all but the root are children in each of several trees, then the nodes of these trees are
their roots and the children in them. -/
theorem total_count_eq {cs : List Node}
    (h : ∀ c ∈ cs, c.count = 1 + total (c.preorder.map fun m => m.children.length)) :
    total (cs.map count) =
      cs.length + total ((cs.flatMap preorder).map fun m => m.children.length) := by
  induction cs with
  | nil => rfl
  | cons c cs ih =>
    have hc := h c List.mem_cons_self
    have hcs := ih fun d hd => h d (List.mem_cons_of_mem c hd)
    simp only [List.map_cons, Numeric.total_cons, List.length_cons, List.flatMap_cons,
      List.map_append, Numeric.total_append, hc, hcs]
    omega

/-- Every node but the root is the child of exactly one node. -/
theorem count_eq_total_children (n : Node) :
    n.count = 1 + total (n.preorder.map fun m => m.children.length) := by
  induction n using children_induction with
  | step n ih =>
    rw [count_eq, total_count_eq ih, preorder_eq n]
    simp

/-- The walk over a tree is its recursive pre-order, and so is what is left of it after any number
of steps, read off the pending nodes. The number of nodes follows the same recursion, and all
nodes but the root are children. -/
theorem walk_is_recursive_preorder (n : Node) :
    n.preorder = n.nodes ∧
      n.preorder = n :: n.children.flatMap preorder ∧
      (∀ k, (n.walk.run k).1 = n.nodes.take k ∧
        (n.walk.run k).2.toList = n.nodes.drop k ∧
        (n.walk.run k).2.toList = (n.walk.run k).2.pending.flatMap nodes) ∧
      n.count = 1 + total (n.children.map count) ∧
      n.count - 1 = total (n.preorder.map fun m => m.children.length) := by
  refine ⟨preorder_eq_nodes n, preorder_eq n, ?_, count_eq n, ?_⟩
  · intro k
    rcases Walk.run_eq k n.walk with ⟨hgiven, howed⟩
    have hall : n.walk.toList = n.nodes := preorder_eq_nodes n
    rw [hall] at hgiven howed
    exact ⟨hgiven, howed, Walk.toList_eq _⟩
  · rw [count_eq_total_children]
    exact Nat.add_sub_cancel_left 1 _

end Node

end PascalTree
