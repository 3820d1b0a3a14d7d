import PascalTree.Proofs.Preorder
import PascalTree.Proofs.TreeTables

/-!
# NodeNumbers — subtrees are intervals of numbers

Numbers are not kept in a tree: the number of a node is its place in the walk from some root. Inside
the walk from the root, the walk over any subtree stands in one piece, at the number of the node at
its top, so the numbers relative to that node are the numbers relative to the root, shifted.

* `Node.preorder_prefix_drop`: from the number of a node on, the walk is first the walk over the
  subtree of that node;
* `Node.getElem?_flatMap_preorder`: where the subtree of each child begins;
* `Node.numbers_are_compositional`: numbers, children and tables of a subtree, seen from the root.
-/

namespace PascalTree

open Numeric (total)

namespace Node

theorem nodeAt?_eq_none_iff (r : Node) (id : Nat) : r.nodeAt? id = none ↔ r.count ≤ id :=
  List.getElem?_eq_none_iff

/-! ## The walk over a subtree -/

/-- If the subtrees of several trees stand in one piece in them, then also in the row of the
trees. -/
theorem flatMap_preorder_prefix_drop {cs : List Node} {n : Node} {a : Nat}
    (ih : ∀ c ∈ cs, ∀ a, c.nodeAt? a = some n → n.preorder <+: c.preorder.drop a)
    (h : (cs.flatMap preorder)[a]? = some n) :
    n.preorder <+: (cs.flatMap preorder).drop a := by
  induction cs generalizing a with
  | nil => simp at h
  | cons c cs ihcs =>
    rw [List.flatMap_cons] at h ⊢
    by_cases ha : a < c.preorder.length
    · -- The node lies below `c`; what follows the tree of `c` comes behind its subtree.
      rw [List.getElem?_append_left ha] at h
      rw [List.drop_append_of_le_length ha.le]
      exact (ih c List.mem_cons_self a h).trans (List.prefix_append _ _)
    · rw [List.getElem?_append_right (Nat.le_of_not_lt ha)] at h
      rw [List.drop_append, List.drop_eq_nil_of_le (Nat.le_of_not_lt ha), List.nil_append]
      exact ihcs (fun d hd => ih d (List.mem_cons_of_mem c hd)) h

/-- From the number of a node on, the walk over a tree is first the walk over the subtree of that
node. -/
theorem preorder_prefix_drop {r n : Node} {a : Nat} (h : r.nodeAt? a = some n) :
    n.preorder <+: r.preorder.drop a := by
  induction r using children_induction generalizing a with
  | step r ih =>
    rw [nodeAt?, preorder_eq r] at h
    cases a with
    | zero =>
      obtain rfl : r = n := Option.some.inj h
      exact List.prefix_refl _
    | succ a =>
      rw [preorder_eq r, List.drop_succ_cons]
      exact flatMap_preorder_prefix_drop (fun c hc a => ih c hc) h

theorem nodeAt?_add {r n : Node} {a m : Nat} (h : r.nodeAt? a = some n) (hm : m < n.count) :
    r.nodeAt? (a + m) = n.nodeAt? m := by
  obtain ⟨rest, hrest⟩ := preorder_prefix_drop h
  calc
    r.nodeAt? (a + m) = (r.preorder.drop a)[m]? := List.getElem?_drop.symm
    _ = (n.preorder ++ rest)[m]? := by rw [hrest]
    _ = n.nodeAt? m := List.getElem?_append_left hm

theorem add_lt_count {r n : Node} {a m : Nat} (h : r.nodeAt? a = some n) (hm : m < n.count) :
    a + m < r.count := by
  refine Nat.lt_of_not_le fun hle => ?_
  have hnone := (nodeAt?_eq_none_iff r (a + m)).2 hle
  rw [nodeAt?_add h hm, nodeAt?_eq_none_iff] at hnone
  exact Nat.not_lt_of_le hnone hm

/-! ## Children -/

/-- In a row of trees, each tree begins behind the nodes of those before it. -/
theorem getElem?_flatMap_preorder (cs : List Node) (i : Nat) :
    (cs.flatMap preorder)[total ((cs.take i).map count)]? = cs[i]? := by
  induction cs generalizing i with
  | nil => simp
  | cons c cs ih =>
    rw [List.flatMap_cons]
    cases i with
    | zero =>
      rw [preorder_eq c]
      rfl
    | succ i =>
      have hoffset : total (((c :: cs).take (i + 1)).map count) =
          c.preorder.length + total ((cs.take i).map count) := rfl
      rw [hoffset, List.getElem?_append_right (Nat.le_add_right _ _), Nat.add_sub_cancel_left]
      exact ih i

theorem nodeAt?_child (n : Node) (i : Nat) :
    n.nodeAt? (1 + total ((n.children.take i).map count)) = n.child? i := by
  rw [nodeAt?, preorder_eq, Nat.add_comm, List.getElem?_cons_succ]
  exact getElem?_flatMap_preorder n.children i

/-- A child of a node lies behind the node itself and the subtrees of the children before it. -/
theorem nodeAt?_add_child {r n c : Node} {a i : Nat} (h : r.nodeAt? a = some n)
    (hc : n.child? i = some c) :
    r.nodeAt? (a + 1 + total ((n.children.take i).map count)) = some c := by
  have hfound := nodeAt?_child n i
  rw [hc] at hfound
  -- The place is inside the subtree of `n`, because something is found there.
  have hlt : 1 + total ((n.children.take i).map count) < n.count := by
    refine Nat.lt_of_not_le fun hle => ?_
    rw [(nodeAt?_eq_none_iff n _).2 hle] at hfound
    cases hfound
  rw [Nat.add_assoc, nodeAt?_add h hlt, hfound]

/-! ## Numbers seen from the root -/

/-- The numbers of a tree are those below the number of its nodes. The subtree of a node has an
interval of them, which begins with the number of the node: inside it, the nodes and what a table
says about them are those of the subtree, shifted, and each child follows the subtrees of the
children before it. -/
theorem numbers_are_compositional (r : Node) :
    (∀ id, r.nodeAt? id = none ↔ r.count ≤ id) ∧
      ∀ a n, r.nodeAt? a = some n →
        (∀ m < n.count, a + m < r.count ∧ r.nodeAt? (a + m) = n.nodeAt? m) ∧
          (∀ i c, n.child? i = some c →
            r.nodeAt? (a + 1 + total ((n.children.take i).map count)) = some c) ∧
          ∀ (α : Type) (f : Node → Option α), ∀ m < n.count,
            (SideTable.ofTree r f).get? (a + m) = (SideTable.ofTree n f).get? m := by
  refine ⟨nodeAt?_eq_none_iff r, fun a n h => ⟨?_, fun i c => nodeAt?_add_child h, ?_⟩⟩
  · intro m hm
    exact ⟨add_lt_count h hm, nodeAt?_add h hm⟩
  · intro α f m hm
    rw [SideTable.get?_ofTree, SideTable.get?_ofTree, nodeAt?_add h hm]

/-- The product `a[i] * 2`. -/
def product : BinaryOp where
  op := .mul
  left := .element { base := { name := "a" }, index := .ident { name := "i" } }
  right := .literal ⟨"2", .integer 2, {}⟩

/-- The assignment `a[i] := a[i] * 2`, in which the same element stands twice. -/
def doubling : Assign where
  target := .element { base := { name := "a" }, index := .ident { name := "i" } }
  value := .binary product

theorem preorder_product :
    (binaryOp product).preorder =
      [.binaryOp product, .elementRef { base := { name := "a" }, index := .ident { name := "i" } },
        .ident { name := "a" }, .ident { name := "i" }, .literal ⟨"2", .integer 2, {}⟩] := by
  simp [preorder_eq, product, children, Expr.toNode]

theorem preorder_doubling :
    (assign doubling).preorder =
      .assign doubling ::
        .elementRef { base := { name := "a" }, index := .ident { name := "i" } } ::
        .ident { name := "a" } :: .ident { name := "i" } :: (binaryOp product).preorder := by
  simp [preorder_eq, doubling, children, Expr.toNode, AssignTarget.toNode]

/-- The right-hand side of the assignment has the numbers from four on, and the literal at its end
comes behind the subtree of the element before it. -/
theorem numbers_are_compositional_doubling :
    (assign doubling).nodeAt? 4 = some (.binaryOp product) ∧
      2 < (binaryOp product).count ∧
      (assign doubling).nodeAt? (4 + 2) = (binaryOp product).nodeAt? 2 ∧
      (assign doubling).nodeAt?
          (4 + 1 + total (((binaryOp product).children.take 1).map count)) =
        some (.literal ⟨"2", .integer 2, {}⟩) ∧
      (SideTable.ofTree (assign doubling) fun n => some n.kind).get? (4 + 2) =
        (SideTable.ofTree (binaryOp product) fun n => some n.kind).get? 2 := by
  have htop : (assign doubling).nodeAt? 4 = some (.binaryOp product) := by
    rw [nodeAt?, preorder_doubling, preorder_product]
    rfl
  have hcount : 2 < (binaryOp product).count := by
    rw [count, preorder_product]
    decide
  obtain ⟨hinside, hchildren, htables⟩ := (numbers_are_compositional (assign doubling)).2 4 _ htop
  exact ⟨htop, hcount, (hinside 2 hcount).2, hchildren 1 _ rfl, htables _ _ 2 hcount⟩

end Node

end PascalTree
