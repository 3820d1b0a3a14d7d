import PascalTree.Proofs.Census
import PascalTree.Proofs.Visits

/-!
# KindCounts — the report of numbers counts the nodes of each kind

The report keeps one number for each kind, in the place where the kind is declared, and prints the
numbers beside the table of all kinds. What it prints for a kind is the number of nodes of that
kind, as it is counted by recursion on the typed parts of a program.

* `Report.getElem_countNode`: what the visit of one node does to the numbers;
* `Report.getElem_tally`: the numbers after the visit of all nodes;
* `Node.weight_eq_total_preorder`: sums over the typed parts are sums over the walk;
* `Program.nodesOf`: the number of nodes of a kind, by recursion on the typed parts;
* `Report.stats_counts_by_kind`: the text of the report.
-/

namespace PascalTree

open Numeric (total)

namespace Kind

theorem rank_getElem_all : ∀ (i : Nat) (h : i < all.length), (all[i]).rank = i := by
  decide

/-- The place of a kind is where it stands in the table of all kinds, and nowhere else. -/
theorem rank_eq_iff {k : Kind} {i : Nat} (hi : i < all.length) : k.rank = i ↔ all[i] = k := by
  constructor
  · rintro rfl
    exact (List.getElem?_eq_some_iff.1 k.getElem?_all_rank).2
  · rintro rfl
    exact rank_getElem_all i hi

end Kind

namespace Report

/-! ## The numbers in their places -/

/-- The visit of a node adds one in the place that belongs to its kind, and changes no other
place. -/
theorem getElem_countNode (n : Node) (counts : Vector Nat Kind.all.length) {i : Nat}
    (hi : i < Kind.all.length) :
    (countNode n counts)[i] = counts[i] + if Kind.all[i] = n.kind then 1 else 0 := by
  simp only [countNode, Vector.getElem_set, ← Kind.rank_eq_iff hi]
  split
  · rename_i h
    subst h
    rfl
  · rfl

theorem getElem_foldl_countNode (ns : List Node) (counts : Vector Nat Kind.all.length) {i : Nat}
    (hi : i < Kind.all.length) :
    (ns.foldl (fun counts n => countNode n counts) counts)[i] =
      counts[i] + (ns.map Node.kind).count Kind.all[i] := by
  induction ns generalizing counts with
  | nil => rfl
  | cons n ns ih =>
    rw [List.foldl_cons, ih, getElem_countNode, List.map_cons, List.count_cons]
    -- Both sides ask whether `n` is of the kind that this place belongs to.
    simp only [beq_iff_eq, eq_comm (a := n.kind)]
    omega

/-- After the visit of all nodes each place holds the number of nodes of its kind. -/
theorem getElem_tally (p : Program) {i : Nat} (hi : i < Kind.all.length) :
    (tally p)[i] = countKind p Kind.all[i] := by
  have hvisit : tally p = (Node.program p).preorder.foldl (fun counts n => countNode n counts)
      (Vector.replicate Kind.all.length 0) := by
    rw [tally, Node.visit_eq_foldl, Node.preorder_eq_nodes]
  have hzero : (Vector.replicate Kind.all.length 0)[i] = 0 := Vector.getElem_replicate hi
  rw [countKind_eq, hvisit, getElem_foldl_countNode _ _ hi, hzero, Nat.zero_add, Node.kinds]

theorem zip_tally (p : Program) :
    Kind.all.zip (tally p).toList = Kind.all.map fun k => (k, countKind p k) := by
  -- Two rows of equal length are compared place by place.
  refine List.ext_getElem (by simp) fun i hi hi' => ?_
  have hlt : i < Kind.all.length := by simpa using hi'
  rw [List.getElem_zip, List.getElem_map, Vector.getElem_toList, getElem_tally p hlt]

theorem stats_eq_countKind (p : Program) :
    stats p = Text.joinLines (s!"nodes: {(Node.program p).count}" ::
      Kind.all.filterMap fun k =>
        if 0 < countKind p k then some s!"  {k.name}: {countKind p k}" else none) := by
  rw [stats, zip_tally, List.filterMap_map]
  rfl

/-- Each node has one kind. -/
theorem total_countKind (p : Program) :
    total (Kind.all.map (countKind p)) = (Node.program p).count := by
  calc
    total (Kind.all.map (countKind p))
        = total (Kind.all.map fun k => 1 * (Node.program p).kinds.count k) := by
          simp only [funext (countKind_eq p), Nat.one_mul]
    _ = total ((Node.program p).kinds.map fun _ => 1) := (Kind.total_map_eq _ _).symm
    _ = (Node.program p).count := by
          rw [Numeric.total_map_one, Node.kinds, List.length_map, Node.count]

end Report

/-! ## Counting by the typed parts -/

/-- A sum over the typed parts of a tree is the sum over the nodes of the walk. -/
theorem Node.weight_eq_total_preorder (f : Kind → Nat) (n : Node) :
    n.weight f = total (n.preorder.map fun m => f m.kind) := by
  induction n using Node.children_induction with
  | step n ih =>
    have hbelow : total (n.children.map (Node.weight f)) =
        total ((n.children.flatMap Node.preorder).map fun m => f m.kind) := by
      rw [List.map_flatMap, Numeric.total_flatMap, List.map_congr_left ih]
    rw [Node.weight_eq, Node.preorder_eq, List.map_cons, Numeric.total_cons, hbelow]

/-- The number of nodes of a kind in a program, by recursion on its typed parts. -/
def Program.nodesOf (p : Program) (k : Kind) : Nat := p.weight fun k' => if k' = k then 1 else 0

theorem Program.nodesOf_eq (p : Program) (k : Kind) : p.nodesOf k = Report.countKind p k := by
  calc
    p.nodesOf k
        = total ((Node.program p).kinds.map fun k' => if k' = k then 1 else 0) := by
          rw [Node.kinds, List.map_map]
          exact Node.weight_eq_total_preorder _ (.program p)
    _ = (Node.program p).kinds.count k := Numeric.total_map_eq_count k _
    _ = Report.countKind p k := (Report.countKind_eq p k).symm

namespace Report

/-- The report gives the number of all nodes, and then, in the fixed order of the kinds, the number
of nodes of each kind that occurs. It counts in a row of places that has one for each kind: every
kind has a place, it is the one printed under the name of the kind, and a node adds one there and
nowhere else. -/
theorem stats_counts_by_kind (p : Program) :
    stats p = Text.joinLines (s!"nodes: {total (Kind.all.map p.nodesOf)}" ::
        (Kind.all.filter fun k => 0 < p.nodesOf k).map fun k => s!"  {k.name}: {p.nodesOf k}") ∧
      (∀ k : Kind, k.rank < Kind.all.length ∧ Kind.all[k.rank]? = some k) ∧
      (∀ (n : Node) (counts : Vector Nat Kind.all.length) (i : Fin Kind.all.length),
        (countNode n counts)[i] = counts[i] + if Kind.all[i] = n.kind then 1 else 0) ∧
      ∀ i : Fin Kind.all.length, (tally p)[i] = p.nodesOf Kind.all[i] := by
  have hnumbers : p.nodesOf = countKind p := funext p.nodesOf_eq
  refine ⟨?_, fun k => ⟨k.rank_lt, k.getElem?_all_rank⟩, fun n counts i => ?_, fun i => ?_⟩
  · rw [stats_eq_countKind, hnumbers, total_countKind, ← List.filterMap_eq_map',
      List.filterMap_filter]
    simp
  · exact getElem_countNode n counts i.isLt
  · rw [hnumbers]
    exact getElem_tally p i.isLt

end Report

end PascalTree
