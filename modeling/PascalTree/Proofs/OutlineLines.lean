import PascalTree.Node.Outline
import PascalTree.Proofs.Preorder

/-!
# OutlineLines — each line of an outline from the path to its node

`Node.render` marks and joins whole blocks of lines. Here a single line is read off the path that
leads from the root to its node, a path being the list of the child indices on the way:

* `Node.descend?`: the node a path leads to;
* `Node.located`: all nodes with their paths, in pre-order;
* `Node.indent`: the groups before a label, one for each step of the path;
* `Node.render_eq_located`: the outline is the list of the located nodes, indented.
-/

namespace PascalTree
namespace Node

/-! ## Paths -/

/-- The node that a path leads to. -/
def descend? : Node → List Nat → Option Node
  | n, [] => some n
  | n, j :: path => (n.child? j).bind fun c => c.descend? path

/-- The located nodes of consecutive children, the first of which has the index `j`, with that
first step put before their paths. -/
def stepInto : Nat → List (List (List Nat × Node)) → List (List Nat × Node)
  | _, [] => []
  | j, block :: blocks => block.map (fun e => (j :: e.1, e.2)) ++ stepInto (j + 1) blocks

/-- All nodes of a tree with the paths that lead to them, in pre-order. -/
def located (n : Node) : List (List Nat × Node) :=
  ([], n) :: stepInto 0 (n.children.attach.map fun ⟨c, _⟩ => c.located)
termination_by n.size
decreasing_by
  exact size_lt_of_mem_children (by assumption)

theorem located_eq (n : Node) : n.located = ([], n) :: stepInto 0 (n.children.map located) := by
  rw [located]
  simp

theorem map_snd_stepInto (j : Nat) (blocks : List (List (List Nat × Node))) :
    (stepInto j blocks).map Prod.snd = blocks.flatMap fun block => block.map Prod.snd := by
  induction blocks generalizing j with
  | nil => rfl
  | cons block blocks ih =>
    simp [stepInto, ih, Function.comp_def]

/-- The located nodes are those of the walk, in the same order. -/
theorem map_snd_located (n : Node) : n.located.map Prod.snd = n.preorder := by
  induction n using children_induction with
  | step n ih =>
    have hblocks : (n.children.map located).flatMap (fun block => block.map Prod.snd) =
        n.children.flatMap preorder := by
      rw [List.flatMap_map, List.flatMap_def, List.flatMap_def, List.map_congr_left ih]
    rw [located_eq, preorder_eq, List.map_cons, map_snd_stepInto, hblocks]

theorem length_located (n : Node) : n.located.length = n.count := by
  rw [count, ← map_snd_located, List.length_map]

theorem mem_stepInto {j : Nat} {blocks : List (List (List Nat × Node))} {path : List Nat}
    {m : Node} :
    (path, m) ∈ stepInto j blocks ↔
      ∃ i block rest, blocks[i]? = some block ∧ (rest, m) ∈ block ∧ path = (j + i) :: rest := by
  induction blocks generalizing j with
  | nil => simp [stepInto]
  | cons block blocks ih =>
    simp only [stepInto, List.mem_append, List.mem_map, Prod.mk.injEq, Prod.exists, ih]
    constructor
    · rintro (⟨rest, _, hmem, rfl, rfl⟩ | ⟨i, block', rest, hget, hmem, rfl⟩)
      · exact ⟨0, block, rest, rfl, hmem, rfl⟩
      · exact ⟨i + 1, block', rest, hget, hmem, by rw [Nat.add_assoc, Nat.add_comm 1]⟩
    · rintro ⟨i, block', rest, hget, hmem, rfl⟩
      cases i with
      | zero =>
        cases hget
        exact Or.inl ⟨rest, m, hmem, rfl, rfl⟩
      | succ i =>
        exact Or.inr ⟨i, block', rest, hget, hmem, by rw [Nat.add_assoc, Nat.add_comm 1]⟩

/-- A node is located exactly by the paths that lead to it. -/
theorem mem_located_iff (n : Node) {path : List Nat} {m : Node} :
    (path, m) ∈ n.located ↔ n.descend? path = some m := by
  induction n using children_induction generalizing path with
  | step n ih =>
    rw [located_eq, List.mem_cons, mem_stepInto]
    cases path with
    | nil => simp [descend?, eq_comm]
    | cons j rest =>
      simp only [descend?, child?, Option.bind_eq_some_iff, Prod.mk.injEq, reduceCtorEq, false_and,
        false_or, Nat.zero_add, List.cons.injEq, List.getElem?_map, Option.map_eq_some_iff]
      constructor
      · rintro ⟨i, block, rest', ⟨c, hc, rfl⟩, hmem, rfl, rfl⟩
        exact ⟨c, hc, (ih c (List.mem_of_getElem? hc)).1 hmem⟩
      · rintro ⟨c, hc, hrest⟩
        exact ⟨j, c.located, rest, ⟨c, hc, rfl⟩, (ih c (List.mem_of_getElem? hc)).2 hrest, rfl, rfl⟩

/-! ## The order of paths -/

theorem pairwise_stepInto {j : Nat} {blocks : List (List (List Nat × Node))}
    (h : ∀ block ∈ blocks, (block.map Prod.fst).Pairwise (· < ·)) :
    ((stepInto j blocks).map Prod.fst).Pairwise (· < ·) := by
  induction blocks generalizing j with
  | nil => exact List.Pairwise.nil
  | cons block blocks ih =>
    have hblock : ((block.map Prod.fst).map (j :: ·)).Pairwise (· < ·) := by
      rw [List.pairwise_map]
      exact (h block List.mem_cons_self).imp fun hlt => List.cons_lt_cons_self.2 hlt
    have hblocks := @ih (j + 1) fun b hb => h b (List.mem_cons_of_mem block hb)
    have hmap : (block.map fun e => (j :: e.1, e.2)).map Prod.fst =
        (block.map Prod.fst).map (j :: ·) := by
      simp [Function.comp_def]
    rw [stepInto, List.map_append, hmap, List.pairwise_append]
    refine ⟨hblock, hblocks, ?_⟩
    -- Paths into different children differ in their first step.
    intro p hp q hq
    rcases List.mem_map.1 hp with ⟨p', _, rfl⟩
    rcases List.mem_map.1 hq with ⟨⟨q', m⟩, hmem, rfl⟩
    rcases mem_stepInto.1 hmem with ⟨i, _, rest, _, _, rfl⟩
    have hlt : j < j + 1 + i := Nat.lt_of_lt_of_le (Nat.lt_succ_self j) (Nat.le_add_right _ i)
    exact List.cons_lt_cons_iff.2 (Or.inl hlt)

/-- Pre-order is the lexicographic order of paths. -/
theorem pairwise_located (n : Node) : (n.located.map Prod.fst).Pairwise (· < ·) := by
  induction n using children_induction with
  | step n ih =>
    rw [located_eq, List.map_cons, List.pairwise_cons]
    constructor
    · intro p hp
      rcases List.mem_map.1 hp with ⟨⟨p', m⟩, hmem, rfl⟩
      rcases mem_stepInto.1 hmem with ⟨i, _, rest, _, _, rfl⟩
      exact List.nil_lt_cons _ _
    · apply pairwise_stepInto
      intro block hblock
      rcases List.mem_map.1 hblock with ⟨c, hc, rfl⟩
      exact ih c hc

/-! ## Indentation -/

/-- What stands before the label of the node that a path leads to: two characters for each step,
which tell whether the node entered by that step has later siblings. The last step has a branch of
its own; the steps before it only carry the lines of their siblings on. -/
def indent : Node → List Nat → String
  | _, [] => ""
  | n, [j] => if j + 1 < n.children.length then "├ " else "└ "
  | n, j :: k :: path =>
    (if j + 1 < n.children.length then "│ " else "  ") ++
      (match n.child? j with
      | some c => c.indent (k :: path)
      | none => "")

theorem length_indent {n m : Node} {path : List Nat} (h : n.descend? path = some m) :
    (n.indent path).length = 2 * path.length := by
  induction path generalizing n with
  | nil => rfl
  | cons j path ih =>
    simp only [descend?, Option.bind_eq_some_iff] at h
    rcases h with ⟨c, hc, hrest⟩
    cases path with
    | nil =>
      rw [indent]
      split <;> rfl
    | cons k path =>
      have hgroup : (if j + 1 < n.children.length then "│ " else "  ").length = 2 := by
        split <;> rfl
      rw [indent, hc, String.length_append, hgroup, ih hrest]
      simp only [List.length_cons]
      omega

/-- The marker of the child at an index. -/
def marker (n : Node) (j : Nat) : Outline.Marker :=
  if j + 1 < n.children.length then .branch else .last

theorem indent_singleton (n : Node) (j : Nat) : n.indent [j] = (n.marker j).first := by
  rw [indent, marker]
  split <;> rfl

theorem indent_cons {n c : Node} {j : Nat} (hc : n.child? j = some c) (k : Nat) (path : List Nat) :
    n.indent (j :: k :: path) = (n.marker j).rest ++ c.indent (k :: path) := by
  rw [indent, marker, hc]
  split <;> rfl

/-- The line of a located node below `n`. -/
def line (n : Node) (e : List Nat × Node) : String := n.indent e.1 ++ e.2.label

/-- The marked block of a child holds the lines of the nodes below it. -/
theorem apply_marker_render {n c : Node} {j : Nat} (hc : n.child? j = some c)
    (hrender : c.render = c.located.map c.line) :
    (n.marker j).apply c.render = (c.located.map fun e => (j :: e.1, e.2)).map n.line := by
  -- The root of the block takes the first group, all nodes below it the other one.
  have hbelow : ∀ e ∈ stepInto 0 (c.children.map located),
      (n.marker j).rest ++ c.line e = n.line (j :: e.1, e.2) := by
    rintro ⟨path, m⟩ he
    rcases mem_stepInto.1 he with ⟨i, _, rest, _, _, rfl⟩
    simp only [line, indent_cons hc, String.append_assoc]
  rw [hrender, located_eq]
  simp only [List.map_cons, Outline.Marker.apply, List.map_map]
  congr 1
  · rw [line, line, indent_singleton]
    rfl
  · exact List.map_congr_left hbelow

theorem join_render {n : Node} {before cs : List Node} (hn : n.children = before ++ cs)
    (hrender : ∀ c ∈ cs, c.render = c.located.map c.line) :
    Outline.join (cs.map render) =
      (stepInto before.length (cs.map located)).map n.line := by
  induction cs generalizing before with
  | nil => rfl
  | cons c cs ih =>
    have hc : n.child? before.length = some c := by simp [child?, hn]
    have hblock := apply_marker_render hc (hrender c List.mem_cons_self)
    have hn' : n.children = (before ++ [c]) ++ cs := by simp [hn]
    have hrest := ih hn' fun d hd => hrender d (List.mem_cons_of_mem c hd)
    simp only [List.length_append, List.length_singleton] at hrest
    -- The last child has a marker of its own, so the list is split once more.
    cases cs with
    | nil =>
      have hlast : n.marker before.length = .last := by simp [marker, hn]
      rw [hlast] at hblock
      simpa [Outline.join, stepInto] using hblock
    | cons d cs =>
      have hbranch : n.marker before.length = .branch := by simp [marker, hn]
      rw [hbranch] at hblock
      simp only [List.map_cons] at hrest ⊢
      rw [Outline.join, hblock, hrest, ← List.map_append, ← stepInto]
      simp

/-- The outline of a tree has one line for each located node: its label, indented. -/
theorem render_eq_located (n : Node) : n.render = n.located.map n.line := by
  induction n using children_induction with
  | step n ih =>
    have hjoin := join_render (List.nil_append n.children).symm ih
    rw [render_eq, hjoin, located_eq]
    simp [line, indent]

theorem length_render (n : Node) : n.render.length = n.count := by
  rw [render_eq_located, List.length_map, length_located]

/-- The outline has one line for each node of the walk. The line with the number `i` is the label
of the node with that number, indented as the path to that node tells, and the paths are all that
lead anywhere, in lexicographic order. -/
theorem outline_lines (n : Node) :
    n.render.length = n.count ∧
      (n.located.map Prod.fst).Pairwise (· < ·) ∧
      (∀ path m, (path, m) ∈ n.located ↔ n.descend? path = some m) ∧
      ∀ i : Fin n.count, ∃ path m,
        n.located[i.val]? = some (path, m) ∧
          n.nodeAt? i = some m ∧
          n.render[i.val]? = some (n.indent path ++ m.label) ∧
          (n.indent path).length = 2 * path.length := by
  refine ⟨?_, pairwise_located n, fun path m => mem_located_iff n, ?_⟩
  · rw [render_eq_located, List.length_map, length_located]
  · rintro ⟨i, hi⟩
    have hlt : i < n.located.length := by rwa [length_located]
    have hget : n.located[i]? = some n.located[i] := List.getElem?_eq_getElem hlt
    have hmem : (n.located[i].1, n.located[i].2) ∈ n.located := List.getElem_mem hlt
    refine ⟨n.located[i].1, n.located[i].2, hget, ?_, ?_, ?_⟩
    · rw [nodeAt?, ← map_snd_located, List.getElem?_map, hget]
      rfl
    · rw [render_eq_located, List.getElem?_map, hget]
      rfl
    · exact length_indent ((mem_located_iff n).1 hmem)

end Node
end PascalTree
