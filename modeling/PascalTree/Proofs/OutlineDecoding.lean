import Mathlib.Data.List.SplitBy
import PascalTree.Node.Outline
import PascalTree.Proofs.Literals

/-!
# OutlineDecoding — an outline determines its labels and their tree

A label may hold any characters, those of the markers too, so a line alone does not tell its level.
Read from the root down it does: below the first line, a block of a child starts exactly at a line
whose first character is a branch, and every other line of a block starts with another character.

* `LabelTree`: the ordered tree of the labels of a node and of all nodes below it;
* `LabelTree.draw`: the outline of such a tree; `Node.render_eq_draw`: there is no other;
* `Outline.blocks`: the blocks of the children, taken apart by `blocks_join`;
* `LabelTree.decode`: the tree of an outline, read back by `decode_draw`;
* `Text.lines`: the lines of a text; `Text.lines_joinLines`: joined lines are read back;
* `Text.joinLines_inj`: lines without line ends are determined by their text.
-/

namespace PascalTree

/-- An ordered tree of labels. -/
inductive LabelTree where
  | node (label : String) (children : List LabelTree)
  deriving Repr

/-! ## Taking the blocks of the children apart -/

namespace Outline

/-- Whether a line starts with the branch of a child. -/
def isFirst (line : String) : Bool := line.toList.head? == some '├' || line.toList.head? == some '└'

/-- A line without its leading group. -/
def unmark (line : String) : String := String.ofList (line.toList.drop 2)

/-- The blocks of the children in the lines below a node, without their markers. -/
def blocks (lines : List String) : List (List String) :=
  (lines.splitBy fun _ line => !isFirst line).map fun block => block.map unmark

theorem length_le_of_mem_blocks {lines block : List String} (h : block ∈ blocks lines) :
    block.length ≤ lines.length := by
  rcases List.mem_map.mp h with ⟨marked, hmarked, rfl⟩
  rw [List.length_map, ← List.flatten_splitBy (fun _ line => !isFirst line) lines]
  exact (List.sublist_flatten_of_mem hmarked).length_le

/-- The marked blocks of the children, before they are joined. -/
def marked : List (List String) → List (List String)
  | [] => []
  | [block] => [Marker.last.apply block]
  | block :: blocks => Marker.branch.apply block :: marked blocks

theorem join_eq (blocks : List (List String)) : join blocks = (marked blocks).flatten := by
  fun_induction marked blocks with
  | case1 => rfl
  | case2 block => rw [join, List.flatten_singleton]
  | case3 block blocks hblocks ih =>
    rw [join, ih, List.flatten_cons]
    exact hblocks

theorem mem_marked {blocks : List (List String)} {lines : List String} (h : lines ∈ marked blocks) :
    ∃ m, (m = .branch ∨ m = .last) ∧ ∃ block ∈ blocks, lines = Marker.apply m block := by
  fun_induction marked blocks with
  | case1 => cases h
  | case2 block =>
    rw [List.mem_singleton] at h
    exact ⟨.last, Or.inr rfl, block, List.mem_cons_self, h⟩
  | case3 block blocks hblocks ih =>
    rcases List.mem_cons.mp h with rfl | h
    · exact ⟨.branch, Or.inl rfl, block, List.mem_cons_self, rfl⟩
    · rcases ih h with ⟨m, hm, block', hblock', rfl⟩
      exact ⟨m, hm, block', List.mem_cons_of_mem block hblock', rfl⟩

section Markers

variable {m : Marker} (hm : m = .branch ∨ m = .last)
include hm

theorem isFirst_first (line : String) : isFirst (m.first ++ line) = true := by
  rcases hm with rfl | rfl <;> simp [isFirst, Marker.branch, Marker.last]

theorem isFirst_rest (line : String) : isFirst (m.rest ++ line) = false := by
  rcases hm with rfl | rfl <;> simp [isFirst, Marker.branch, Marker.last]

/-- Both groups of a marker have two characters. -/
theorem unmark_apply (block : List String) : (m.apply block).map unmark = block := by
  have hfirst (line : String) : unmark (m.first ++ line) = line := by
    rcases hm with rfl | rfl <;> simp [unmark, Marker.branch, Marker.last]
  have hrest (line : String) : unmark (m.rest ++ line) = line := by
    rcases hm with rfl | rfl <;> simp [unmark, Marker.branch, Marker.last]
  cases block with
  | nil => rfl
  | cons line lines => simp [Marker.apply, hfirst, Function.comp_def, hrest]

theorem newline_notMem_apply {block : List String} (h : ∀ line ∈ block, '\n' ∉ line.toList) :
    ∀ line ∈ m.apply block, '\n' ∉ line.toList := by
  have hgroups : '\n' ∉ m.first.toList ∧ '\n' ∉ m.rest.toList := by
    rcases hm with rfl | rfl <;> decide
  cases block with
  | nil => exact List.forall_mem_nil _
  | cons first rest =>
    rcases List.forall_mem_cons.mp h with ⟨hfirst, hrest⟩
    refine List.forall_mem_cons.mpr ⟨?_, List.forall_mem_map.mpr ?_⟩
    · simp [hgroups.1, hfirst]
    · intro line hline
      simp [hgroups.2, hrest line hline]

/-- No block ends inside a marked one. -/
theorem isChain_apply (block : List String) :
    (m.apply block).IsChain fun _ line => (!isFirst line) = true := by
  cases block with
  | nil => exact List.IsChain.nil
  | cons line lines =>
    have hrest : ∀ l ∈ lines.map (m.rest ++ ·), (!isFirst l) = true := by
      intro l hl
      rcases List.mem_map.mp hl with ⟨l', _, rfl⟩
      rw [isFirst_rest hm, Bool.not_false]
    refine List.Pairwise.isChain (List.pairwise_cons.mpr ⟨hrest, ?_⟩)
    exact List.pairwise_of_forall_mem_list fun _ _ l hl => hrest l hl

end Markers

theorem newline_notMem_join {blocks : List (List String)}
    (h : ∀ block ∈ blocks, ∀ line ∈ block, '\n' ∉ line.toList) :
    ∀ line ∈ join blocks, '\n' ∉ line.toList := by
  intro line hline
  rw [join_eq] at hline
  rcases List.mem_flatten.mp hline with ⟨lines, hlines, hline⟩
  rcases mem_marked hlines with ⟨m, hm, block, hblock, rfl⟩
  exact newline_notMem_apply hm (h block hblock) line hline

theorem map_unmark_marked (blocks : List (List String)) :
    (marked blocks).map (fun block => block.map unmark) = blocks := by
  fun_induction marked blocks with
  | case1 => rfl
  | case2 block => rw [List.map_singleton, unmark_apply (Or.inr rfl)]
  | case3 block blocks hblocks ih => rw [List.map_cons, unmark_apply (Or.inl rfl), ih]

/-- Joined blocks are taken apart again, whatever stands in their lines. -/
theorem blocks_join {blocks : List (List String)} (h : ∀ block ∈ blocks, block ≠ []) :
    Outline.blocks (join blocks) = blocks := by
  -- A marked block is not empty, and it starts with a branch.
  have hhead : ∀ lines ∈ marked blocks, ∃ hne : lines ≠ [], isFirst (lines.head hne) = true := by
    intro lines hlines
    rcases mem_marked hlines with ⟨m, hm, block, hblock, rfl⟩
    cases block with
    | nil => exact absurd rfl (h [] hblock)
    | cons line rest => exact ⟨List.cons_ne_nil _ _, isFirst_first hm line⟩
  have hsplit : (join blocks).splitBy (fun _ line => !isFirst line) = marked blocks := by
    rw [join_eq]
    refine List.splitBy_flatten ?_ ?_ ?_
    · intro hnil
      rcases hhead [] hnil with ⟨hne, _⟩
      exact hne rfl
    · intro lines hlines
      rcases mem_marked hlines with ⟨m, hm, block, _, rfl⟩
      exact isChain_apply hm block
    · refine (List.pairwise_of_forall_mem_list ?_).isChain
      intro before hbefore after hafter
      rcases hhead before hbefore with ⟨hbefore, _⟩
      rcases hhead after hafter with ⟨hafter, hfirst⟩
      exact ⟨hbefore, hafter, by rw [hfirst, Bool.not_true]⟩
  rw [Outline.blocks, hsplit, map_unmark_marked]

end Outline

/-! ## Outlines of label trees -/

namespace LabelTree

/-- The outline of a tree of labels. -/
def draw : LabelTree → List String
  | node label children => label :: Outline.join (children.attach.map fun ⟨c, _⟩ => c.draw)

theorem draw_node (label : String) (children : List LabelTree) :
    (node label children).draw = label :: Outline.join (children.map draw) := by
  rw [draw]
  simp

theorem draw_ne_nil (t : LabelTree) : t.draw ≠ [] := by
  cases t with
  | node label children =>
    rw [draw_node]
    exact List.cons_ne_nil _ _

/-- The tree of labels that an outline shows. -/
def decode : List String → LabelTree
  | [] => node "" []
  | label :: lines => node label ((Outline.blocks lines).attach.map fun ⟨block, _⟩ => decode block)
termination_by lines => lines.length
decreasing_by
  exact Nat.lt_succ_of_le (Outline.length_le_of_mem_blocks (by assumption))

theorem decode_cons (label : String) (lines : List String) :
    decode (label :: lines) = node label ((Outline.blocks lines).map decode) := by
  rw [decode]
  simp

theorem decode_draw : ∀ t : LabelTree, decode t.draw = t
  | node label children => by
    -- The blocks below the label are the outlines of the children, each with a line at least.
    have hne : ∀ block ∈ children.map draw, block ≠ [] :=
      List.forall_mem_map.mpr fun c _ => c.draw_ne_nil
    have hchildren : children.map (fun c => decode c.draw) = children := by
      have h : ∀ c ∈ children, decode c.draw = c := fun c _ => decode_draw c
      rw [List.map_congr_left h, List.map_id']
    rw [draw_node, decode_cons, Outline.blocks_join hne, List.map_map]
    exact congrArg (node label) hchildren

end LabelTree

namespace Node

/-- The labels of a node and of all nodes below it, as the tree they form. -/
def labelTree (n : Node) : LabelTree :=
  .node n.label (n.children.attach.map fun ⟨c, _⟩ => c.labelTree)
termination_by n.size
decreasing_by
  exact size_lt_of_mem_children (by assumption)

theorem labelTree_eq (n : Node) : n.labelTree = .node n.label (n.children.map labelTree) := by
  rw [labelTree]
  simp

theorem render_ne_nil (n : Node) : n.render ≠ [] := by
  rw [render_eq]
  exact List.cons_ne_nil _ _

/-- The labels are all that an outline shows of a tree. -/
theorem render_eq_draw (n : Node) : n.render = n.labelTree.draw := by
  induction n using children_induction with
  | step n ih =>
    have hchildren : n.children.map render = (n.children.map labelTree).map LabelTree.draw := by
      rw [List.map_map]
      exact List.map_congr_left ih
    rw [render_eq, labelTree_eq, LabelTree.draw_node, hchildren]

theorem decode_render (n : Node) : LabelTree.decode n.render = n.labelTree := by
  rw [render_eq_draw, LabelTree.decode_draw]

theorem render_eq_render_iff {a b : Node} : a.render = b.render ↔ a.labelTree = b.labelTree := by
  constructor
  · intro h
    rw [← decode_render a, h, decode_render]
  · intro h
    rw [render_eq_draw, h, render_eq_draw]

end Node

/-! ## Texts of outlines -/

namespace Text

/-- The parts of a text between its line ends. -/
def lines (text : String) : List String := (text.toList.splitOn '\n').map String.ofList

theorem lines_joinLines {ls : List String} (hne : ls ≠ [])
    (h : ∀ line ∈ ls, '\n' ∉ line.toList) : lines (joinLines ls) = ls := by
  have hne' : ls.map String.toList ≠ [] := fun hnil => hne (List.map_eq_nil_iff.mp hnil)
  rw [lines, joinLines, String.toList_ofList,
    List.splitOn_intercalate '\n' (List.forall_mem_map.mpr h) hne']
  simp [Function.comp_def]

/-- Lines without line ends are the parts of their text between its line ends. -/
theorem joinLines_inj {ls ls' : List String} (hne : ls ≠ []) (hne' : ls' ≠ [])
    (h : ∀ line ∈ ls, '\n' ∉ line.toList) (h' : ∀ line ∈ ls', '\n' ∉ line.toList) :
    joinLines ls = joinLines ls' ↔ ls = ls' := by
  constructor
  · intro heq
    rw [← lines_joinLines hne h, heq, lines_joinLines hne' h']
  · exact congrArg joinLines

end Text

namespace Node

/-- No name in a tree, of a variable or of a type, has a line end. -/
def OneLineNames (n : Node) : Prop :=
  (∀ i, .ident i ∈ n.preorder → '\n' ∉ i.name.toList) ∧
    ∀ s, .typeSpec s ∈ n.preorder → '\n' ∉ s.name.toList

/-- Only names can bring a line end into a label. -/
theorem newline_notMem_label {n m : Node} (hfaithful : ∀ l ∈ n.literals, l.Faithful)
    (hnames : n.OneLineNames) (hm : m ∈ n.preorder) : '\n' ∉ m.label.toList := by
  cases m with
  | literal l =>
    have hl : l.Faithful := hfaithful l (mem_literals.mpr hm)
    have htype : '\n' ∉ (" (" ++ l.type.name ++ ")").toList := by
      cases l.type <;> decide
    have hlabel : l.label = l.text ++ (" (" ++ l.type.name ++ ")") := by
      simp only [← String.append_assoc]
      rfl
    rw [label, hlabel, String.toList_append, List.mem_append]
    rintro (h | h)
    · exact hl.newline_notMem h
    · exact htype h
  | ident i => exact hnames.1 i hm
  | typeSpec s => exact hnames.2 s hm
  | binaryOp e => cases h : e.op <;> rw [label, h] <;> decide
  | _ => rw [label]; decide

theorem newline_notMem_render {n : Node} (h : ∀ m ∈ n.preorder, '\n' ∉ m.label.toList) :
    ∀ line ∈ n.render, '\n' ∉ line.toList := by
  induction n using children_induction with
  | step n ih =>
    have hblocks : ∀ block ∈ n.children.map render, ∀ line ∈ block, '\n' ∉ line.toList := by
      refine List.forall_mem_map.mpr ?_
      intro c hc
      exact ih c hc fun m hm => h m (mem_preorder_of_mem_children hc hm)
    rw [render_eq]
    exact List.forall_mem_cons.mpr ⟨h n n.mem_preorder_self, Outline.newline_notMem_join hblocks⟩

/-- Two outlines are the same exactly if the labels of their trees are, in the same tree. Where the
literals carry the values of their texts and no name breaks a line, the same holds of the texts of
the outlines. -/
theorem outline_determines_labels (a b : Node) :
    (a.render = b.render ↔ a.labelTree = b.labelTree) ∧
      ((∀ l ∈ a.literals, l.Faithful) → a.OneLineNames →
        (∀ l ∈ b.literals, l.Faithful) → b.OneLineNames →
        (a.dump = b.dump ↔ a.labelTree = b.labelTree)) := by
  refine ⟨render_eq_render_iff, ?_⟩
  intro ha hnames hb hnames'
  have hlines := newline_notMem_render fun m hm => newline_notMem_label ha hnames hm
  have hlines' := newline_notMem_render fun m hm => newline_notMem_label hb hnames' hm
  rw [← render_eq_render_iff]
  exact Text.joinLines_inj a.render_ne_nil b.render_ne_nil hlines hlines'

section MarkedAssign

/-- An assignment to a variable whose name starts like a marked line. -/
def markedAssign (value : Expr) : Node :=
  .assign { target := .ident { name := "└ x" }, value }

variable {value : Expr} (hvalue : value.toNode.children = [])
include hvalue

theorem preorder_markedAssign : (markedAssign value).preorder =
    [markedAssign value, .ident { name := "└ x" }, value.toNode] := by
  have hleaf : value.toNode.preorder = [value.toNode] := by
    rw [preorder_eq, hvalue, List.flatMap_nil]
  have hname : (Node.ident { name := "└ x" }).preorder = [.ident { name := "└ x" }] := by
    rw [preorder_eq, children, List.flatMap_nil]
  rw [preorder_eq]
  simp [markedAssign, children, AssignTarget.toNode, hleaf, hname]

theorem labelTree_markedAssign : (markedAssign value).labelTree =
    .node ":=" [.node "└ x" [], .node value.toNode.label []] := by
  have hleaf : value.toNode.labelTree = .node value.toNode.label [] := by
    rw [labelTree_eq, hvalue, List.map_nil]
  have hname : (Node.ident { name := "└ x" }).labelTree = .node "└ x" [] := by
    rw [labelTree_eq, children, List.map_nil, label]
  rw [labelTree_eq]
  simp [markedAssign, children, label, AssignTarget.toNode, hleaf, hname]

theorem literals_markedAssign : (markedAssign value).literals = value.toNode.literal?.toList := by
  have hleaf : value.toNode.literals = value.toNode.literal?.toList := by
    rw [literals_eq, hvalue, List.flatMap_nil, List.append_nil]
  have hname : (Node.ident { name := "└ x" }).literals = [] := literals_eq _
  rw [literals_eq]
  simp [markedAssign, children, literal?, AssignTarget.toNode, hleaf, hname]

end MarkedAssign

/-- A name may look like a literal's label, and then the outlines are the same. -/
theorem outline_determines_labels_markedAssign :
    let five := markedAssign (.literal ⟨"5", .integer 5, {}⟩)
    let named := markedAssign (.ident { name := "5 (int)" })
    let other := markedAssign (.ident { name := "├ 5 (int)" })
    (∀ l ∈ five.literals, l.Faithful) ∧ five.OneLineNames ∧
      (∀ l ∈ named.literals, l.Faithful) ∧ named.OneLineNames ∧
      (∀ l ∈ other.literals, l.Faithful) ∧ other.OneLineNames ∧
      five.dump = named.dump ∧ five.dump ≠ other.dump ∧ five.render ≠ other.render := by
  intro five named other
  have hfive : ∀ l ∈ five.literals, l.Faithful := by
    rw [literals_markedAssign rfl]
    exact List.forall_mem_singleton.mpr rfl
  have hnamed : ∀ l ∈ named.literals, l.Faithful := by
    rw [literals_markedAssign rfl]
    exact List.forall_mem_nil _
  have hother : ∀ l ∈ other.literals, l.Faithful := by
    rw [literals_markedAssign rfl]
    exact List.forall_mem_nil _
  have hfive' : five.OneLineNames := by
    rw [OneLineNames, preorder_markedAssign rfl]
    simp [Expr.toNode, markedAssign]
  have hnamed' : named.OneLineNames := by
    rw [OneLineNames, preorder_markedAssign rfl]
    simp [Expr.toNode, markedAssign]
  have hother' : other.OneLineNames := by
    rw [OneLineNames, preorder_markedAssign rfl]
    simp [Expr.toNode, markedAssign]
  have hsame : five.labelTree = named.labelTree := by
    rw [labelTree_markedAssign rfl, labelTree_markedAssign rfl]
    rfl
  have hdiffer : five.labelTree ≠ other.labelTree := by
    rw [labelTree_markedAssign rfl, labelTree_markedAssign rfl]
    intro h
    injection h with _ h
    injection h with _ h
    injection h with h
    injection h with h
    exact absurd h (by decide)
  refine ⟨hfive, hfive', hnamed, hnamed', hother, hother', ?_, ?_, ?_⟩
  · exact ((outline_determines_labels five named).2 hfive hfive' hnamed hnamed').mpr hsame
  · intro h
    exact hdiffer (((outline_determines_labels five other).2 hfive hfive' hother hother').mp h)
  · intro h
    exact hdiffer ((outline_determines_labels five other).1.mp h)

end Node

end PascalTree
