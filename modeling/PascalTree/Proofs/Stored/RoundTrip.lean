import PascalTree.Proofs.Preorder
import PascalTree.Proofs.Stored.Stores

/-!
# RoundTrip — stored trees are loaded back

A tree whose literals carry the values of their texts is loaded from its stored text exactly, as
long as no more brackets are open at a time than may be; otherwise loading fails for that reason
alone.

* `written_info`: what nodes carry, with everything equal to a default left out;
* `written_expr`, `written_stmt`, …: slots, given what stands in them;
* `written_node`: nodes of every kind, by induction over the tree;
* `load_of_reads`, `load_render`: loading the whole text of a document.
-/

namespace PascalTree
namespace Stored

open Json

/-! ## What nodes carry -/

theorem written_position (p : Position) : Written .position p p.toDocument := by
  apply written_record .position positionRecord rfl
  apply Recorded.optional rfl (by decide) fun n _ => .word32 n
  rw [← List.append_nil (numberMember _ p.row)]
  exact Recorded.optional rfl (by decide) (fun n _ => .word32 n) (.nil p)

theorem written_props (p : Props) : Written .props p p.toDocument := by
  apply written_record .props propsRecord rfl
  have hnote : Recorded Written [⟨"note", .optional .text, some none⟩] (Props.mk p.synthesized)
      (p.note.toList.map fun note => ("note", .text note)) p := by
    rw [← List.append_nil (p.note.toList.map _)]
    exact Recorded.optional rfl (by decide) (fun note _ => .text note) (.nil p)
  -- The mark is stored only if it is set.
  cases hsynthesized : p.synthesized with
  | true =>
    rw [hsynthesized] at hnote
    exact .present (.flag true) hnote
  | false =>
    rw [hsynthesized] at hnote
    exact .absent ⟨by decide, rfl⟩ hnote

theorem written_info (info : NodeInfo) : Written .info info info.toDocument :=
  written_record .info infoRecord rfl
    (.present (written_position info.pos) (.present (written_props info.props) (.nil info)))

/-- The last field of a node is left out if nothing is known about the node. -/
theorem Recorded.info {α : Type} {make : NodeInfo → α} (info : NodeInfo) :
    Recorded Written [infoField] make info.member (make info) := by
  by_cases hdefault : info = {}
  · subst hdefault
    exact .absent ⟨by decide, rfl⟩ (.nil _)
  · have hmember : info.member = [("meta", info.toDocument)] := by
      simp [NodeInfo.member, NodeInfo.isDefault, hdefault]
    rw [hmember]
    exact .present (written_info info) (.nil _)

theorem written_operator (op : Operator) : Written .operator op (.text op.tag) := by
  have hmem : Variant.bare op.tag op ∈ operatorVariants := by
    apply List.mem_map_of_mem
    cases op <;> decide
  exact @Written.bareVariant .operator operatorVariants op.tag op rfl hmem

/-! ## Slots -/

/-- The node is stored by its document. -/
def WrittenNode (n : Node) : Prop := Written (.tree (.node n.kind)) (ofNode n) n.toDocument

theorem written_expr {e : Expr} (h : WrittenNode e.toNode) :
    Written (.tree .expr) e e.toDocument := by
  cases e with
  | literal n => exact written_variant (.tree .expr) exprVariants rfl rfl h
  | ident n => exact written_variant (.tree .expr) exprVariants rfl rfl h
  | element n => exact written_variant (.tree .expr) exprVariants rfl rfl h
  | binary n => exact written_variant (.tree .expr) exprVariants rfl rfl h
  | call n => exact written_variant (.tree .expr) exprVariants rfl rfl h

theorem written_target {t : AssignTarget} (h : WrittenNode t.toNode) :
    Written (.tree .target) t t.toDocument := by
  cases t with
  | ident n => exact written_variant (.tree .target) targetVariants rfl rfl h
  | element n => exact written_variant (.tree .target) targetVariants rfl rfl h

theorem written_entry {e : VarEntry} (h : WrittenNode e.toNode) :
    Written (.tree .entry) e e.toDocument := by
  cases e with
  | var n => exact written_variant (.tree .entry) entryVariants rfl rfl h
  | array n => exact written_variant (.tree .entry) entryVariants rfl rfl h

theorem written_stmt {s : Stmt} (h : WrittenNode s.toNode) :
    Written (.tree .stmt) s s.toDocument := by
  cases s with
  | assign n => exact written_variant (.tree .stmt) stmtVariants rfl rfl h
  | call n => exact written_variant (.tree .stmt) stmtVariants rfl rfl h
  | ifThen n => exact written_variant (.tree .stmt) stmtVariants rfl rfl h
  | whileDo n => exact written_variant (.tree .stmt) stmtVariants rfl rfl h
  | forTo n => exact written_variant (.tree .stmt) stmtVariants rfl rfl h
  | list n => exact written_variant (.tree .stmt) stmtVariants rfl rfl h
  | body n => exact written_variant (.tree .stmt) stmtVariants rfl rfl h
  | procedure n => exact written_variant (.tree .stmt) stmtVariants rfl rfl h
  | function n => exact written_variant (.tree .stmt) stmtVariants rfl rfl h

/-! ## Nodes -/

/-- Every literal of the tree is the literal with its text. -/
def Resolved (n : Node) : Prop :=
  ∀ l, .literal l ∈ n.preorder → Literal.ofText l.text l.info = .ok l

theorem Resolved.child {n c : Node} (h : Resolved n) (hc : c ∈ n.children) : Resolved c :=
  fun l hl => h l (Node.mem_preorder_of_mem_children hc hl)

/-- A node is stored by its document if its children are. -/
theorem writtenNode_of_children {n : Node} (hn : Resolved n)
    (hchildren : ∀ c ∈ n.children, WrittenNode c) : WrittenNode n := by
  cases n with
  | literal n =>
    -- The value is not stored but resolved from the text again.
    have hmade : Literal.ofText n.text n.info = .ok n := hn n (Node.mem_preorder_self _)
    have hrecorded : Recorded Written literalRecord.fields literalRecord.make
        (("text", .text n.text) :: n.info.member) (.ok n) := by
      rw [← hmade]
      exact .present (.text n.text) (.info n.info)
    have hbuilds : (Ty.tree (.node .literal)).Builds literalRecord .ok := .checked rfl
    exact .record hbuilds (fun _ _ _ hpart => hpart) hrecorded
  | ident n =>
    exact written_record (.tree (.node .ident)) identRecord rfl
      (.present (.text n.name) (.info n.info))
  | typeSpec n =>
    exact written_record (.tree (.node .typeSpec)) typeSpecRecord rfl
      (.present (.text n.name) (.info n.info))
  | elementRef n =>
    obtain ⟨base, index, info⟩ := n
    have hbase := hchildren (.ident base) (by simp [Node.children])
    have hindex := hchildren index.toNode (by simp [Node.children])
    exact written_record (.tree (.node .elementRef)) elementRefRecord rfl
      (.present hbase (.present (written_expr hindex) (.info info)))
  | binaryOp n =>
    obtain ⟨op, left, right, info⟩ := n
    have hleft := hchildren left.toNode (by simp [Node.children])
    have hright := hchildren right.toNode (by simp [Node.children])
    exact written_record (.tree (.node .binaryOp)) binaryOpRecord rfl
      (.present (written_operator op)
        (.present (written_expr hleft) (.present (written_expr hright) (.info info))))
  | identList n =>
    have hidents : Written (.list (.tree (.node .ident))) n.idents
        (.array (n.idents.map Ident.toDocument)) :=
      .list fun i hi => hchildren (.ident i) (List.mem_map_of_mem hi)
    exact written_record (.tree (.node .identList)) identListRecord rfl
      (.present hidents (.info n.info))
  | varDecl n =>
    have hidents := hchildren (.identList n.idents) (by simp [Node.children])
    have htype := hchildren (.typeSpec n.type) (by simp [Node.children])
    exact written_record (.tree (.node .varDecl)) varDeclRecord rfl
      (.present hidents (.present htype (.info n.info)))
  | arrayDecl n =>
    -- The type is the first child but the last part of the record.
    have hname := hchildren (.ident n.name) (by simp [Node.children])
    have hlower := hchildren (.literal n.lower) (by simp [Node.children])
    have hupper := hchildren (.literal n.upper) (by simp [Node.children])
    have htype := hchildren (.typeSpec n.elemType) (by simp [Node.children])
    exact written_record (.tree (.node .arrayDecl)) arrayDeclRecord rfl
      (.present hname (.present hlower (.present hupper (.present htype (.info n.info)))))
  | varSection n =>
    have hentries : Written (.list (.tree .entry)) n.entries
        (.array (n.entries.map VarEntry.toDocument)) :=
      .list fun e he => written_entry (hchildren e.toNode (List.mem_map_of_mem he))
    exact written_record (.tree (.node .varSection)) varSectionRecord rfl
      (.present hentries (.info n.info))
  | call n =>
    obtain ⟨callee, args, info⟩ := n
    have hcallee := hchildren (.ident callee) (by simp [Node.children])
    have hargs : Written (.list (.tree .expr)) args (.array (Expr.toDocuments args)) := by
      rw [Expr.toDocuments_eq_map]
      exact .list fun e he => written_expr
        (hchildren e.toNode (List.mem_cons_of_mem _ (List.mem_map_of_mem he)))
    exact written_record (.tree (.node .call)) callRecord rfl
      (.present hcallee (.present hargs (.info info)))
  | assign n =>
    have htarget := hchildren n.target.toNode (by simp [Node.children])
    have hvalue := hchildren n.value.toNode (by simp [Node.children])
    exact written_record (.tree (.node .assign)) assignRecord rfl
      (.present (written_target htarget) (.present (written_expr hvalue) (.info n.info)))
  | ifStmt n =>
    obtain ⟨cond, thenBranch, elseBranch, info⟩ := n
    have hcond := hchildren cond.toNode (by simp [Node.children])
    have hthen := hchildren thenBranch.toNode (by simp [Node.children])
    have helse : Recorded Written [⟨"else_branch", .optional (.tree .stmt), some none⟩, infoField]
        (If.mk cond thenBranch) (Stmt.elseMember elseBranch ++ info.member)
        ⟨cond, thenBranch, elseBranch, info⟩ := by
      -- An absent branch is left out of the record, not stored as one.
      cases elseBranch with
      | none => exact .absent ⟨by decide, rfl⟩ (.info info)
      | some s =>
        have hs := hchildren s.toNode (by simp [Node.children])
        exact .present (.optional rfl (written_stmt hs)) (.info info)
    exact written_record (.tree (.node .ifStmt)) ifRecord rfl
      (.present (written_expr hcond) (.present (written_stmt hthen) helse))
  | whileStmt n =>
    obtain ⟨cond, body, info⟩ := n
    have hcond := hchildren cond.toNode (by simp [Node.children])
    have hbody := hchildren body.toNode (by simp [Node.children])
    exact written_record (.tree (.node .whileStmt)) whileRecord rfl
      (.present (written_expr hcond) (.present (written_stmt hbody) (.info info)))
  | forStmt n =>
    obtain ⟨init, bound, body, info⟩ := n
    have hinit := hchildren init.toNode (by simp [Node.children])
    have hbound := hchildren bound.toNode (by simp [Node.children])
    have hbody := hchildren body.toNode (by simp [Node.children])
    exact written_record (.tree (.node .forStmt)) forRecord rfl
      (.present (written_stmt hinit)
        (.present (written_expr hbound) (.present (written_stmt hbody) (.info info))))
  | stmtList n =>
    obtain ⟨stmts, info⟩ := n
    have hstmts : Written (.list (.tree .stmt)) stmts (.array (Stmt.toDocuments stmts)) := by
      rw [Stmt.toDocuments_eq_map]
      exact .list fun s hs => written_stmt (hchildren s.toNode (List.mem_map_of_mem hs))
    exact written_record (.tree (.node .stmtList)) stmtListRecord rfl
      (.present hstmts (.info info))
  | body n =>
    obtain ⟨list, info⟩ := n
    have hlist := hchildren (.stmtList list) (by simp [Node.children])
    exact written_record (.tree (.node .body)) bodyRecord rfl
      (.present hlist (.info info))
  | params n =>
    have hdecls : Written (.list (.tree (.node .varDecl))) n.decls
        (.array (n.decls.map VarDecl.toDocument)) :=
      .list fun d hd => hchildren (.varDecl d) (List.mem_map_of_mem hd)
    exact written_record (.tree (.node .params)) paramsRecord rfl
      (.present hdecls (.info n.info))
  | program n =>
    have hname := hchildren (.ident n.name) (by simp [Node.children])
    have hvars := hchildren (.varSection n.vars) (by simp [Node.children])
    have hbody := hchildren (.stmtList n.body) (by simp [Node.children])
    exact written_record (.tree (.node .program)) programRecord rfl
      (.present hname (.present hvars (.present hbody (.info n.info))))
  | procedureDecl n =>
    obtain ⟨name, params, vars, body, info⟩ := n
    have hname := hchildren (.ident name) (by simp [Node.children])
    have hparams := hchildren (.params params) (by simp [Node.children])
    have hvars := hchildren (.varSection vars) (by simp [Node.children])
    have hbody := hchildren (.stmtList body) (by simp [Node.children])
    exact written_record (.tree (.node .procedureDecl)) procedureDeclRecord rfl
      (.present hname (.present hparams (.present hvars (.present hbody (.info info)))))
  | functionDecl n =>
    obtain ⟨name, params, returnType, vars, body, info⟩ := n
    have hname := hchildren (.ident name) (by simp [Node.children])
    have hparams := hchildren (.params params) (by simp [Node.children])
    have htype := hchildren (.typeSpec returnType) (by simp [Node.children])
    have hvars := hchildren (.varSection vars) (by simp [Node.children])
    have hbody := hchildren (.stmtList body) (by simp [Node.children])
    exact written_record (.tree (.node .functionDecl)) functionDeclRecord rfl
      (.present hname
        (.present hparams (.present htype (.present hvars (.present hbody (.info info))))))

/-- Nodes of every kind are stored by their documents. -/
theorem written_node (n : Node) (hn : Resolved n) : WrittenNode n := by
  induction n using Node.children_induction with
  | step n ih => exact writtenNode_of_children hn fun c hc => ih c hc (hn.child hc)

/-- Trees of every type are stored by their documents. -/
theorem written_tree (t : TreeType) (x : t.Val) (hx : Resolved (t.toNode x)) :
    Written (.tree t) x (t.toDocument x) := by
  cases t with
  | node kind => cases kind <;> exact written_node _ hx
  | expr => exact written_expr (written_node _ hx)
  | stmt => exact written_stmt (written_node _ hx)
  | target => exact written_target (written_node _ hx)
  | entry => exact written_entry (written_node _ hx)

theorem stores_tree (t : TreeType) (x : t.Val) (hx : Resolved (t.toNode x)) :
    Stores (.tree t) x (t.toDocument x) :=
  (written_tree t x hx).stores

/-! ## Whole texts -/

theorem ends_readWhole {t : Ty} {result : Except Fault t.Val} {w : List Char}
    (h : Reads (readValue maxLevels t) w result) : (readWhole t w).Ends [] result := by
  have hread : (readValue maxLevels t w).Ends [] result := h w [] trivial (by rw [List.append_nil])
  have hbind : result.bind .ok = result := by
    cases result <;> rfl
  rw [← hbind]
  refine hread.bind fun value' s _ hs => ?_
  have hblank : skipBlanks s = [] := hs
  simp only [hblank]
  exact Outcome.ends_done

/-- A whole text is loaded with the outcome of reading it. -/
theorem load_of_reads_toList {t : Ty} {result : Except Fault t.Val} {source : String}
    (h : Reads (readValue maxLevels t) source.toList result) :
    (load t source).mapError LoadError.fault = result := by
  have hread := ends_readWhole h
  unfold load
  cases result with
  | ok value' =>
    rcases hread with ⟨s, heq, _⟩
    rw [heq]
    rfl
  | error fault =>
    rcases hread.cases_error with ⟨s, heq⟩ | ⟨mark, heq⟩
    · rw [heq]
      rfl
    · rw [heq]
      rfl

theorem load_of_reads {t : Ty} {result : Except Fault t.Val} {d : Document}
    (h : Reads (readValue maxLevels t) d.chars result) :
    (load t d.render).mapError LoadError.fault = result := by
  apply load_of_reads_toList
  rw [Document.render, String.toList_ofList]
  exact h

theorem load_render {t : Ty} {value : t.Val} {d : Document} (h : Stores t value d) :
    (load t d.render).mapError LoadError.fault = within maxLevels d.depth value :=
  load_of_reads (h maxLevels)

section MapError

variable {ε ε' α : Type} {x : Except ε α} {f : ε → ε'}

theorem eq_ok_of_mapError {y : α} (h : x.mapError f = .ok y) : x = .ok y := by
  cases x with
  | ok x =>
    cases h
    rfl
  | error e => cases h

theorem exists_error_of_mapError {e' : ε'} (h : x.mapError f = .error e') :
    ∃ e, x = .error e ∧ f e = e' := by
  cases x with
  | ok x => cases h
  | error e => exact ⟨e, rfl, Except.error.inj h⟩

end MapError

/-- A tree built with resolved literals is loaded back exactly from its stored text if at most 127
brackets are open in it at a time; if more are, loading fails for that reason and no other. -/
theorem loadTree_storeTree (t : TreeType) (x : t.Val) (hx : Resolved (t.toNode x)) :
    (nesting (storeTree t x) ≤ 127 → loadTree t (storeTree t x) = .ok x) ∧
      (128 ≤ nesting (storeTree t x) →
        ∃ e, loadTree t (storeTree t x) = .error e ∧ e.fault = .nestedTooDeep ∧
          e.fault.message = "recursion limit exceeded") := by
  have hload : (loadTree t (storeTree t x)).mapError LoadError.fault =
      within 127 (nesting (storeTree t x)) x := by
    rw [storeTree, nesting_render]
    exact load_render (stores_tree t x hx)
  constructor
  · intro hnesting
    rw [within, if_pos hnesting] at hload
    cases hresult : loadTree t (storeTree t x) with
    | ok y =>
      rw [hresult] at hload
      cases hload
      rfl
    | error e =>
      rw [hresult] at hload
      cases hload
  · intro hnesting
    rw [within, if_neg (Nat.not_le.mpr hnesting)] at hload
    cases hresult : loadTree t (storeTree t x) with
    | ok y =>
      rw [hresult] at hload
      cases hload
    | error e =>
      rw [hresult] at hload
      have hfault : e.fault = .nestedTooDeep := Except.error.inj hload
      exact ⟨e, rfl, hfault, by rw [hfault]; rfl⟩

/-- Statement lists nested in each other, around an assignment. -/
def nestedLists : Nat → StmtList
  | 0 =>
    ⟨[.assign ⟨.ident ⟨"größe", .located 1 9⟩, .literal ⟨"42", .integer 42, {}⟩, .synthesized⟩], {}⟩
  | n + 1 => ⟨[.list (nestedLists n)], {}⟩

theorem resolved_nestedLists (n : Nat) : Resolved (.stmtList (nestedLists n)) := by
  induction n with
  | zero =>
    intro l hl
    -- The tree has one literal, below the assignment.
    simp [nestedLists, Node.preorder_eq, Node.children, Stmt.toNode, AssignTarget.toNode,
      Expr.toNode] at hl
    subst hl
    rfl
  | succ n ih =>
    intro l hl
    rw [Node.preorder_eq] at hl
    exact ih l (by simpa [nestedLists, Node.children, Stmt.toNode] using hl)

theorem nesting_nestedLists (n : Nat) :
    nesting (storeTree (.node .stmtList) (nestedLists n)) = 3 * n + 8 := by
  rw [storeTree, nesting_render]
  change (nestedLists n).toDocument.depth = 3 * n + 8
  induction n with
  | zero => decide
  | succ n ih =>
    have hdocument : (nestedLists (n + 1)).toDocument =
        .object [("stmts", .array [slotDocument "List" (nestedLists n).toDocument])] := rfl
    rw [hdocument, slotDocument]
    simp only [Document.depth_object, Document.depth_array, List.map_cons, List.map_nil,
      List.foldr_cons, List.foldr_nil, Nat.max_zero, ih]
    omega

theorem loadTree_storeTree_nestedLists :
    loadTree (.node .stmtList) (storeTree (.node .stmtList) (nestedLists 39)) =
        .ok (nestedLists 39) ∧
      ∃ e, loadTree (.node .stmtList) (storeTree (.node .stmtList) (nestedLists 40)) = .error e ∧
        e.fault = .nestedTooDeep ∧ e.fault.message = "recursion limit exceeded" := by
  constructor
  · apply (loadTree_storeTree (.node .stmtList) (nestedLists 39) (resolved_nestedLists 39)).1
    rw [nesting_nestedLists]
    decide
  · apply (loadTree_storeTree (.node .stmtList) (nestedLists 40) (resolved_nestedLists 40)).2
    exact Nat.le_of_eq (nesting_nestedLists 40).symm

end Stored
end PascalTree
