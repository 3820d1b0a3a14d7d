import PascalTree.Proofs.Literals
import PascalTree.Proofs.MapLiterals
import PascalTree.Proofs.Stored.RoundTrip

/-!
# FirstRefusal — which literal of a stored tree is refused

A literal is stored by its text alone, so a stored tree may hold literals whose texts resolve to
nothing. Loading resolves every text again. If all of them resolve, the tree is loaded with the
values they resolve to; if not, loading ends with the refusal of the first one that does not, and
the first one in the text is the first one in pre-order.

* `verdict`: what the literals of a document, in the order of the text, let reading end with;
* `Loads`: how a document is read that holds given literals;
* `Held`, `loads_record`: the members of a record, and the literals in them;
* `loads_node`: nodes of every kind, by induction over the tree.
-/

namespace PascalTree

namespace Literal

/-- The text of the literal has a value. -/
def Resolves (l : Literal) : Prop := ∃ value, resolve l.text = .ok value

/-- The literal with the value of its text, if the text has one. -/
@[irreducible]
def refreshed (l : Literal) : Literal :=
  match resolve l.text with
  | .ok value => { l with value }
  | .error _ => l

theorem resolve_text_of_resolves {l : Literal} (h : l.Resolves) :
    resolve l.text = .ok l.refreshed.value := by
  rcases h with ⟨value, hvalue⟩
  simp only [refreshed, hvalue]

/-- Why the literal is refused when its text is resolved, if it is. -/
def refusal? (l : Literal) : Option BuildError :=
  match resolve l.text with
  | .ok _ => none
  | .error error => some error

theorem refusal?_eq_none {l : Literal} : l.refusal? = none ↔ l.Resolves := by
  unfold refusal? Resolves
  cases resolve l.text <;> simp

/-- A literal is refused for its text. -/
theorem refusal?_of_not_resolves {l : Literal} (h : ¬ l.Resolves) :
    l.refusal? = some (.malformedLiteral l.text) := by
  unfold refusal?
  cases hresolve : resolve l.text with
  | ok value => exact absurd ⟨value, hresolve⟩ h
  | error error => rw [Grammar.resolve_eq_error hresolve]

end Literal

namespace Stored

open Json

variable {α ι : Type}

/-! ## Verdicts -/

/-- What reading ends with where the given literals are resolved in turn: the value, or the refusal
of the first of them that is refused. -/
def verdict (ls : List Literal) (value : α) : Except Fault α :=
  match ls.findSome? Literal.refusal? with
  | none => .ok value
  | some error => .error (.refused error)

theorem map_verdict {β : Type} (ls : List Literal) (value : α) (f : α → β) :
    (verdict ls value).map f = verdict ls (f value) := by
  unfold verdict
  cases ls.findSome? Literal.refusal? <;> rfl

/-- The literals behind a refused one do not matter. -/
theorem verdict_append (ls ls' : List Literal) (value : α) :
    verdict (ls ++ ls') value = (verdict ls ()).bind fun _ => verdict ls' value := by
  unfold verdict
  rw [List.findSome?_append]
  cases ls.findSome? Literal.refusal? <;> rfl

theorem verdict_eq_ok {ls : List Literal} (h : ∀ l ∈ ls, l.Resolves) (value : α) :
    verdict ls value = .ok value := by
  have hnone : ls.findSome? Literal.refusal? = none :=
    List.findSome?_eq_none_iff.mpr fun l hl => Literal.refusal?_eq_none.mpr (h l hl)
  rw [verdict, hnone]

theorem verdict_eq_error {before after : List Literal} {l : Literal}
    (hbefore : ∀ l' ∈ before, l'.Resolves) (hl : ¬ l.Resolves) (value : α) :
    verdict (before ++ l :: after) value = .error (.refused (.malformedLiteral l.text)) := by
  have hrest : verdict (l :: after) value = .error (.refused (.malformedLiteral l.text)) := by
    rw [verdict, List.findSome?_cons, Literal.refusal?_of_not_resolves hl]
  rw [verdict_append, verdict_eq_ok hbefore]
  exact hrest

/-- Of several parts, the first one with a refused literal gives the fault. -/
theorem mapM_verdict (literals : ι → List Literal) (value : ι → α) (items : List ι) :
    items.mapM (fun i => verdict (literals i) (value i)) =
      verdict (items.flatMap literals) (items.map value) := by
  induction items with
  | nil => rfl
  | cons i items ih =>
    have hhead : verdict (literals i) (value i) = (verdict (literals i) ()).map fun _ => value i :=
      (map_verdict (literals i) () fun _ => value i).symm
    rw [List.mapM_cons, ih, hhead, List.flatMap_cons, verdict_append, List.map_cons]
    cases verdict (literals i) () with
    | error fault => rfl
    | ok _ => exact map_verdict (items.flatMap literals) (items.map value) (value i :: ·)

/-! ## Documents and their literals -/

/-- The document holds the given literals, in the order of its text. With enough levels it is read
as the value, unless one of the literals is refused. -/
def Loads (t : Ty) (d : Document) (ls : List Literal) (value : t.Val) : Prop :=
  ∀ levels, d.depth ≤ levels → Reads (readValue levels t) d.chars (verdict ls value)

/-- What is stored without a literal is read in any case. -/
theorem Stores.loads {t : Ty} {value : t.Val} {d : Document} (h : Stores t value d) :
    Loads t d [] value := by
  intro levels hdepth
  have hread := h levels
  rw [within, if_pos hdepth] at hread
  exact hread

theorem loads_optional {t : Ty} {d : Document} {ls : List Literal} {value : t.Val}
    (h : Loads t d ls value) : Loads (.optional t) d ls (some value) := by
  intro levels hdepth
  have hread := h levels hdepth
  rw [readValue_eq] at hread ⊢
  rcases skipBlanks_chars d with ⟨c, w, hchars, _, hnull⟩
  rw [← map_verdict]
  exact reads_optional hchars hnull hread

theorem loads_list (t : Ty) {items : List ι} {document : ι → Document}
    {literals : ι → List Literal} {value : ι → t.Val}
    (h : ∀ i ∈ items, Loads t (document i) (literals i) (value i)) :
    Loads (.list t) (.array (items.map document)) (items.flatMap literals) (items.map value) := by
  intro levels hdepth
  cases levels with
  | zero =>
    -- The bracket of the list itself takes a level.
    rw [Document.depth_array] at hdepth
    cases hdepth
  | succ levels =>
    have hitems : ∀ i ∈ items, (document i).depth ≤ levels :=
      List.forall_mem_map.mp (Document.depth_array_le_iff.mp hdepth)
    rw [Document.chars_array, List.map_map, ← mapM_verdict]
    exact reads_list blanks_nil (fun i _ => begins_chars (document i))
      fun i hi => h i hi levels (hitems i hi)

/-! ## Records -/

/-- Members that give the fields of a record in their order, and the literals in them. -/
inductive Held :
    (fs : List Field) → Maker α fs → List (String × Document) → List Literal → α → Prop where
  | nil (value : α) : Held [] value [] [] value
  | present {f : Field} {fs : List Field} {make : Maker α (f :: fs)} {value : f.type.Val}
      {d : Document} {members : List (String × Document)} {ls ls' : List Literal} {made : α}
      (part : Loads f.type d ls value) (rest : Held fs (make value) members ls' made) :
      Held (f :: fs) make ((f.name, d) :: members) (ls ++ ls') made
  | absent {f : Field} {fs : List Field} {make : Maker α (f :: fs)} {value : f.type.Val}
      {members : List (String × Document)} {ls : List Literal} {made : α}
      (default : f.default? = some value) (rest : Held fs (make value) members ls made) :
      Held (f :: fs) make members ls made

namespace Held

variable {fs : List Field} {make : Maker α fs} {members : List (String × Document)}
  {ls : List Literal} {made : α}

theorem keys (h : Held fs make members ls made) : ∀ m ∈ members, m.1 ∈ fs.map Field.name := by
  induction h with
  | nil value => exact List.forall_mem_nil _
  | present part rest ih =>
    refine List.forall_mem_cons.mpr ⟨List.mem_cons_self, ?_⟩
    exact fun m hm => List.mem_cons_of_mem _ (ih m hm)
  | absent default rest ih => exact fun m hm => List.mem_cons_of_mem _ (ih m hm)

/-- The members are read up to the first one with a refused literal. -/
theorem parts (h : Held fs make members ls made) {levels : Nat}
    (hdepth : ∀ m ∈ members, m.2.depth ≤ levels) :
    Parts (readValue levels) fs make (members.map fun m => (m.1, m.2.chars)) (verdict ls made) := by
  induction h with
  | nil value => exact .nil value
  | @present f fs make value d members ls ls' made part rest ih =>
    rcases List.forall_mem_cons.mp hdepth with ⟨hd, hmembers⟩
    have hpart := part levels hd
    rw [verdict_append, List.map_cons]
    rw [← map_verdict ls () fun _ => value] at hpart
    cases hverdict : verdict ls () with
    | ok _ =>
      rw [hverdict] at hpart
      exact .present hpart (ih hmembers)
    | error fault =>
      -- What stands behind a refused literal is not looked at.
      rw [hverdict] at hpart
      exact .stuck hpart (List.forall_mem_map.mpr fun m hm => rest.keys m hm)
  | absent default rest ih => exact .absent default (ih hdepth)

theorem reads {r : Record α} (h : Held r.fields r.make members ls made)
    (hnames : (r.fields.map Field.name).Nodup) {levels : Nat}
    (hdepth : (Document.object members).depth ≤ levels) :
    Reads (readRecord (nestedAt levels) r) (Document.object members).chars (verdict ls made) := by
  cases levels with
  | zero =>
    rw [Document.depth_object] at hdepth
    cases hdepth
  | succ levels =>
    rw [chars_object_eq]
    exact reads_record_parts (h.parts (Document.depth_object_le_iff.mp hdepth)) hnames

/-- Members that stand for their fields in any case hold no literal. -/
theorem of_recorded (h : Recorded Written fs make members made) (hfields : ∀ f ∈ fs, f.Conforms) :
    Held fs make members [] made := by
  induction h with
  | nil value => exact .nil value
  | present part rest ih =>
    have hheld := Held.present part.stores.loads (ih (List.forall_mem_cons.mp hfields).2)
    exact hheld
  | absent omitted rest ih =>
    rcases List.forall_mem_cons.mp hfields with ⟨hf, hrest⟩
    exact .absent (hf.default? omitted) (ih hrest)

/-- The last field of a node holds no literal. -/
theorem info {make : NodeInfo → α} (info : NodeInfo) :
    Held [infoField] make info.member [] (make info) :=
  of_recorded (Recorded.info info) (conforms_cons rfl conforms_nil)

end Held

theorem loads_record (t : Ty) (r : Record t.Val) {members : List (String × Document)}
    {ls ls' : List Literal} {value : t.Val} (ht : ∀ nested, readWith nested t = readRecord nested r)
    (hnames : (r.fields.map Field.name).Nodup) (h : Held r.fields r.make members ls value)
    (hls : ls = ls') : Loads t (.object members) ls' value := by
  intro levels hdepth
  rw [readValue_eq, ht, ← hls]
  exact h.reads hnames hdepth

theorem mapError_ofText (l : Literal) :
    (Literal.ofText l.text l.info).mapError Fault.refused = verdict [l] l.refreshed := by
  unfold verdict Literal.ofText Literal.refreshed
  cases hresolve : resolve l.text <;> simp [Literal.refusal?, hresolve, Except.map, Except.mapError]

/-- A literal is resolved behind its record, which holds its text and nothing to be resolved. -/
theorem loads_literal (l : Literal) :
    Loads (.tree (.node .literal)) l.toDocument [l] l.refreshed := by
  intro levels hdepth
  have hheld : Held literalRecord.fields literalRecord.make
      (("text", .text l.text) :: l.info.member) ([] ++ []) (Literal.ofText l.text l.info) :=
    .present (stores_text l.text).loads (.info l.info)
  have hread := reads_checked (hheld.reads (by decide) hdepth)
  rw [readValue_eq, ← mapError_ofText]
  exact hread

/-! ## Enumerations -/

theorem loads_variant (t : Ty) (variants : List (Variant t.Val)) {content : Ty} {name : String}
    {make : content.Val → t.Val} {d : Document} {ls : List Literal} {value : content.Val}
    (ht : ∀ nested, readWith nested t = readChoice nested variants)
    (hfind : variants.find? (fun v => v.name == name) = some (.carrying name content make))
    (h : Loads content d ls value) : Loads t (slotDocument name d) ls (make value) := by
  intro levels hdepth
  rw [readValue_eq, ht]
  rw [slotDocument] at hdepth ⊢
  cases levels with
  | zero =>
    rw [Document.depth_object] at hdepth
    cases hdepth
  | succ levels =>
    have hcontent : d.depth ≤ levels :=
      Document.depth_object_le_iff.mp hdepth (name, d) List.mem_cons_self
    rw [chars_object_eq, ← map_verdict]
    exact reads_variant hfind (writes_compactMember (name, d.chars)) (h levels hcontent)

/-! ## Slots -/

/-- The node is read back with its literals resolved again, in pre-order. -/
def LoadsNode (n : Node) : Prop :=
  Loads (.tree (.node n.kind)) n.toDocument n.literals
    (TreeType.mapLiterals Literal.refreshed (.node n.kind) (ofNode n))

theorem loads_expr {e : Expr} (h : LoadsNode e.toNode) :
    Loads (.tree .expr) e.toDocument e.toNode.literals (e.mapLiterals Literal.refreshed) := by
  cases e with
  | literal n => exact loads_variant (.tree .expr) exprVariants (fun _ => rfl) rfl h
  | ident n => exact loads_variant (.tree .expr) exprVariants (fun _ => rfl) rfl h
  | element n => exact loads_variant (.tree .expr) exprVariants (fun _ => rfl) rfl h
  | binary n => exact loads_variant (.tree .expr) exprVariants (fun _ => rfl) rfl h
  | call n => exact loads_variant (.tree .expr) exprVariants (fun _ => rfl) rfl h

theorem loads_target {t : AssignTarget} (h : LoadsNode t.toNode) :
    Loads (.tree .target) t.toDocument t.toNode.literals (t.mapLiterals Literal.refreshed) := by
  cases t with
  | ident n => exact loads_variant (.tree .target) targetVariants (fun _ => rfl) rfl h
  | element n => exact loads_variant (.tree .target) targetVariants (fun _ => rfl) rfl h

theorem loads_entry {e : VarEntry} (h : LoadsNode e.toNode) :
    Loads (.tree .entry) e.toDocument e.toNode.literals (e.mapLiterals Literal.refreshed) := by
  cases e with
  | var n => exact loads_variant (.tree .entry) entryVariants (fun _ => rfl) rfl h
  | array n => exact loads_variant (.tree .entry) entryVariants (fun _ => rfl) rfl h

theorem loads_stmt {s : Stmt} (h : LoadsNode s.toNode) :
    Loads (.tree .stmt) s.toDocument s.toNode.literals (s.mapLiterals Literal.refreshed) := by
  cases s with
  | assign n => exact loads_variant (.tree .stmt) stmtVariants (fun _ => rfl) rfl h
  | call n => exact loads_variant (.tree .stmt) stmtVariants (fun _ => rfl) rfl h
  | ifThen n => exact loads_variant (.tree .stmt) stmtVariants (fun _ => rfl) rfl h
  | whileDo n => exact loads_variant (.tree .stmt) stmtVariants (fun _ => rfl) rfl h
  | forTo n => exact loads_variant (.tree .stmt) stmtVariants (fun _ => rfl) rfl h
  | list n => exact loads_variant (.tree .stmt) stmtVariants (fun _ => rfl) rfl h
  | body n => exact loads_variant (.tree .stmt) stmtVariants (fun _ => rfl) rfl h
  | procedure n => exact loads_variant (.tree .stmt) stmtVariants (fun _ => rfl) rfl h
  | function n => exact loads_variant (.tree .stmt) stmtVariants (fun _ => rfl) rfl h

/-! ## Nodes -/

/-- The literals of a node whose children are the items of a list. -/
theorem literals_of_items {n : Node} {items : List ι} {toNode : ι → Node} (hn : n.literal? = none)
    (hchildren : n.children = items.map toNode) :
    (items.flatMap fun i => (toNode i).literals) ++ [] = n.literals := by
  rw [Node.literals_eq n, hn, hchildren, List.flatMap_map, List.append_nil]
  rfl

/-- A node is read back with its literals resolved again if its children are. -/
theorem loadsNode_of_children {n : Node} (hchildren : ∀ c ∈ n.children, LoadsNode c) :
    LoadsNode n := by
  have hliterals := Node.literals_eq n
  unfold LoadsNode
  cases n with
  | literal l =>
    rw [hliterals]
    exact loads_literal l
  | ident n =>
    exact loads_record (.tree (.node .ident)) identRecord (fun _ => rfl) (by decide)
      (.present (stores_text n.name).loads (.info n.info)) hliterals.symm
  | typeSpec n =>
    exact loads_record (.tree (.node .typeSpec)) typeSpecRecord (fun _ => rfl) (by decide)
      (.present (stores_text n.name).loads (.info n.info)) hliterals.symm
  | elementRef n =>
    -- The record has the parts in the order of the children, and so the literals.
    obtain ⟨base, index, info⟩ := n
    have hbase := hchildren (.ident base) (by simp [Node.children])
    have hindex := hchildren index.toNode (by simp [Node.children])
    exact loads_record (.tree (.node .elementRef)) elementRefRecord (fun _ => rfl) (by decide)
      (.present hbase (.present (loads_expr hindex) (.info info))) hliterals.symm
  | binaryOp n =>
    obtain ⟨op, left, right, info⟩ := n
    have hleft := hchildren left.toNode (by simp [Node.children])
    have hright := hchildren right.toNode (by simp [Node.children])
    exact loads_record (.tree (.node .binaryOp)) binaryOpRecord (fun _ => rfl) (by decide)
      (.present (written_operator op).stores.loads
        (.present (loads_expr hleft) (.present (loads_expr hright) (.info info)))) hliterals.symm
  | identList n =>
    have hidents : Loads (.list (.tree (.node .ident))) (.array (n.idents.map Ident.toDocument))
        (n.idents.flatMap fun i => (Node.ident i).literals) (n.idents.map id) :=
      loads_list _ fun i hi => hchildren (.ident i) (List.mem_map_of_mem hi)
    rw [List.map_id] at hidents
    exact loads_record (.tree (.node .identList)) identListRecord (fun _ => rfl) (by decide)
      (.present hidents (.info n.info)) (literals_of_items rfl rfl)
  | varDecl n =>
    have hidents := hchildren (.identList n.idents) (by simp [Node.children])
    have htype := hchildren (.typeSpec n.type) (by simp [Node.children])
    exact loads_record (.tree (.node .varDecl)) varDeclRecord (fun _ => rfl) (by decide)
      (.present hidents (.present htype (.info n.info))) hliterals.symm
  | arrayDecl n =>
    have hname := hchildren (.ident n.name) (by simp [Node.children])
    have hlower := hchildren (.literal n.lower) (by simp [Node.children])
    have hupper := hchildren (.literal n.upper) (by simp [Node.children])
    have htype := hchildren (.typeSpec n.elemType) (by simp [Node.children])
    refine loads_record (.tree (.node .arrayDecl)) arrayDeclRecord (fun _ => rfl) (by decide)
      (.present hname (.present hlower (.present hupper (.present htype (.info n.info))))) ?_
    -- The type is the first child but the last part of the record; it has no literals.
    have htypeLiterals : (Node.typeSpec n.elemType).literals = [] := Node.literals_eq _
    rw [hliterals]
    simp [Node.children, Node.literal?, htypeLiterals]
  | varSection n =>
    have hentries : Loads (.list (.tree .entry)) (.array (n.entries.map VarEntry.toDocument))
        (n.entries.flatMap fun e => e.toNode.literals)
        (n.entries.map (VarEntry.mapLiterals Literal.refreshed)) :=
      loads_list _ fun e he => loads_entry (hchildren e.toNode (List.mem_map_of_mem he))
    exact loads_record (.tree (.node .varSection)) varSectionRecord (fun _ => rfl) (by decide)
      (.present hentries (.info n.info)) (literals_of_items rfl rfl)
  | call n =>
    obtain ⟨callee, args, info⟩ := n
    have hcallee := hchildren (.ident callee) (by simp [Node.children])
    have hargs : Loads (.list (.tree .expr)) (.array (Expr.toDocuments args))
        (args.flatMap fun e => e.toNode.literals) (Expr.mapLiteralsAll Literal.refreshed args) := by
      rw [Expr.toDocuments_eq_map, Expr.mapLiteralsAll_eq_map]
      exact loads_list _ fun e he => loads_expr
        (hchildren e.toNode (List.mem_cons_of_mem _ (List.mem_map_of_mem he)))
    refine loads_record (.tree (.node .call)) callRecord (fun _ => rfl) (by decide)
      (.present hcallee (.present hargs (.info info))) ?_
    rw [hliterals, Node.children, List.flatMap_cons, List.flatMap_map, List.append_nil]
    rfl
  | assign n =>
    have htarget := hchildren n.target.toNode (by simp [Node.children])
    have hvalue := hchildren n.value.toNode (by simp [Node.children])
    exact loads_record (.tree (.node .assign)) assignRecord (fun _ => rfl) (by decide)
      (.present (loads_target htarget) (.present (loads_expr hvalue) (.info n.info)))
      hliterals.symm
  | ifStmt n =>
    obtain ⟨cond, thenBranch, elseBranch, info⟩ := n
    have hcond := hchildren cond.toNode (by simp [Node.children])
    have hthen := hchildren thenBranch.toNode (by simp [Node.children])
    -- An absent branch is neither a child nor a member.
    cases elseBranch with
    | none =>
      exact loads_record (.tree (.node .ifStmt)) ifRecord (fun _ => rfl) (by decide)
        (.present (loads_expr hcond) (.present (loads_stmt hthen) (.absent rfl (.info info))))
        hliterals.symm
    | some s =>
      have hs := hchildren s.toNode (by simp [Node.children])
      exact loads_record (.tree (.node .ifStmt)) ifRecord (fun _ => rfl) (by decide)
        (.present (loads_expr hcond) (.present (loads_stmt hthen)
          (.present (loads_optional (loads_stmt hs)) (.info info)))) hliterals.symm
  | whileStmt n =>
    obtain ⟨cond, body, info⟩ := n
    have hcond := hchildren cond.toNode (by simp [Node.children])
    have hbody := hchildren body.toNode (by simp [Node.children])
    exact loads_record (.tree (.node .whileStmt)) whileRecord (fun _ => rfl) (by decide)
      (.present (loads_expr hcond) (.present (loads_stmt hbody) (.info info))) hliterals.symm
  | forStmt n =>
    obtain ⟨init, bound, body, info⟩ := n
    have hinit := hchildren init.toNode (by simp [Node.children])
    have hbound := hchildren bound.toNode (by simp [Node.children])
    have hbody := hchildren body.toNode (by simp [Node.children])
    exact loads_record (.tree (.node .forStmt)) forRecord (fun _ => rfl) (by decide)
      (.present (loads_stmt hinit)
        (.present (loads_expr hbound) (.present (loads_stmt hbody) (.info info)))) hliterals.symm
  | stmtList n =>
    obtain ⟨stmts, info⟩ := n
    have hstmts : Loads (.list (.tree .stmt)) (.array (Stmt.toDocuments stmts))
        (stmts.flatMap fun s => s.toNode.literals)
        (Stmt.mapLiteralsAll Literal.refreshed stmts) := by
      rw [Stmt.toDocuments_eq_map, Stmt.mapLiteralsAll_eq_map]
      exact loads_list _ fun s hs => loads_stmt (hchildren s.toNode (List.mem_map_of_mem hs))
    exact loads_record (.tree (.node .stmtList)) stmtListRecord (fun _ => rfl) (by decide)
      (.present hstmts (.info info)) (literals_of_items rfl rfl)
  | body n =>
    obtain ⟨list, info⟩ := n
    have hlist := hchildren (.stmtList list) (by simp [Node.children])
    exact loads_record (.tree (.node .body)) bodyRecord (fun _ => rfl) (by decide)
      (.present hlist (.info info)) hliterals.symm
  | params n =>
    have hdecls : Loads (.list (.tree (.node .varDecl))) (.array (n.decls.map VarDecl.toDocument))
        (n.decls.flatMap fun d => (Node.varDecl d).literals) (n.decls.map id) :=
      loads_list _ fun d hd => hchildren (.varDecl d) (List.mem_map_of_mem hd)
    rw [List.map_id] at hdecls
    exact loads_record (.tree (.node .params)) paramsRecord (fun _ => rfl) (by decide)
      (.present hdecls (.info n.info)) (literals_of_items rfl rfl)
  | program n =>
    have hname := hchildren (.ident n.name) (by simp [Node.children])
    have hvars := hchildren (.varSection n.vars) (by simp [Node.children])
    have hbody := hchildren (.stmtList n.body) (by simp [Node.children])
    exact loads_record (.tree (.node .program)) programRecord (fun _ => rfl) (by decide)
      (.present hname (.present hvars (.present hbody (.info n.info)))) hliterals.symm
  | procedureDecl n =>
    obtain ⟨name, params, vars, body, info⟩ := n
    have hname := hchildren (.ident name) (by simp [Node.children])
    have hparams := hchildren (.params params) (by simp [Node.children])
    have hvars := hchildren (.varSection vars) (by simp [Node.children])
    have hbody := hchildren (.stmtList body) (by simp [Node.children])
    exact loads_record (.tree (.node .procedureDecl)) procedureDeclRecord (fun _ => rfl)
      (by decide)
      (.present hname (.present hparams (.present hvars (.present hbody (.info info)))))
      hliterals.symm
  | functionDecl n =>
    obtain ⟨name, params, returnType, vars, body, info⟩ := n
    have hname := hchildren (.ident name) (by simp [Node.children])
    have hparams := hchildren (.params params) (by simp [Node.children])
    have htype := hchildren (.typeSpec returnType) (by simp [Node.children])
    have hvars := hchildren (.varSection vars) (by simp [Node.children])
    have hbody := hchildren (.stmtList body) (by simp [Node.children])
    exact loads_record (.tree (.node .functionDecl)) functionDeclRecord (fun _ => rfl) (by decide)
      (.present hname
        (.present hparams (.present htype (.present hvars (.present hbody (.info info))))))
      hliterals.symm

/-- Nodes of every kind are read back with their literals resolved again. -/
theorem loads_node (n : Node) : LoadsNode n := by
  induction n using Node.children_induction with
  | step n ih => exact loadsNode_of_children ih

/-- Trees of every type are read back with their literals resolved again. -/
theorem loads_tree (t : TreeType) (x : t.Val) :
    Loads (.tree t) (t.toDocument x) (t.toNode x).literals
      (TreeType.mapLiterals Literal.refreshed t x) := by
  cases t with
  | node kind => cases kind <;> exact loads_node (TreeType.toNode (.node _) x)
  | expr => exact loads_expr (loads_node _)
  | stmt => exact loads_stmt (loads_node _)
  | target => exact loads_target (loads_node _)
  | entry => exact loads_entry (loads_node _)

/-! ## Whole texts -/

/-- Literals that all resolve split from the rest at the first that does not. -/
theorem exists_first_refused {ls : List Literal} (h : ¬ ∀ l ∈ ls, l.Resolves) :
    ∃ before l after, ls = before ++ l :: after ∧ (∀ l' ∈ before, l'.Resolves) ∧ ¬ l.Resolves := by
  induction ls with
  | nil => exact absurd (List.forall_mem_nil _) h
  | cons l ls ih =>
    by_cases hl : l.Resolves
    · have hls : ¬ ∀ l' ∈ ls, l'.Resolves := fun hls => h (List.forall_mem_cons.mpr ⟨hl, hls⟩)
      rcases ih hls with ⟨before, l', after, rfl, hbefore, hl'⟩
      exact ⟨l :: before, l', after, rfl, List.forall_mem_cons.mpr ⟨hl, hbefore⟩, hl'⟩
    · exact ⟨[], l, ls, rfl, List.forall_mem_nil _, hl⟩

/-- A tree of any shape, with any texts for literals, is loaded from its stored text exactly if all
these texts resolve, and then with the values they resolve to. If not, loading fails with the
message about the first text in pre-order that does not resolve. -/
theorem loadTree_resolves_literals (t : TreeType) (x : t.Val)
    (hnesting : nesting (storeTree t x) ≤ 127) :
    ((∃ y, loadTree t (storeTree t x) = .ok y) ↔ ∀ l ∈ (t.toNode x).literals, l.Resolves) ∧
      ((∀ l ∈ (t.toNode x).literals, l.Resolves) →
        loadTree t (storeTree t x) = .ok (TreeType.mapLiterals Literal.refreshed t x) ∧
          ∀ l ∈ (t.toNode x).literals, resolve l.text = .ok l.refreshed.value) ∧
      ∀ before l after, (t.toNode x).literals = before ++ l :: after →
        (∀ l' ∈ before, l'.Resolves) → ¬ l.Resolves →
        ∃ e, loadTree t (storeTree t x) = .error e ∧
          e.fault = .refused (.malformedLiteral l.text) ∧
          e.fault.message = "malformed literal: " ++ Text.quoted l.text := by
  have hdepth : (t.toDocument x).depth ≤ maxLevels := by
    rw [storeTree, nesting_render] at hnesting
    exact hnesting
  have hload : (loadTree t (storeTree t x)).mapError LoadError.fault =
      verdict (t.toNode x).literals (TreeType.mapLiterals Literal.refreshed t x) :=
    load_of_reads (loads_tree t x maxLevels hdepth)
  have hresolved (h : ∀ l ∈ (t.toNode x).literals, l.Resolves) :
      loadTree t (storeTree t x) = .ok (TreeType.mapLiterals Literal.refreshed t x) := by
    rw [verdict_eq_ok h] at hload
    exact eq_ok_of_mapError hload
  have hrefused (before after : List Literal) (l : Literal)
      (hls : (t.toNode x).literals = before ++ l :: after)
      (hbefore : ∀ l' ∈ before, l'.Resolves) (hl : ¬ l.Resolves) :
      ∃ e, loadTree t (storeTree t x) = .error e ∧
        e.fault = .refused (.malformedLiteral l.text) := by
    rw [hls, verdict_eq_error hbefore hl] at hload
    exact exists_error_of_mapError hload
  refine ⟨⟨?_, fun h => ⟨_, hresolved h⟩⟩, ?_, ?_⟩
  · rintro ⟨y, hy⟩
    -- If some text did not resolve, the first such text would have ended the loading.
    by_contra h
    rcases exists_first_refused h with ⟨before, l, after, hls, hbefore, hl⟩
    rcases hrefused before after l hls hbefore hl with ⟨e, he, _⟩
    rw [hy] at he
    cases he
  · intro h
    exact ⟨hresolved h, fun l hl => Literal.resolve_text_of_resolves (h l hl)⟩
  · intro before l after hls hbefore hl
    rcases hrefused before after l hls hbefore hl with ⟨e, he, hfault⟩
    refine ⟨e, he, hfault, ?_⟩
    rw [hfault]
    rfl

/-- A call with literals of the given texts, all of which carry the same value. -/
def callWith (texts : List String) : Call :=
  { callee := { name := "f" }
    args := texts.map fun text => .literal { text, value := .boolean false } }

theorem literals_callWith (texts : List String) :
    (Node.call (callWith texts)).literals =
      texts.map fun text => { text, value := .boolean false } := by
  have hident : (Node.ident { name := "f" }).literals = [] := Node.literals_eq _
  have hliteral (l : Literal) : (Node.literal l).literals = [l] := Node.literals_eq _
  rw [Node.literals_eq, List.map_eq_flatMap]
  simp only [callWith, Node.literal?, Node.children, Option.toList_none, List.nil_append,
    List.flatMap_cons, hident, List.flatMap_map, Expr.toNode, hliteral]

theorem loadTree_resolves_literals_callWith :
    nesting (storeTree (.node .call) (callWith ["1", "1.5.2", "'"])) ≤ 127 ∧
      (∃ e, loadTree (.node .call) (storeTree (.node .call) (callWith ["1", "1.5.2", "'"])) =
          .error e ∧ e.fault = .refused (.malformedLiteral "1.5.2") ∧
          e.fault.message = "malformed literal: " ++ Text.quoted "1.5.2") ∧
      nesting (storeTree (.node .call) (callWith ["1"])) ≤ 127 ∧
      loadTree (.node .call) (storeTree (.node .call) (callWith ["1"])) =
        .ok { callee := { name := "f" }
              args := [.literal { text := "1", value := .integer 1 }] } := by
  have hone : resolve "1" = .ok (.integer 1) := rfl
  have hbad : resolve "1.5.2" = .error (.malformedLiteral "1.5.2") := rfl
  have hnesting : nesting (storeTree (.node .call) (callWith ["1", "1.5.2", "'"])) ≤ 127 := by
    rw [storeTree, nesting_render]
    decide
  have hnesting' : nesting (storeTree (.node .call) (callWith ["1"])) ≤ 127 := by
    rw [storeTree, nesting_render]
    decide
  refine ⟨hnesting, ?_, hnesting', ?_⟩
  · refine (loadTree_resolves_literals (.node .call) _ hnesting).2.2 [⟨"1", .boolean false, {}⟩]
      ⟨"1.5.2", .boolean false, {}⟩ [⟨"'", .boolean false, {}⟩] (literals_callWith _) ?_ ?_
    · exact List.forall_mem_singleton.mpr ⟨_, hone⟩
    · rintro ⟨value, hvalue⟩
      rw [hbad] at hvalue
      cases hvalue
  · have hall : ∀ l ∈ (Node.call (callWith ["1"])).literals, l.Resolves := by
      rw [literals_callWith]
      exact List.forall_mem_singleton.mpr ⟨_, hone⟩
    rw [((loadTree_resolves_literals (.node .call) _ hnesting').2.1 hall).1]
    simp [TreeType.mapLiterals, callWith, Call.mapLiterals, Expr.mapLiteralsAll, Expr.mapLiterals,
      Literal.refreshed, hone]

end Stored
end PascalTree
