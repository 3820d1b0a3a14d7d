import PascalTree.Proofs.Literals
import PascalTree.Proofs.Stored.Gives
import PascalTree.Proofs.Stored.RoundTrip

/-!
# Accepted — every accepted text has a normal form

A text that is loaded may be far from the one that is stored for its tree: records may be lists of
fields, members may come in any order and defaults may be written out. Still the stored text is
never nested deeper, and its literals resolve, so it is loaded back to the same tree.

* `Fits`: the stored form of a value is nested at most so many levels deep, and its literals carry
  the values of their texts;
* `gives_readWith`: one level of reading gives values that fit, if the readers of what is nested do;
* `fits_of_load`: whatever is loaded fits the levels that loading has.
-/

namespace PascalTree
namespace Stored

open Json
open List (forall_iff_forall_mem forall_mem_map forall_mem_singleton)

variable {α : Type} {nested : Nested} {levels k : Nat}

/-! ## Depth of composed documents -/

theorem depth_array_le {values : List α} {document : α → Document} (hk : 1 ≤ k)
    (h : ∀ value ∈ values, (document value).depth ≤ k - 1) :
    (Document.array (values.map document)).depth ≤ k := by
  have hdepth : (Document.array (values.map document)).depth ≤ k - 1 + 1 :=
    Document.depth_array_le_iff.mpr (List.forall_mem_map.mpr h)
  rwa [Nat.sub_add_cancel hk] at hdepth

theorem depth_slotDocument_le {name : String} {d : Document} (h : d.depth ≤ k) :
    (slotDocument name d).depth ≤ k + 1 :=
  Document.depth_object_le_iff.mpr (List.forall_mem_singleton.mpr h)

theorem depth_info_le (info : NodeInfo) : info.toDocument.depth ≤ 2 := by
  have hscalars : ∀ {members : List (String × Document)}, (∀ m ∈ members, m.2.depth = 0) →
      (Document.object members).depth ≤ 1 :=
    fun h => Document.depth_object_le_iff.mpr fun m hm => Nat.le_of_eq (h m hm)
  have hnumber : ∀ (key : String) (n : Option UInt32), ∀ m ∈ numberMember key n, m.2.depth = 0 := by
    intro key n m hm
    rcases List.mem_map.mp hm with ⟨_, _, rfl⟩
    rfl
  have hpos : info.pos.toDocument.depth ≤ 1 :=
    hscalars (List.forall_mem_append.mpr ⟨hnumber _ _, hnumber _ _⟩)
  have hprops : info.props.toDocument.depth ≤ 1 := by
    refine hscalars (List.forall_mem_append.mpr ⟨?_, ?_⟩)
    · split
      · exact List.forall_mem_singleton.mpr rfl
      · exact List.forall_mem_nil _
    · intro m hm
      rcases List.mem_map.mp hm with ⟨_, _, rfl⟩
      rfl
  refine Document.depth_object_le_iff.mpr ?_
  simp [hpos, hprops]

/-- Information equal to the default takes no level, as it is left out. -/
theorem depth_nodeDocument_le {parts : List (String × Document)} {info : NodeInfo}
    (hparts : ∀ m ∈ parts, m.2.depth ≤ k) (hinfo : info = {} ∨ 2 ≤ k) :
    (nodeDocument parts info).depth ≤ k + 1 := by
  refine Document.depth_object_le_iff.mpr (List.forall_mem_append.mpr ⟨hparts, ?_⟩)
  intro m hm
  unfold NodeInfo.member at hm
  split at hm
  · cases hm
  · rename_i hknown
    rcases hinfo with rfl | hk
    · exact absurd rfl hknown
    · rw [List.mem_singleton] at hm
      subst hm
      exact Nat.le_trans (depth_info_le info) hk

/-! ## Values that fit -/

theorem resolved_iff {n : Node} : Resolved n ↔ ∀ l ∈ n.literals, l.Faithful := by
  simp only [Resolved, Node.mem_literals, Literal.ofText_self_iff]

theorem resolved_iff_children {n : Node} :
    Resolved n ↔ (∀ l, n.literal? = some l → l.Faithful) ∧ ∀ c ∈ n.children, Resolved c := by
  simp only [resolved_iff, Node.literals_eq n, List.forall_mem_append, Option.mem_toList,
    List.forall_mem_flatMap]

/-- A tree whose root is no literal is resolved if what is below the root is. -/
theorem resolved_of_children {n : Node} (hn : n.literal? = none)
    (h : ∀ c ∈ n.children, Resolved c) : Resolved n := by
  refine resolved_iff_children.mpr ⟨?_, h⟩
  intro l hl
  rw [hn] at hl
  cases hl

/-- The stored form of a value is nested at most `levels` deep, and the literals in it carry the
values of their texts. Information equal to the default is not stored and always fits. -/
def Fits : (t : Ty) → (levels : Nat) → t.Val → Prop
  | .optional t, levels, value => ∀ x, value = some x → Fits t levels x
  | .list t, levels, values => 1 ≤ levels ∧ ∀ value ∈ values, Fits t (levels - 1) value
  | .position, levels, p => p = {} ∨ 1 ≤ levels
  | .props, levels, p => p = {} ∨ 1 ≤ levels
  | .info, levels, info => info = {} ∨ 2 ≤ levels
  | .tree t, levels, x => Resolved (t.toNode x) ∧ (t.toDocument x).depth ≤ levels
  | _, _, _ => True

/-- The readers for what is nested give values that fit one level less. -/
def FitsInside (nested : Nested) (levels : Nat) : Prop :=
  ∀ inner, nested = some inner → ∃ k, levels = k + 1 ∧ ∀ t, Gives (inner t) (Fits t k)

theorem Makes.info {p : α → Prop} {make : NodeInfo → α}
    (h : ∀ info, info = {} ∨ 2 ≤ k → p (make info)) : Makes (Fits · k) [infoField] make p :=
  Makes.defaulted rfl (Or.inl rfl) h

theorem gives_record_fitting {t : Ty} {r : Record t.Val} (hnested : FitsInside nested levels)
    (h : ∀ k, Makes (Fits · k) r.fields r.make (Fits t (k + 1))) :
    Gives (readRecord nested r) (Fits t levels) := by
  refine gives_record fun inner hinner => ?_
  rcases hnested inner hinner with ⟨k, rfl, hgives⟩
  exact ⟨(Fits · k), hgives, h k⟩

/-- A variant gives values that fit, if what it carries fits one level less. -/
def Variant.Fitting (t : Ty) (levels : Nat) : Variant t.Val → Prop
  | .bare _ value => Fits t levels value
  | .carrying _ content make => ∀ k value, Fits content k value → Fits t (k + 1) (make value)

theorem gives_choice_fitting {t : Ty} {variants : List (Variant t.Val)}
    (hnested : FitsInside nested levels) (h : ∀ v ∈ variants, v.Fitting t levels) :
    Gives (readChoice nested variants) (Fits t levels) := by
  refine gives_choice (fun name value hmem => h _ hmem) ?_
  intro inner hinner name content make hmem
  rcases hnested inner hinner with ⟨k, rfl, hgives⟩
  exact (hgives content).mono (h _ hmem k)

/-! ## Nodes -/

theorem fits_ofText {text : String} {info : NodeInfo} {l : Literal}
    (h : Literal.ofText text info = .ok l) (hinfo : info = {} ∨ 2 ≤ k) :
    Fits (.tree (.node .literal)) (k + 1) l := by
  rcases Literal.ofText_eq_ok.mp h with ⟨_, rfl, hfaithful⟩
  refine ⟨?_, depth_nodeDocument_le (forall_mem_singleton.mpr (Nat.zero_le k)) hinfo⟩
  rw [resolved_iff]
  intro l' hl'
  rw [Node.literals_eq] at hl'
  rw [List.mem_singleton.mp hl']
  exact hfaithful

theorem gives_node (hnested : FitsInside nested levels) (kind : Kind) :
    Gives (readWith nested (.tree (.node kind))) (Fits (.tree (.node kind)) levels) := by
  cases kind with
  | literal =>
    refine gives_checked (gives_record fun inner hinner => ?_)
    rcases hnested inner hinner with ⟨k, rfl, hgives⟩
    refine ⟨(Fits · k), hgives, .required rfl fun text _ => .info fun info hinfo => ?_⟩
    -- What was read is the text alone; the literal is made of it behind the record.
    exact fun l hl => fits_ofText hl hinfo
  | ident =>
    refine gives_record_fitting hnested fun k => .required rfl fun name _ =>
      .info fun info hinfo => ?_
    refine ⟨resolved_of_children rfl (List.forall_mem_nil _), depth_nodeDocument_le ?_ hinfo⟩
    exact forall_mem_singleton.mpr (Nat.zero_le k)
  | typeSpec =>
    refine gives_record_fitting hnested fun k => .required rfl fun name _ =>
      .info fun info hinfo => ?_
    refine ⟨resolved_of_children rfl (List.forall_mem_nil _), depth_nodeDocument_le ?_ hinfo⟩
    exact forall_mem_singleton.mpr (Nat.zero_le k)
  | elementRef =>
    refine gives_record_fitting hnested fun k => .required rfl fun base hbase =>
      .required rfl fun index hindex => .info fun info hinfo => ?_
    refine ⟨resolved_of_children rfl ?_, depth_nodeDocument_le ?_ hinfo⟩
    · exact forall_iff_forall_mem.mp (And.intro hbase.1 hindex.1)
    · exact forall_iff_forall_mem.mp (And.intro hbase.2 hindex.2)
  | binaryOp =>
    refine gives_record_fitting hnested fun k => .required rfl fun op _ =>
      .required rfl fun left hleft => .required rfl fun right hright => .info fun info hinfo => ?_
    refine ⟨resolved_of_children rfl ?_, depth_nodeDocument_le ?_ hinfo⟩
    · exact forall_iff_forall_mem.mp (And.intro hleft.1 hright.1)
    · exact forall_iff_forall_mem.mp (And.intro (Nat.zero_le k) (And.intro hleft.2 hright.2))
  | identList =>
    refine gives_record_fitting hnested fun k => .required rfl fun idents hidents =>
      .info fun info hinfo => ?_
    refine ⟨resolved_of_children rfl ?_, depth_nodeDocument_le ?_ hinfo⟩
    · exact forall_mem_map.mpr fun i hi => (hidents.2 i hi).1
    · exact forall_mem_singleton.mpr (depth_array_le hidents.1 fun i hi => (hidents.2 i hi).2)
  | varDecl =>
    refine gives_record_fitting hnested fun k => .required rfl fun idents hidents =>
      .required rfl fun type htype => .info fun info hinfo => ?_
    refine ⟨resolved_of_children rfl ?_, depth_nodeDocument_le ?_ hinfo⟩
    · exact forall_iff_forall_mem.mp (And.intro hidents.1 htype.1)
    · exact forall_iff_forall_mem.mp (And.intro hidents.2 htype.2)
  | arrayDecl =>
    refine gives_record_fitting hnested fun k => .required rfl fun name hname =>
      .required rfl fun lower hlower => .required rfl fun upper hupper =>
      .required rfl fun type htype => .info fun info hinfo => ?_
    refine ⟨resolved_of_children rfl ?_, depth_nodeDocument_le ?_ hinfo⟩
    · exact forall_iff_forall_mem.mp
        (And.intro htype.1 (And.intro hname.1 (And.intro hlower.1 hupper.1)))
    · exact forall_iff_forall_mem.mp
        (And.intro hname.2 (And.intro hlower.2 (And.intro hupper.2 htype.2)))
  | varSection =>
    refine gives_record_fitting hnested fun k => .required rfl fun entries hentries =>
      .info fun info hinfo => ?_
    refine ⟨resolved_of_children rfl ?_, depth_nodeDocument_le ?_ hinfo⟩
    · exact forall_mem_map.mpr fun e he => (hentries.2 e he).1
    · exact forall_mem_singleton.mpr (depth_array_le hentries.1 fun e he => (hentries.2 e he).2)
  | call =>
    refine gives_record_fitting hnested fun k => .required rfl fun callee hcallee =>
      .required rfl fun args hargs => .info fun info hinfo => ?_
    refine ⟨resolved_of_children rfl ?_, depth_nodeDocument_le ?_ hinfo⟩
    · refine List.forall_mem_cons.mpr ⟨hcallee.1, ?_⟩
      exact forall_mem_map.mpr fun e he => (hargs.2 e he).1
    · have hdepth : (Document.array (Expr.toDocuments args)).depth ≤ k := by
        rw [Expr.toDocuments_eq_map]
        exact depth_array_le hargs.1 fun e he => (hargs.2 e he).2
      exact forall_iff_forall_mem.mp (And.intro hcallee.2 hdepth)
  | assign =>
    refine gives_record_fitting hnested fun k => .required rfl fun target htarget =>
      .required rfl fun value hvalue => .info fun info hinfo => ?_
    refine ⟨resolved_of_children rfl ?_, depth_nodeDocument_le ?_ hinfo⟩
    · exact forall_iff_forall_mem.mp (And.intro htarget.1 hvalue.1)
    · exact forall_iff_forall_mem.mp (And.intro htarget.2 hvalue.2)
  | ifStmt =>
    refine gives_record_fitting hnested fun k => .required rfl fun cond hcond =>
      .required rfl fun thenBranch hthen => .defaulted rfl nofun fun elseBranch helse =>
      .info fun info hinfo => ?_
    -- An absent branch is neither a child nor a member.
    cases elseBranch with
    | none =>
      refine ⟨resolved_of_children rfl ?_, depth_nodeDocument_le ?_ hinfo⟩
      · exact forall_iff_forall_mem.mp (And.intro hcond.1 hthen.1)
      · exact forall_iff_forall_mem.mp (And.intro hcond.2 hthen.2)
    | some s =>
      have hs := helse s rfl
      refine ⟨resolved_of_children rfl ?_, depth_nodeDocument_le ?_ hinfo⟩
      · exact forall_iff_forall_mem.mp (And.intro hcond.1 (And.intro hthen.1 hs.1))
      · exact forall_iff_forall_mem.mp (And.intro hcond.2 (And.intro hthen.2 hs.2))
  | whileStmt =>
    refine gives_record_fitting hnested fun k => .required rfl fun cond hcond =>
      .required rfl fun body hbody => .info fun info hinfo => ?_
    refine ⟨resolved_of_children rfl ?_, depth_nodeDocument_le ?_ hinfo⟩
    · exact forall_iff_forall_mem.mp (And.intro hcond.1 hbody.1)
    · exact forall_iff_forall_mem.mp (And.intro hcond.2 hbody.2)
  | forStmt =>
    refine gives_record_fitting hnested fun k => .required rfl fun init hinit =>
      .required rfl fun bound hbound => .required rfl fun body hbody => .info fun info hinfo => ?_
    refine ⟨resolved_of_children rfl ?_, depth_nodeDocument_le ?_ hinfo⟩
    · exact forall_iff_forall_mem.mp (And.intro hinit.1 (And.intro hbound.1 hbody.1))
    · exact forall_iff_forall_mem.mp (And.intro hinit.2 (And.intro hbound.2 hbody.2))
  | stmtList =>
    refine gives_record_fitting hnested fun k => .required rfl fun stmts hstmts =>
      .info fun info hinfo => ?_
    refine ⟨resolved_of_children rfl ?_, depth_nodeDocument_le ?_ hinfo⟩
    · exact forall_mem_map.mpr fun s hs => (hstmts.2 s hs).1
    · refine forall_mem_singleton.mpr ?_
      rw [Stmt.toDocuments_eq_map]
      exact depth_array_le hstmts.1 fun s hs => (hstmts.2 s hs).2
  | body =>
    refine gives_record_fitting hnested fun k => .required rfl fun list hlist =>
      .info fun info hinfo => ?_
    refine ⟨resolved_of_children rfl ?_, depth_nodeDocument_le ?_ hinfo⟩
    · exact forall_mem_singleton.mpr hlist.1
    · exact forall_mem_singleton.mpr hlist.2
  | params =>
    refine gives_record_fitting hnested fun k => .required rfl fun decls hdecls =>
      .info fun info hinfo => ?_
    refine ⟨resolved_of_children rfl ?_, depth_nodeDocument_le ?_ hinfo⟩
    · exact forall_mem_map.mpr fun d hd => (hdecls.2 d hd).1
    · exact forall_mem_singleton.mpr (depth_array_le hdecls.1 fun d hd => (hdecls.2 d hd).2)
  | program =>
    refine gives_record_fitting hnested fun k => .required rfl fun name hname =>
      .required rfl fun vars hvars => .required rfl fun body hbody => .info fun info hinfo => ?_
    refine ⟨resolved_of_children rfl ?_, depth_nodeDocument_le ?_ hinfo⟩
    · exact forall_iff_forall_mem.mp (And.intro hname.1 (And.intro hvars.1 hbody.1))
    · exact forall_iff_forall_mem.mp (And.intro hname.2 (And.intro hvars.2 hbody.2))
  | procedureDecl =>
    refine gives_record_fitting hnested fun k => .required rfl fun name hname =>
      .required rfl fun params hparams => .required rfl fun vars hvars =>
      .required rfl fun body hbody => .info fun info hinfo => ?_
    refine ⟨resolved_of_children rfl ?_, depth_nodeDocument_le ?_ hinfo⟩
    · exact forall_iff_forall_mem.mp
        (And.intro hname.1 (And.intro hparams.1 (And.intro hvars.1 hbody.1)))
    · exact forall_iff_forall_mem.mp
        (And.intro hname.2 (And.intro hparams.2 (And.intro hvars.2 hbody.2)))
  | functionDecl =>
    refine gives_record_fitting hnested fun k => .required rfl fun name hname =>
      .required rfl fun params hparams => .required rfl fun type htype =>
      .required rfl fun vars hvars => .required rfl fun body hbody => .info fun info hinfo => ?_
    refine ⟨resolved_of_children rfl ?_, depth_nodeDocument_le ?_ hinfo⟩
    · exact forall_iff_forall_mem.mp
        (And.intro hname.1 (And.intro hparams.1 (And.intro htype.1 (And.intro hvars.1 hbody.1))))
    · exact forall_iff_forall_mem.mp
        (And.intro hname.2 (And.intro hparams.2 (And.intro htype.2 (And.intro hvars.2 hbody.2))))

/-! ## Trees and values -/

theorem gives_tree (hnested : FitsInside nested levels) (t : TreeType) :
    Gives (readWith nested (.tree t)) (Fits (.tree t) levels) := by
  cases t with
  | node kind => exact gives_node hnested kind
  | expr =>
    refine gives_choice_fitting hnested fun v hv => ?_
    simp only [exprVariants, List.mem_cons, List.not_mem_nil, or_false] at hv
    rcases hv with rfl | rfl | rfl | rfl | rfl
    all_goals exact fun k value h => ⟨h.1, depth_slotDocument_le h.2⟩
  | stmt =>
    refine gives_choice_fitting hnested fun v hv => ?_
    simp only [stmtVariants, List.mem_cons, List.not_mem_nil, or_false] at hv
    rcases hv with rfl | rfl | rfl | rfl | rfl | rfl | rfl | rfl | rfl
    all_goals exact fun k value h => ⟨h.1, depth_slotDocument_le h.2⟩
  | target =>
    refine gives_choice_fitting hnested fun v hv => ?_
    simp only [targetVariants, List.mem_cons, List.not_mem_nil, or_false] at hv
    rcases hv with rfl | rfl
    all_goals exact fun k value h => ⟨h.1, depth_slotDocument_le h.2⟩
  | entry =>
    refine gives_choice_fitting hnested fun v hv => ?_
    simp only [entryVariants, List.mem_cons, List.not_mem_nil, or_false] at hv
    rcases hv with rfl | rfl
    all_goals exact fun k value h => ⟨h.1, depth_slotDocument_le h.2⟩

theorem gives_info (hnested : FitsInside nested levels) :
    Gives (readWith nested .info) (Fits .info levels) := by
  refine gives_record_fitting hnested fun k =>
    .defaulted rfl (Or.inl rfl) fun pos hpos => .defaulted rfl (Or.inl rfl) fun props hprops => ?_
  -- A part other than the default has opened a bracket of its own inside that of the record.
  rcases hpos with rfl | hk
  · rcases hprops with rfl | hk
    · exact Or.inl rfl
    · exact Or.inr (Nat.succ_le_succ hk)
  · exact Or.inr (Nat.succ_le_succ hk)

/-- One level of reading: values fit, if those given by the readers of what is nested fit one level
less. -/
theorem gives_readWith (hnested : FitsInside nested levels) (t : Ty) :
    Gives (readWith nested t) (Fits t levels) := by
  induction t with
  | optional t ih => exact gives_optional ih
  | list t =>
    refine gives_list fun inner hinner => ?_
    rcases hnested inner hinner with ⟨k, rfl, hgives⟩
    exact ⟨Fits t k, hgives t, fun values hvalues => ⟨Nat.succ_pos k, hvalues⟩⟩
  | position =>
    exact gives_record_fitting hnested fun k =>
      .defaulted rfl nofun fun _ _ => .defaulted rfl nofun fun _ _ => Or.inr (Nat.succ_pos k)
  | props =>
    exact gives_record_fitting hnested fun k =>
      .defaulted rfl trivial fun _ _ => .defaulted rfl nofun fun _ _ => Or.inr (Nat.succ_pos k)
  | info => exact gives_info hnested
  | tree t => exact gives_tree hnested t
  | unit | flag | text | word32 | index | integer | real | operator | kind | literalType | value =>
    exact Gives.any _

/-- What is read fits the levels that reading may open. -/
theorem gives_readValue (levels : Nat) (t : Ty) : Gives (readValue levels t) (Fits t levels) := by
  induction levels generalizing t with
  | zero =>
    refine gives_readWith ?_ t
    intro inner hinner
    cases hinner
  | succ levels ih =>
    refine gives_readWith ?_ t
    intro inner hinner
    cases hinner
    exact ⟨levels, rfl, ih⟩

/-! ## Whole texts -/

theorem fits_of_load {t : Ty} {source : String} {value : t.Val}
    (h : load t source = .ok value) : Fits t maxLevels value := by
  unfold load at h
  split at h
  · rename_i value' rest hread
    rcases Outcome.bind_eq_done hread with ⟨value'', s, hvalue, hend⟩
    have hfits : Fits t maxLevels value'' := gives_readValue maxLevels t _ _ _ hvalue
    -- What follows the value does not change it.
    split at hend
    · cases hend
      cases h
      exact hfits
    · cases hend
  · cases h
  · cases h

/-- Whatever text a tree was loaded from, the text stored for the tree is loaded as the same tree,
and the text stored for that is the same text again. -/
theorem loadTree_storeTree_of_loadTree (t : TreeType) (source : String) (x : t.Val)
    (h : loadTree t source = .ok x) :
    loadTree t (storeTree t x) = .ok x ∧
      (loadTree t (storeTree t x)).map (storeTree t) = .ok (storeTree t x) := by
  obtain ⟨hresolved, hdepth⟩ : Fits (.tree t) maxLevels x := fits_of_load h
  have hload : (loadTree t (storeTree t x)).mapError LoadError.fault =
      within maxLevels (t.toDocument x).depth x :=
    load_render (stores_tree t x hresolved)
  rw [within, if_pos hdepth] at hload
  have hagain : loadTree t (storeTree t x) = .ok x := eq_ok_of_mapError hload
  refine ⟨hagain, ?_⟩
  rw [hagain]
  rfl

/-- An array declared with truth values for its bounds, one of them without source text. -/
def flagArray : ArrayDecl :=
  ⟨⟨"a", {}⟩, ⟨"TRUE", .boolean true, {}⟩, ⟨"true", .boolean true, .synthesized⟩, ⟨"b", {}⟩, {}⟩

/-- A text of the array: a list of its fields, in which a default is written out, members are out of
order and one is unknown. -/
def flagArrayText : String :=
  " [[\"a\"], \x7b\"meta\":[],\"text\":\"TRUE\"\x7d," ++
    "[\"true\",\x7b\"props\":[true]\x7d],\x7b\"?\":[],\"name\":\"b\"\x7d]"

theorem loadTree_flagArrayText : loadTree (.node .arrayDecl) flagArrayText = .ok flagArray := by
  decide +kernel

theorem loadTree_storeTree_of_loadTree_flagArray :
    loadTree (.node .arrayDecl) flagArrayText = .ok flagArray ∧
      loadTree (.node .arrayDecl) (storeTree (.node .arrayDecl) flagArray) = .ok flagArray ∧
      (loadTree (.node .arrayDecl) (storeTree (.node .arrayDecl) flagArray)).map
        (storeTree (.node .arrayDecl)) = .ok (storeTree (.node .arrayDecl) flagArray) :=
  ⟨loadTree_flagArrayText, loadTree_storeTree_of_loadTree (.node .arrayDecl) flagArrayText flagArray
    loadTree_flagArrayText⟩

end Stored
end PascalTree
