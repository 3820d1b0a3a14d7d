import PascalTree.Proofs.Stored.RoundTrip

/-!
# Damage — stored trees with a member deleted or repeated

No part of a tree is made up on loading, and none is replaced by a later one. Where a record
anywhere in a stored tree loses a member that must be present, or has a member twice, the tree is
refused and the member is named.

* `Edits`: a change to the members of one object, somewhere in a document;
* `Deletes`, `Repeats`: the two changes;
* `Damages`: a change that makes every record fail in the same way;
* `Written.reads_edited`: the fault of one record is the fault of the whole document.
-/

namespace PascalTree
namespace Stored

open Json

variable {α : Type}

/-! ## Changes to documents -/

/-- The members of one object are changed as `edit` says, somewhere in the document. -/
inductive Edits (edit : List (String × Document) → List (String × Document) → Prop) :
    Document → Document → Prop where
  | here {members members' : List (String × Document)} (h : edit members members') :
      Edits edit (.object members) (.object members')
  | item {before after : List Document} {d d' : Document} (h : Edits edit d d') :
      Edits edit (.array (before ++ d :: after)) (.array (before ++ d' :: after))
  | member {before after : List (String × Document)} {key : String} {d d' : Document}
      (h : Edits edit d d') :
      Edits edit (.object (before ++ (key, d) :: after)) (.object (before ++ (key, d') :: after))

/-- A member with the key is deleted. -/
def Deletes (key : String) (members members' : List (String × Document)) : Prop :=
  ∃ before value after, members = before ++ (key, value) :: after ∧ members' = before ++ after

/-- Somewhere behind a member with the key, another one is put in. -/
def Repeats (key : String) (members members' : List (String × Document)) : Prop :=
  ∃ before again after, key ∈ before.map Prod.fst ∧ members = before ++ after ∧
    members' = before ++ (key, again) :: after

/-! ## Members of a damaged record -/

section Members

variable {inner : (t : Ty) → Reader t.Val} {fs : List Field} {make : Maker α fs} {made : α}

theorem Recorded.readable {members : List (String × List Char)}
    (h : Recorded (ReadsText inner) fs make members made) (hfields : ∀ f ∈ fs, f.Conforms) :
    Parts inner fs make members (.ok made) := by
  induction h with
  | nil value => exact .nil value
  | present part rest ih => exact .present part (ih (List.forall_mem_cons.mp hfields).2)
  | absent omitted rest ih =>
    rcases List.forall_mem_cons.mp hfields with ⟨hf, hrest⟩
    exact .absent (hf.default? omitted) (ih hrest)

/-- Where a required member is deleted, it is missed. -/
theorem Recorded.deleted {before after : List (String × List Char)} {key : String}
    {w : List Char} (h : Recorded (ReadsText inner) fs make (before ++ (key, w) :: after) made)
    (hfields : ∀ f ∈ fs, f.Conforms) (hkey : key ∉ omissible) :
    Parts inner fs make (before ++ after) (.error (.missingField key)) := by
  generalize hmembers : before ++ (key, w) :: after = members at h
  -- The fields before the deleted member keep their members, and those behind it do too.
  induction h generalizing before with
  | nil value => simp at hmembers
  | @present f fs make value w members made part rest ih =>
    rcases List.forall_mem_cons.mp hfields with ⟨hf, hrest⟩
    cases before with
    | nil =>
      cases hmembers
      exact .missing (hf.default?_eq_none hkey) (rest.readable hrest)
    | cons m before =>
      cases hmembers
      exact .present part (ih hrest rfl)
  | absent omitted rest ih =>
    rcases List.forall_mem_cons.mp hfields with ⟨hf, hrest⟩
    exact .absent (hf.default? omitted) (ih hrest hmembers)

theorem readMember_repeated {f : Field} {value : f.type.Val} {slots : Slots fs} (w : List Char) :
    Reads (readMember inner f.name (f :: fs) (some value, slots)) w
      (.error (.duplicateField f.name)) := by
  intro s rest _ _
  simp [readMember, Reader.refuse, Outcome.Ends, Outcome.fault?]

/-- The first members of a record are read, and then none of them again. -/
theorem Recorded.front {before after : List (String × List Char)}
    (h : Recorded (ReadsText inner) fs make (before ++ after) made)
    (hnames : (fs.map Field.name).Nodup) :
    ∃ slots, ReadsMembers inner fs (Slots.empty fs) before (.ok slots) ∧
      ∀ key ∈ before.map Prod.fst, ∀ w,
        Reads (readMember inner key fs slots) w (.error (.duplicateField key)) := by
  generalize hmembers : before ++ after = members at h
  -- Each member fills the slot of its field, and later members leave it alone.
  induction h generalizing before with
  | nil value =>
    obtain ⟨rfl, rfl⟩ := List.append_eq_nil_iff.mp hmembers
    exact ⟨(), @ReadsMembers.nil inner [] (), by simp⟩
  | @present f fs make value d members made part rest ih =>
    rcases List.nodup_cons.mp hnames with ⟨hname, hrest⟩
    cases before with
    | nil => exact ⟨_, .nil _, by simp⟩
    | cons m before =>
      cases hmembers
      rcases ih hrest rfl with ⟨slots, hslots, hagain⟩
      have hkeys : ∀ m ∈ before, m.1 ≠ f.name :=
        fun m hm heq => hname (heq ▸ rest.keys m (List.mem_append_left after hm))
      refine ⟨(some value, slots), .cons (readMember_here part)
        (hslots.there hkeys (some value)), fun key hkey w => ?_⟩
      rcases List.mem_cons.mp hkey with rfl | hkey
      · exact readMember_repeated w
      · rcases List.mem_map.mp hkey with ⟨m, hm, rfl⟩
        exact readMember_there (some value) (hkeys m hm) (hagain m.1 hkey w)
  | @absent f fs make value members made omitted rest ih =>
    rcases List.nodup_cons.mp hnames with ⟨hname, hrest⟩
    rcases ih hrest hmembers with ⟨slots, hslots, hagain⟩
    have hkeys : ∀ m ∈ before, m.1 ≠ f.name := fun m hm heq =>
      hname (heq ▸ rest.keys m (hmembers ▸ List.mem_append_left after hm))
    refine ⟨(none, slots), hslots.there hkeys none, fun key hkey w => ?_⟩
    rcases List.mem_map.mp hkey with ⟨m, hm, rfl⟩
    exact readMember_there none (hkeys m hm) (hagain m.1 hkey w)

/-- Members behind others. -/
theorem ReadsMembers.append {slots slots' : Slots fs} {front back : List (String × List Char)}
    {result : Except Fault (Slots fs)} (h : ReadsMembers inner fs slots front (.ok slots'))
    (hback : ReadsMembers inner fs slots' back result) :
    ReadsMembers inner fs slots (front ++ back) result := by
  generalize hok : Except.ok slots' = ok at h
  induction h with
  | nil slots =>
    cases hok
    exact hback
  | cons member _ ih => exact .cons member (ih hok)
  | stop member => cases hok

/-- The keys and texts of members. -/
abbrev memberTexts (members : List (String × Document)) : List (String × List Char) :=
  members.map fun m => (m.1, m.2.chars)

/-- A part that is not read ends the reading of its record. -/
theorem Recorded.stuck {P : (t : Ty) → t.Val → Document → Prop}
    {before after : List (String × Document)} {key : String} {d d' : Document} {fault : Fault}
    (h : Recorded P fs make (before ++ (key, d) :: after) made) (hfields : ∀ f ∈ fs, f.Conforms)
    (hbefore : ∀ m ∈ before, ∀ t value, P t value m.2 → ReadsText inner t value m.2.chars)
    (hpart : ∀ t value, P t value d → Reads (inner t) d'.chars (.error fault)) :
    Parts inner fs make (memberTexts (before ++ (key, d') :: after)) (.error fault) := by
  generalize hmembers : before ++ (key, d) :: after = members at h
  induction h generalizing before with
  | nil value => simp at hmembers
  | @present f fs make value d members made part rest ih =>
    rcases List.forall_mem_cons.mp hfields with ⟨hf, hrest⟩
    cases before with
    | nil =>
      cases hmembers
      exact .stuck (hpart _ _ part) (List.forall_mem_map.mpr rest.keys)
    | cons m before =>
      cases hmembers
      rcases List.forall_mem_cons.mp hbefore with ⟨hm, hbefore⟩
      exact .present (hm _ _ part) (ih hrest hbefore rfl)
  | absent omitted rest ih =>
    rcases List.forall_mem_cons.mp hfields with ⟨hf, hrest⟩
    exact .absent (hf.default? omitted) (ih hrest hbefore hmembers)

end Members

/-! ## Damaged records -/

/-- The change makes every record fail with the fault. It cannot be made to the objects that stand
for variants. -/
structure Damages (edit : List (String × Document) → List (String × Document) → Prop)
    (fault : Fault) : Prop where
  variant : ∀ {name : String} {d : Document} {members' : List (String × Document)},
    edit [(name, d)] members' → name ∉ variantNames
  record : ∀ {α : Type} {r : Record α} {inner : (t : Ty) → Reader t.Val}
    {members members' : List (String × Document)} {made : α}, edit members members' →
    r.Conforms → Recorded (ReadsText inner) r.fields r.make (memberTexts members) made →
    Reads (readRecord (some inner) r) (Document.object members').chars (.error fault)

theorem damages_deletes {key : String} (homissible : key ∉ omissible)
    (hvariant : key ∉ variantNames) : Damages (Deletes key) (.missingField key) where
  variant := by
    rintro name d members' ⟨before, value, after, hmembers, -⟩
    -- The only member of the object is the deleted one.
    have hkey : (key, value) ∈ [(name, d)] := by rw [hmembers]; simp
    cases List.mem_singleton.mp hkey
    exact hvariant
  record := by
    rintro α r inner members members' made ⟨before, value, after, rfl, rfl⟩ hr h
    rw [memberTexts, List.map_append, List.map_cons] at h
    rw [chars_object_eq, List.map_append]
    exact reads_record_parts (h.deleted hr.fields homissible) hr.nodup

theorem damages_repeats {key : String} (hvariant : key ∉ variantNames) :
    Damages (Repeats key) (.duplicateField key) where
  variant := by
    rintro name d members' ⟨before, again, after, hkey, hmembers, -⟩
    rcases List.mem_map.mp hkey with ⟨m, hm, rfl⟩
    have hmem : m ∈ [(name, d)] := hmembers ▸ List.mem_append_left after hm
    cases List.mem_singleton.mp hmem
    exact hvariant
  record := by
    rintro α r inner members members' made ⟨before, again, after, hkey, rfl, rfl⟩ hr h
    rw [memberTexts, List.map_append] at h
    rcases h.front hr.nodup with ⟨slots, hslots, hagain⟩
    have hread : ReadsMembers inner r.fields (Slots.empty r.fields)
        (memberTexts before ++ (key, again.chars) :: memberTexts after)
        (.error (.duplicateField key)) :=
      hslots.append (.stop (hagain key (by simpa using hkey) (':' :: again.chars)))
    rw [chars_object_eq, List.map_append, List.map_cons]
    exact reads_record blanks_nil (writeMembers_compact _) hread

/-! ## Damaged documents -/

theorem mapM_eq_error {ι : Type} {result : ι → Except Fault α} {before after : List ι} {i : ι}
    {fault : Fault} (hbefore : ∀ j ∈ before, ∃ value, result j = .ok value)
    (hi : result i = .error fault) : (before ++ i :: after).mapM result = .error fault := by
  induction before with
  | nil =>
    rw [List.nil_append, List.mapM_cons, hi]
    rfl
  | cons j before ih =>
    rcases List.forall_mem_cons.mp hbefore with ⟨⟨value, hvalue⟩, hrest⟩
    rw [List.cons_append, List.mapM_cons, hvalue, ih hrest]
    rfl

theorem Written.readsText {t : Ty} {value : t.Val} {d : Document} (h : Written t value d)
    {levels : Nat} (hdepth : d.depth ≤ levels) :
    ReadsText (readValue levels) t value d.chars := by
  have hread := h.stores levels
  rwa [within, if_pos hdepth] at hread

/-- A list is read up to the first item that is not. -/
theorem reads_list_error {inner : (t : Ty) → Reader t.Val} {t : Ty} {document : t.Val → Document}
    {before after : List t.Val} {d : Document} {fault : Fault}
    (hvalues : ∀ value ∈ before ++ after, ReadsText inner t value (document value).chars)
    (hd : Reads (inner t) d.chars (.error fault)) :
    Reads (readList (some inner) t)
      (Document.array (before.map document ++ d :: after.map document)).chars (.error fault) := by
  let item (value : t.Val) : Document × Except Fault t.Val := (document value, .ok value)
  let items := before.map item ++ (d, .error fault) :: after.map item
  have hitems : ∀ i ∈ items, Reads (inner t) i.1.chars i.2 := by
    rcases List.forall_mem_append.mp hvalues with ⟨hbefore, hafter⟩
    exact List.forall_mem_append.mpr ⟨List.forall_mem_map.mpr hbefore,
      List.forall_mem_cons.mpr ⟨hd, List.forall_mem_map.mpr hafter⟩⟩
  have hread : Reads (readList (some inner) t) (arrayChars [] (items.map fun i => i.1.chars))
      (items.mapM Prod.snd) :=
    reads_list blanks_nil (fun i _ => begins_chars i.1) hitems
  have herror : items.mapM Prod.snd = .error fault := mapM_eq_error (by simp [item]) rfl
  rw [herror] at hread
  simpa [items, item, Document.chars_array, arrayChars, Function.comp_def] using hread

section Inversion

variable {edit : List (String × Document) → List (String × Document) → Prop} {d' : Document}

theorem Edits.of_array {items : List Document} (h : Edits edit (.array items) d') :
    ∃ before d after d₁, items = before ++ d :: after ∧ Edits edit d d₁ ∧
      d' = .array (before ++ d₁ :: after) := by
  cases h with
  | item h => exact ⟨_, _, _, _, rfl, h, rfl⟩

theorem Edits.of_object {members : List (String × Document)} (h : Edits edit (.object members) d') :
    (∃ members', edit members members' ∧ d' = .object members') ∨
      ∃ before key d after d₁, members = before ++ (key, d) :: after ∧ Edits edit d d₁ ∧
        d' = .object (before ++ (key, d₁) :: after) := by
  cases h with
  | here h => exact Or.inl ⟨_, h, rfl⟩
  | member h => exact Or.inr ⟨_, _, _, _, _, rfl, h, rfl⟩

end Inversion

/-- The fault of a damaged record is the fault of the document it stands in. -/
theorem Written.reads_edited {edit : List (String × Document) → List (String × Document) → Prop}
    {fault : Fault} (hedit : Damages edit fault) {t : Ty} {value : t.Val} {d d' : Document}
    (h : Written t value d) (hd : Edits edit d d') {levels : Nat} (hdepth : d.depth ≤ levels) :
    Reads (readValue levels t) d'.chars (.error fault) := by
  -- Along the way to the damaged record, what stands before it is read as stored.
  induction h generalizing d' levels with
  | text s => cases hd
  | flag b => cases hd
  | word32 n => cases hd
  | bareVariant ht hv => cases hd
  | optional ht h ih =>
    have hread := ih hd hdepth
    rcases skipBlanks_chars d' with ⟨c, w, hchars, _, hnull⟩
    rw [readValue_eq] at hread ⊢
    exact reads_optional hchars hnull hread
  | @list t document values h ih =>
    cases levels with
    | zero =>
      rw [Document.depth_array] at hdepth
      cases hdepth
    | succ levels =>
      obtain ⟨before, d, after, d₁, hitems, hd₁, rfl⟩ := hd.of_array
      obtain ⟨front, _, rfl, rfl, hback⟩ := List.map_eq_append_iff.mp hitems
      obtain ⟨v, back, rfl, rfl, rfl⟩ := List.map_eq_cons_iff.mp hback
      have hvalues : ∀ value ∈ front ++ v :: back, (document value).depth ≤ levels :=
        List.forall_mem_map.mp (Document.depth_array_le_iff.mp hdepth)
      have hv : v ∈ front ++ v :: back := by simp
      refine reads_list_error (fun value hvalue => ?_) (ih v hv hd₁ (hvalues v hv))
      have hmem : value ∈ front ++ v :: back := by
        rcases List.mem_append.mp hvalue with hvalue | hvalue <;> simp [hvalue]
      exact (h value hmem).readsText (hvalues value hmem)
  | @variant t content variants name make value d ht hv h ih =>
    cases levels with
    | zero =>
      rw [slotDocument, Document.depth_object] at hdepth
      cases hdepth
    | succ levels =>
      have hcontent : d.depth ≤ levels :=
        Document.depth_object_le_iff.mp hdepth (name, d) List.mem_cons_self
      rcases hd.of_object with ⟨members', hmembers, -⟩ | ⟨before, key, e, after, d₁, heq, hd₁, rfl⟩
      · exact absurd ((Ty.conforms ht).carrying _ hv rfl) (hedit.variant hmembers)
      · -- The object has one member, so that is where the change takes place.
        obtain ⟨rfl, hmember⟩ | ⟨_, hback⟩ := List.cons_eq_append_iff.mp heq
        · cases hmember
          rw [chars_object_eq, readValue_eq, readWith_eq_readShape ht]
          exact reads_variant ((Ty.conforms ht).find? hv) (writes_compactMember (name, d₁.chars))
            (ih hd₁ hcontent)
        · simp at hback
  | @record t β r made value members P ht hparts h ih =>
    cases levels with
    | zero =>
      rw [Document.depth_object] at hdepth
      cases hdepth
    | succ levels =>
      have hmembers := Document.depth_object_le_iff.mp hdepth
      have hreads : ∀ m ∈ members, ∀ t value, P t value m.2 →
          ReadsText (readValue levels) t value m.2.chars :=
        fun m hm t value hpart => (hparts t value m.2 hpart).readsText (hmembers m hm)
      refine ht.reads ?_
      rcases hd.of_object with ⟨members', hchange, rfl⟩ | ⟨before, key, d, after, d₁, rfl, hd₁, rfl⟩
      · exact hedit.record hchange ht.conforms (h.map Document.chars hreads)
      · rw [chars_object_eq]
        refine reads_record_parts (h.stuck ht.conforms.fields ?_ ?_) ht.conforms.nodup
        · exact fun m hm => hreads m (List.mem_append_left _ hm)
        · intro t value hpart
          exact ih t value d hpart hd₁ (hmembers (key, d) (by simp))

/-- A stored tree with one record damaged is refused, and the fault names the member: one that must
be present is missed where it was deleted, and one that stands twice is refused as repeated. Only
the objects of variants have keys in `variantNames`; by `Record.Conforms.names` no record has. -/
theorem loadTree_damaged (t : TreeType) (x : t.Val) (hx : Resolved (t.toNode x))
    (hnesting : nesting (storeTree t x) ≤ 127) (key : String) (hkey : key ∉ variantNames)
    (d : Document) :
    (Edits (Deletes key) (t.toDocument x) d → key ∉ omissible →
      ∃ e, loadTree t d.render = .error e ∧ e.fault = .missingField key ∧
        e.fault.message = "missing field `" ++ key ++ "`") ∧
    (Edits (Repeats key) (t.toDocument x) d →
      ∃ e, loadTree t d.render = .error e ∧ e.fault = .duplicateField key ∧
        e.fault.message = "duplicate field `" ++ key ++ "`") := by
  rw [storeTree, nesting_render] at hnesting
  have hfault : ∀ {edit fault}, Damages edit fault → Edits edit (t.toDocument x) d →
      ∃ e, loadTree t d.render = .error e ∧ e.fault = fault := by
    intro edit fault hedit hd
    have hread := (written_tree t x hx).reads_edited hedit hd hnesting
    exact exists_error_of_mapError (load_of_reads hread)
  constructor
  · intro hd homissible
    obtain ⟨e, hload, hcause⟩ := hfault (damages_deletes homissible hkey) hd
    exact ⟨e, hload, hcause, by rw [hcause]; rfl⟩
  · intro hd
    obtain ⟨e, hload, hcause⟩ := hfault (damages_repeats hkey) hd
    exact ⟨e, hload, hcause, by rw [hcause]; rfl⟩

/-- An assignment of a number. -/
def plainAssign : Assign := ⟨.ident ⟨"x", {}⟩, .literal ⟨"42", .integer 42, {}⟩, {}⟩

theorem resolved_plainAssign : Resolved (.assign plainAssign) := by
  intro l hl
  simp [plainAssign, Node.preorder_eq, Node.children, AssignTarget.toNode, Expr.toNode] at hl
  subst hl
  rfl

/-- The assignment with the text of its literal deleted. -/
def textlessAssign : Document :=
  .object [("target", .object [("Ident", .object [("name", .text "x")])]),
    ("value", .object [("Literal", .object [])])]

/-- The assignment with two names for its target. -/
def twiceNamedAssign : Document :=
  .object [("target", .object [("Ident", .object [("name", .text "x"), ("name", .text "y")])]),
    ("value", .object [("Literal", .object [("text", .text "42")])])]

theorem loadTree_damaged_assign :
    (∃ e, loadTree (.node .assign) textlessAssign.render = .error e ∧
      e.fault = .missingField "text" ∧ e.fault.message = "missing field `text`") ∧
    ∃ e, loadTree (.node .assign) twiceNamedAssign.render = .error e ∧
      e.fault = .duplicateField "name" ∧ e.fault.message = "duplicate field `name`" := by
  have hnesting : nesting (storeTree (.node .assign) plainAssign) ≤ 127 := by decide
  have hdamaged := loadTree_damaged (.node .assign) plainAssign resolved_plainAssign hnesting
  constructor
  · have hrecord : Edits (Deletes "text") (.object [("text", .text "42")]) (.object []) :=
      .here ⟨[], _, [], rfl, rfl⟩
    have hedits : Edits (Deletes "text") (TreeType.toDocument (.node .assign) plainAssign)
        textlessAssign :=
      @Edits.member _ [_] [] "value" _ _ (@Edits.member _ [] [] "Literal" _ _ hrecord)
    exact (hdamaged "text" (by decide) textlessAssign).1 hedits (by decide)
  · have hrecord : Edits (Repeats "name") (.object [("name", .text "x")])
        (.object [("name", .text "x"), ("name", .text "y")]) :=
      .here ⟨[("name", .text "x")], _, [], by decide, rfl, rfl⟩
    have hedits : Edits (Repeats "name") (TreeType.toDocument (.node .assign) plainAssign)
        twiceNamedAssign :=
      @Edits.member _ [] [_] "target" _ _ (@Edits.member _ [] [] "Ident" _ _ hrecord)
    exact (hdamaged "name" (by decide) twiceNamedAssign).2 hedits

end Stored
end PascalTree
