import PascalTree.Proofs.Json.Reads
import PascalTree.Stored.Read

/-!
# Reads — how lists, records and enumerations are read

The readers of composed values are specified by what the readers of their parts do:

* `reads_list`: the elements in turn, up to the first fault;
* `ReadsMembers`, `reads_record`: the members of an object in turn, whatever their order;
* `Parts`, `reads_record_parts`: members in the order of the fields, some left to their defaults;
* `reads_variant`, `reads_bareVariant`: the two forms of enumerations.

Where no bracket may be opened any more, all of them end with the same fault.
-/

namespace PascalTree
namespace Stored

open Json

variable {α ι : Type}

/-- The text is read as the value. -/
abbrev ReadsText (inner : (t : Ty) → Reader t.Val) (t : Ty) (value : t.Val) (w : List Char) :
    Prop :=
  Reads (inner t) w (.ok value)

/-! ## Lists -/

/-- A text that an element of a list can begin with. -/
def Begins (w : List Char) : Prop := ∃ c w', skipBlanks w = c :: w' ∧ c ≠ ']'

theorem ne_nil_of_begins {w : List Char} (h : Begins w) : w ≠ [] := by
  rintro rfl
  rcases h with ⟨c, w', heq, _⟩
  cases heq

theorem nextElement_more {first : Bool} {w rest s : List Char} (hw : Begins w)
    (hs : skipBlanks s = skipBlanks ((if first then w else ',' :: w) ++ rest)) :
    nextElement first s = .done true (skipBlanks (w ++ rest)) := by
  rcases hw with ⟨c, w', heq, hclose⟩
  have hcons := skipBlanks_append heq rest
  have hcomma : isBlank ',' = false := rfl
  cases first with
  | true =>
    simp only [if_true, hcons] at hs
    simp [nextElement, hs, hcons]
  | false =>
    simp only [Bool.false_eq_true, if_false, List.cons_append, skipBlanks_cons hcomma] at hs
    simp only [nextElement, hs]
    simp [hcons, hclose]

theorem nextElement_end {first : Bool} {rest s : List Char}
    (hs : skipBlanks s = skipBlanks (']' :: rest)) :
    nextElement first s = .done false (']' :: rest) := by
  rw [skipBlanks_cons rfl] at hs
  simp only [nextElement, hs]

theorem elementStep_more {element : Reader α} {acc : List α} {w mid s : List Char}
    {result : Except Fault α} (hw : Begins w) (h : Reads element w result) (hmid : Stops mid)
    (hs : skipBlanks s = skipBlanks ((if acc.isEmpty then w else ',' :: w) ++ mid)) :
    (elementStep element acc s).Ends mid ((result.map (· :: acc)).map .inl) := by
  have hnext := nextElement_more hw hs
  have hread := (h.map fun value => (.inl (value :: acc) : List α ⊕ List α))
    (skipBlanks (w ++ mid)) mid hmid (skipBlanks_skipBlanks _)
  have hmap : (result.map (· :: acc)).map .inl =
      result.map fun value => (.inl (value :: acc) : List α ⊕ List α) := by
    cases result <;> rfl
  rw [hmap]
  simpa [elementStep, hnext] using hread

/-- The elements of a list are read in turn, up to the first fault. -/
theorem readElements {element : Reader α} {items : List ι} {text : ι → List Char}
    {result : ι → Except Fault α} (hitems : ∀ i ∈ items, Begins (text i))
    (hreads : ∀ i ∈ items, Reads element (text i) (result i)) {acc : List α}
    {budget s rest : List Char} (hbudget : items.length ≤ budget.length)
    (hs : skipBlanks s = skipBlanks (joined acc.isEmpty (items.map text) ++ ']' :: rest)) :
    (Reader.iterateWithin (elementStep element) budget acc s).Ends (']' :: rest)
      ((items.mapM result).map (acc.reverse ++ ·)) := by
  induction items generalizing acc budget s with
  | nil =>
    have hend : elementStep element acc s = .done (.inr acc.reverse) (']' :: rest) := by
      simp [elementStep, nextElement_end hs]
    simpa [pure, Except.pure, Except.map] using iterateWithin_last hend
  | cons i items ih =>
    cases budget with
    | nil => cases hbudget
    | cons c budget =>
      rw [List.map_cons, joined, List.append_assoc] at hs
      have hstep := elementStep_more (hitems i List.mem_cons_self) (hreads i List.mem_cons_self)
        (stops_joined (Or.inl rfl) _ rest) hs
      have hsplit : ((i :: items).mapM result).map (acc.reverse ++ ·) =
          ((result i).map (· :: acc)).bind fun acc' =>
            (items.mapM result).map (acc'.reverse ++ ·) := by
        rw [List.mapM_cons]
        cases result i with
        | error fault => rfl
        | ok value =>
          cases items.mapM result with
          | error fault => rfl
          | ok values => simp [bind, Except.bind, Except.map, pure, Except.pure]
      rw [hsplit]
      refine iterateWithin_next _ hstep fun acc' s' hacc' hs' => ?_
      -- An element has been read, so the next one stands behind a comma.
      have hnonempty : acc'.isEmpty = false := by
        cases hi : result i with
        | error fault => simp [hi, Except.map] at hacc'
        | ok value =>
          simp only [hi, Except.map, Except.ok.injEq] at hacc'
          simp [← hacc']
      exact ih (fun j hj => hitems j (List.mem_cons_of_mem i hj))
        (fun j hj => hreads j (List.mem_cons_of_mem i hj)) (Nat.le_of_succ_le_succ hbudget)
        (by rw [hnonempty]; exact hs')

theorem endList_eq {rest s : List Char} (hs : skipBlanks s = skipBlanks (']' :: rest)) :
    endList s = .done () rest := by
  rw [skipBlanks_cons rfl] at hs
  simp only [endList, hs]

theorem reads_list {inner : (t : Ty) → Reader t.Val} {t : Ty} {gap : List Char} {items : List ι}
    {text : ι → List Char} {result : ι → Except Fault t.Val} (hgap : Blanks gap)
    (hitems : ∀ i ∈ items, Begins (text i))
    (hreads : ∀ i ∈ items, Reads (inner t) (text i) (result i)) :
    Reads (readList (some inner) t) (arrayChars gap (items.map text)) (items.mapM result) := by
  apply reads_startValue rfl
  intro rest _
  apply Outcome.Ends.settle
  rw [List.append_assoc, List.append_assoc, List.singleton_append, ← joined_true]
  have hlength : items.length ≤ (gap ++ (joined true (items.map text) ++ ']' :: rest)).length := by
    have hroom : (items.map text).length ≤ (joined true (items.map text)).length :=
      length_le_joined (List.forall_mem_map.mpr fun i hi => ne_nil_of_begins (hitems i hi)) true
    rw [List.length_map] at hroom
    simp only [List.length_append]
    omega
  have hread : (Reader.iterate (elementStep (inner t)) []
      (gap ++ (joined true (items.map text) ++ ']' :: rest))).Ends (']' :: rest)
        ((items.mapM result).map ([] ++ ·)) :=
    readElements hitems hreads hlength (skipBlanks_blanks_append hgap _)
  have hmap : (items.mapM result).map ([] ++ ·) = items.mapM result := by
    cases items.mapM result <;> rfl
  rw [hmap] at hread
  exact hread.closedBy fun s' hs' => endList_eq hs'

theorem reads_list_tooDeep {t : Ty} (w : List Char) :
    Reads (readList none t) ('[' :: w) (.error .nestedTooDeep) :=
  reads_startValue rfl fun _ _ => rfl

/-! ## Members of objects -/

/-- A member as it is written compactly. -/
def compactMember (m : String × List Char) : MemberText :=
  ⟨[], m.1.toList.flatMap escapeChar, [], m.2⟩

theorem writes_compactMember (m : String × List Char) : (compactMember m).Writes m.1 m.2 :=
  ⟨⟨blanks_nil, blanks_nil⟩, spells_escaped m.1.toList, rfl⟩

/-- The compact text of an object with the given members. -/
def objectText (members : List (String × List Char)) : List Char :=
  objectChars [] (members.map compactMember)

/-- Members as they are written, with their keys and the texts of their values. -/
abbrev WriteMembers (written : List MemberText) (members : List (String × List Char)) : Prop :=
  List.Forall₂ (fun m member => m.Writes member.1 member.2) written members

theorem writeMembers_compact (members : List (String × List Char)) :
    WriteMembers (members.map compactMember) members := by
  rw [WriteMembers, List.forall₂_map_left_iff, List.forall₂_same]
  exact fun m _ => writes_compactMember m

theorem reads_colon {reader : Reader α} {w : List Char} {result : Except Fault α}
    (h : Reads reader w result) : Reads (readColon >>= fun _ => reader) (':' :: w) result := by
  intro s rest hrest hs
  rw [List.cons_append, skipBlanks_cons rfl] at hs
  have hcolon : readColon s = .done () (w ++ rest) := by
    simp only [readColon, hs]
  simpa [hcolon] using h (w ++ rest) rest hrest rfl

theorem nextKey_more {first : Bool} {m : MemberText} {key : String} {w rest s : List Char}
    (hm : m.Writes key w)
    (hs : skipBlanks s = skipBlanks ((if first then m.chars else ',' :: m.chars) ++ rest)) :
    nextKey first s = .done (some key) (m.after ++ ':' :: (w ++ rest)) := by
  have hquote : isBlank '"' = false := rfl
  have hcomma : isBlank ',' = false := rfl
  have hkey : skipBlanks (m.chars ++ rest) =
      '"' :: (m.key ++ '"' :: (m.after ++ ':' :: (w ++ rest))) := by
    rw [MemberText.chars, List.append_assoc, skipBlanks_blanks_append hm.spaced.1, ← hm.value]
    simp [skipBlanks_cons hquote]
  cases first with
  | true =>
    simp only [if_true, hkey] at hs
    simp [nextKey, hs, readTextTail_spells hm.key]
  | false =>
    simp only [Bool.false_eq_true, if_false, List.cons_append, skipBlanks_cons hcomma] at hs
    simp [nextKey, hs, hkey, readTextTail_spells hm.key]

theorem nextKey_end {first : Bool} {rest s : List Char}
    (hs : skipBlanks s = skipBlanks ('}' :: rest)) :
    nextKey first s = .done none ('}' :: rest) := by
  rw [skipBlanks_cons rfl] at hs
  simp only [nextKey, hs]

section Members

variable {inner : (t : Ty) → Reader t.Val} {key : String} {f : Field} {fs : List Field}

/-- The member of a field that has not been read. -/
theorem readMember_here {slots : Slots fs} {w : List Char} {result : Except Fault f.type.Val}
    (h : Reads (inner f.type) w result) :
    Reads (readMember inner f.name (f :: fs) (none, slots)) (':' :: w)
      (result.map fun value => (some value, slots)) := by
  have hread := reads_colon (h.map fun value => ((some value, slots) : Slots (f :: fs)))
  simpa [readMember] using hread

/-- A member passes by the fields of other names. -/
theorem readMember_there (slot : Option f.type.Val) {slots : Slots fs} {w : List Char}
    {result : Except Fault (Slots fs)} (hkey : key ≠ f.name)
    (h : Reads (readMember inner key fs slots) w result) :
    Reads (readMember inner key (f :: fs) (slot, slots)) w (result.map (slot, ·)) := by
  have hread := h.map fun slots => ((slot, slots) : Slots (f :: fs))
  simpa [readMember, hkey] using hread

/-- How the members of an object are read in turn into the fields of a record. -/
inductive ReadsMembers (inner : (t : Ty) → Reader t.Val) (fs : List Field) :
    Slots fs → List (String × List Char) → Except Fault (Slots fs) → Prop where
  | nil (slots : Slots fs) : ReadsMembers inner fs slots [] (.ok slots)
  | cons {slots slots' : Slots fs} {key : String} {w : List Char}
      {members : List (String × List Char)} {result : Except Fault (Slots fs)}
      (member : Reads (readMember inner key fs slots) (':' :: w) (.ok slots'))
      (rest : ReadsMembers inner fs slots' members result) :
      ReadsMembers inner fs slots ((key, w) :: members) result
  | stop {slots : Slots fs} {key : String} {w : List Char} {members : List (String × List Char)}
      {fault : Fault} (member : Reads (readMember inner key fs slots) (':' :: w) (.error fault)) :
      ReadsMembers inner fs slots ((key, w) :: members) (.error fault)

theorem memberStep_more {first : Bool} {slots : Slots fs} {m : MemberText} {w mid s : List Char}
    {result : Except Fault (Slots fs)} (hm : m.Writes key w)
    (h : Reads (readMember inner key fs slots) (':' :: w) result) (hmid : Stops mid)
    (hs : skipBlanks s = skipBlanks ((if first then m.chars else ',' :: m.chars) ++ mid)) :
    (memberStep inner fs (first, slots) s).Ends mid ((result.map (false, ·)).map .inl) := by
  have hread := (h.map fun slots => (.inl (false, slots) : Bool × Slots fs ⊕ Slots fs))
    (m.after ++ ':' :: (w ++ mid)) mid hmid (skipBlanks_blanks_append hm.spaced.2 _)
  have hmap : (result.map (false, ·)).map .inl =
      result.map fun slots => (.inl (false, slots) : Bool × Slots fs ⊕ Slots fs) := by
    cases result <;> rfl
  rw [hmap]
  simpa [memberStep, nextKey_more hm hs] using hread

/-- The members of an object are read in turn, up to the first fault. -/
theorem ReadsMembers.ends {slots : Slots fs} {members : List (String × List Char)}
    {result : Except Fault (Slots fs)} (h : ReadsMembers inner fs slots members result)
    {written : List MemberText} (hwritten : WriteMembers written members) {first : Bool}
    {budget s rest : List Char} (hbudget : members.length ≤ budget.length)
    (hs : skipBlanks s = skipBlanks (joined first (written.map MemberText.chars) ++ '}' :: rest)) :
    (Reader.iterateWithin (memberStep inner fs) budget (first, slots) s).Ends ('}' :: rest)
      result := by
  induction h generalizing written first budget s with
  | nil slots =>
    cases hwritten
    apply iterateWithin_last
    simp [memberStep, nextKey_end hs]
  | @cons slots slots' key w members result member _ ih =>
    obtain _ | ⟨hm, hmembers⟩ := hwritten
    cases budget with
    | nil => cases hbudget
    | cons c budget =>
      rw [List.map_cons, joined, List.append_assoc] at hs
      have hstep := memberStep_more hm member (stops_joined (Or.inr rfl) _ rest) hs
      refine iterateWithin_next (fun _ => result) hstep fun state' s' hstate' hs' => ?_
      cases hstate'
      exact ih hmembers (Nat.le_of_succ_le_succ hbudget) hs'
  | @stop slots key w members fault member =>
    obtain _ | ⟨hm, _⟩ := hwritten
    cases budget with
    | nil => cases hbudget
    | cons c budget =>
      rw [List.map_cons, joined, List.append_assoc] at hs
      have hstep := memberStep_more hm member (stops_joined (Or.inr rfl) _ rest) hs
      refine iterateWithin_next (fun _ => .error fault) hstep fun state' s' hstate' _ => ?_
      cases hstate'

end Members

/-! ## Records -/

theorem endObject_eq {rest s : List Char} (hs : skipBlanks s = skipBlanks ('}' :: rest)) :
    endObject s = .done () rest := by
  rw [skipBlanks_cons rfl] at hs
  simp only [endObject, hs]

/-- A record is made of what the members of an object leave in its fields. -/
theorem reads_record {inner : (t : Ty) → Reader t.Val} {r : Record α} {gap : List Char}
    {written : List MemberText} {members : List (String × List Char)}
    {slots : Except Fault (Slots r.fields)} (hgap : Blanks gap)
    (hwritten : WriteMembers written members)
    (h : ReadsMembers inner r.fields (Slots.empty r.fields) members slots) :
    Reads (readRecord (some inner) r) (objectChars gap written)
      (slots.bind (Slots.complete r.fields r.make)) := by
  apply reads_startValue rfl
  intro rest _
  apply Outcome.Ends.settle
  rw [List.append_assoc, List.append_assoc, List.singleton_append, ← joined_true]
  have hlength : members.length ≤
      (gap ++ (joined true (written.map MemberText.chars) ++ '}' :: rest)).length := by
    have hroom : (written.map MemberText.chars).length ≤
        (joined true (written.map MemberText.chars)).length :=
      length_le_joined (List.forall_mem_map.mpr fun m _ => by simp [MemberText.chars]) true
    rw [List.length_map, hwritten.length_eq] at hroom
    simp only [List.length_append]
    omega
  have hmembers : (Reader.iterate (memberStep inner r.fields) (true, Slots.empty r.fields)
      (gap ++ (joined true (written.map MemberText.chars) ++ '}' :: rest))).Ends ('}' :: rest)
        slots :=
    h.ends hwritten hlength (skipBlanks_blanks_append hgap _)
  have hread : (readMembers r inner
      (gap ++ (joined true (written.map MemberText.chars) ++ '}' :: rest))).Ends ('}' :: rest)
        (slots.bind (Slots.complete r.fields r.make)) := by
    refine hmembers.bind fun value s' _ hs' => ?_
    -- A missing field is noticed before the closing bracket is taken.
    cases Slots.complete r.fields r.make value with
    | ok made => exact ⟨s', rfl, hs'⟩
    | error fault => rfl
  exact hread.closedBy fun s' hs' => endObject_eq hs'

theorem reads_record_tooDeep (r : Record α) (w : List Char) :
    Reads (readRecord none r) ('{' :: w) (.error .nestedTooDeep) :=
  reads_startValue rfl fun _ _ => rfl

/-- Members in the order of the fields of a record, up to the first fault. What is not written is
left to the default of its field, or missing. -/
inductive Parts (inner : (t : Ty) → Reader t.Val) :
    (fs : List Field) → Maker α fs → List (String × List Char) → Except Fault α → Prop where
  | nil (value : α) : Parts inner [] value [] (.ok value)
  | present {f : Field} {fs : List Field} {make : Maker α (f :: fs)} {value : f.type.Val}
      {w : List Char} {members : List (String × List Char)} {result : Except Fault α}
      (part : Reads (inner f.type) w (.ok value))
      (rest : Parts inner fs (make value) members result) :
      Parts inner (f :: fs) make ((f.name, w) :: members) result
  | stuck {f : Field} {fs : List Field} {make : Maker α (f :: fs)} {w : List Char}
      {members : List (String × List Char)} {fault : Fault}
      (part : Reads (inner f.type) w (.error fault))
      (rest : ∀ m ∈ members, m.1 ∈ fs.map Field.name) :
      Parts inner (f :: fs) make ((f.name, w) :: members) (.error fault)
  | absent {f : Field} {fs : List Field} {make : Maker α (f :: fs)} {value : f.type.Val}
      {members : List (String × List Char)} {result : Except Fault α}
      (default : f.default? = some value) (rest : Parts inner fs (make value) members result) :
      Parts inner (f :: fs) make members result
  | missing {f : Field} {fs : List Field} {make : Maker α (f :: fs)} {value : f.type.Val}
      {members : List (String × List Char)} {made : α} (required : f.default? = none)
      (rest : Parts inner fs (make value) members (.ok made)) :
      Parts inner (f :: fs) make members (.error (.missingField f.name))

section Parts

variable {inner : (t : Ty) → Reader t.Val} {f : Field} {fs : List Field}
  {members : List (String × List Char)}

theorem Parts.keys {make : Maker α fs} {result : Except Fault α}
    (h : Parts inner fs make members result) : ∀ m ∈ members, m.1 ∈ fs.map Field.name := by
  induction h with
  | nil value => simp
  | present part rest ih =>
    intro m hm
    rcases List.mem_cons.mp hm with rfl | hm
    · exact List.mem_cons_self
    · exact List.mem_cons_of_mem _ (ih m hm)
  | stuck part rest =>
    intro m hm
    rcases List.mem_cons.mp hm with rfl | hm
    · exact List.mem_cons_self
    · exact List.mem_cons_of_mem _ (rest m hm)
  | absent default rest ih => exact fun m hm => List.mem_cons_of_mem _ (ih m hm)
  | missing required rest ih => exact fun m hm => List.mem_cons_of_mem _ (ih m hm)

/-- Members of other names leave a field alone. -/
theorem ReadsMembers.there {slots : Slots fs} {result : Except Fault (Slots fs)}
    (h : ReadsMembers inner fs slots members result) (hkeys : ∀ m ∈ members, m.1 ≠ f.name)
    (slot : Option f.type.Val) :
    ReadsMembers inner (f :: fs) (slot, slots) members (result.map (slot, ·)) := by
  induction h with
  | nil slots => exact @ReadsMembers.nil inner (f :: fs) (slot, slots)
  | cons member rest ih =>
    have hmember := readMember_there slot (hkeys _ List.mem_cons_self) member
    exact .cons hmember (ih fun m hm => hkeys m (List.mem_cons_of_mem _ hm))
  | stop member => exact .stop (readMember_there slot (hkeys _ List.mem_cons_self) member)

theorem Parts.readsMembers {make : Maker α fs} {result : Except Fault α}
    (h : Parts inner fs make members result) (hnames : (fs.map Field.name).Nodup) :
    ∃ slots, ReadsMembers inner fs (Slots.empty fs) members slots ∧
      slots.bind (Slots.complete fs make) = result := by
  induction h with
  | nil value => exact ⟨.ok (), @ReadsMembers.nil inner [] (), rfl⟩
  | @present f fs make value w members result part rest ih =>
    rcases List.nodup_cons.mp hnames with ⟨hname, hrest⟩
    rcases ih hrest with ⟨slots, hslots, hcomplete⟩
    -- No two fields share a name, so the members behind this one pass it by.
    have hkeys : ∀ m ∈ members, m.1 ≠ f.name :=
      fun m hm heq => hname (heq ▸ rest.keys m hm)
    refine ⟨slots.map (some value, ·), .cons (readMember_here part) (hslots.there hkeys _), ?_⟩
    cases slots <;> exact hcomplete
  | @stuck f fs make w members fault part rest =>
    exact ⟨.error fault, .stop (readMember_here part), rfl⟩
  | @absent f fs make value members result default rest ih =>
    rcases List.nodup_cons.mp hnames with ⟨hname, hrest⟩
    rcases ih hrest with ⟨slots, hslots, hcomplete⟩
    have hkeys : ∀ m ∈ members, m.1 ≠ f.name :=
      fun m hm heq => hname (heq ▸ rest.keys m hm)
    refine ⟨slots.map (none, ·), hslots.there hkeys none, ?_⟩
    rw [← hcomplete]
    cases slots with
    | error fault => rfl
    | ok slots => simp [Except.map, Except.bind, Slots.complete, default]
  | @missing f fs make value members made required rest ih =>
    rcases List.nodup_cons.mp hnames with ⟨hname, hrest⟩
    rcases ih hrest with ⟨slots, hslots, hcomplete⟩
    have hkeys : ∀ m ∈ members, m.1 ≠ f.name :=
      fun m hm heq => hname (heq ▸ rest.keys m hm)
    refine ⟨slots.map (none, ·), hslots.there hkeys none, ?_⟩
    -- The other members are read, and only then the field is missed.
    cases slots with
    | error fault => cases hcomplete
    | ok slots => simp [Except.map, Except.bind, Slots.complete, required]

end Parts

theorem reads_record_parts {inner : (t : Ty) → Reader t.Val} {r : Record α}
    {members : List (String × List Char)} {result : Except Fault α}
    (h : Parts inner r.fields r.make members result) (hnames : (r.fields.map Field.name).Nodup) :
    Reads (readRecord (some inner) r) (objectText members) result := by
  rcases h.readsMembers hnames with ⟨slots, hslots, rfl⟩
  exact reads_record blanks_nil (writeMembers_compact members) hslots

/-- The value of a record is made behind the record, where it may be refused. -/
theorem reads_checked {nested : Nested} {r : Record (Except BuildError α)} {w : List Char}
    {result : Except Fault (Except BuildError α)} (h : Reads (readRecord nested r) w result) :
    Reads (readChecked nested r) w (result.bind fun made => made.mapError .refused) := by
  intro s rest hrest hs
  refine (h s rest hrest hs).bind fun made s' _ hs' => ?_
  cases made with
  | ok value => exact ⟨s', rfl, hs'⟩
  | error error => rfl

/-! ## Enumerations -/

theorem readVariantName_eq {variants : List (Variant α)} {name : String} {variant : Variant α}
    {content : List Char} (h : variants.find? (fun v => v.name == name) = some variant)
    (hname : Spells content name.toList) (rest : List Char) :
    readVariantName variants (content ++ '"' :: rest) = .done variant rest := by
  simp [readVariantName, readTextTail_spells hname, h]

theorem endVariant_eq {rest s : List Char} (hs : skipBlanks s = skipBlanks ('}' :: rest)) :
    endVariant s = .done () rest := by
  rw [skipBlanks_cons rfl] at hs
  simp only [endVariant, hs]

/-- A variant with content is read from the object with its name as the only key. -/
theorem reads_variant {inner : (t : Ty) → Reader t.Val} {variants : List (Variant α)}
    {name : String} {t : Ty} {make : t.Val → α} {m : MemberText} {w : List Char}
    {result : Except Fault t.Val}
    (hfind : variants.find? (fun v => v.name == name) = some (.carrying name t make))
    (hm : m.Writes name w) (h : Reads (inner t) w result) :
    Reads (readChoice (some inner) variants) (objectChars [] [m]) (result.map make) := by
  apply reads_startValue rfl
  intro rest _
  have htext : [] ++ (commaJoin ([m].map MemberText.chars) ++ ['}']) ++ rest =
      m.before ++ '"' :: (m.key ++ '"' :: (m.after ++ ':' :: (w ++ '}' :: rest))) := by
    simp [commaJoin, MemberText.chars, hm.value]
  rw [htext]
  have hmember : (readVariantMember variants inner
      (m.before ++ '"' :: (m.key ++ '"' :: (m.after ++ ':' :: (w ++ '}' :: rest))))).Ends
        ('}' :: rest) (result.map make) := by
    have hcontent := reads_colon (h.map make) (m.after ++ ':' :: (w ++ '}' :: rest)) ('}' :: rest)
      (stops_closing (Or.inr rfl) rest) (skipBlanks_blanks_append hm.spaced.2 _)
    -- The name is looked up before its content is read.
    simp only [readVariantMember, skipBlanks_blanks_append hm.spaced.1,
      skipBlanks_cons (c := '"') rfl, readVariantName_eq hfind hm.key, Outcome.bind_done]
    exact hcontent
  have hmap : (result.map make).bind .ok = result.map make := by
    cases result <;> rfl
  rw [← hmap]
  refine hmember.bind fun value s' _ hs' => ?_
  simpa [endVariant_eq hs'] using Outcome.ends_done

/-- A bare variant is read from its name. -/
theorem reads_bareVariant {nested : Nested} {variants : List (Variant α)} {name : String}
    {value : α} {w : List Char}
    (hfind : variants.find? (fun v => v.name == name) = some (.bare name value))
    (hw : Quotes w name) : Reads (readChoice nested variants) w (.ok value) := by
  rcases hw with ⟨content, hcontent, rfl⟩
  apply reads_startValue rfl
  intro rest _
  simp only [List.append_assoc, List.singleton_append, readVariantName_eq hfind hcontent,
    Outcome.bind_done]
  exact Outcome.ends_done

theorem reads_choice_tooDeep (variants : List (Variant α)) (w : List Char) :
    Reads (readChoice none variants) ('{' :: w) (.error .nestedTooDeep) :=
  reads_startValue rfl fun _ _ => rfl

/-! ## Options -/

/-- What stands there is read for a present value, unless it is `null`. -/
theorem reads_optional {reader : Reader α} {c : Char} {w w' : List Char} {result : Except Fault α}
    (hw : skipBlanks w = c :: w') (hnull : c ≠ 'n') (h : Reads reader w result) :
    Reads (readOptional reader) w (result.map some) := by
  intro s rest hrest hs
  have hcons := skipBlanks_append hw rest
  have hread := h.map some (c :: (w' ++ rest)) rest hrest (by rw [← hcons, skipBlanks_skipBlanks])
  unfold readOptional
  rw [hs, hcons]
  split
  · -- Only `null` is taken for an absent value.
    rename_i heq
    cases heq
    exact absurd rfl hnull
  · exact hread

end Stored
end PascalTree
