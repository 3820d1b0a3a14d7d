import PascalTree.Proofs.Json.Skips
import PascalTree.Proofs.Stored.Stores

/-!
# RecordForms — the two forms of records, in all their variants

As an object, a record may have its members in any order and unknown members between them. As a
list, it has its fields in their order and may end before fields that can be left out.

* `Puts`, `PutsAll.perm`: what members do to the slots of a record does not depend on their order;
* `reads_record_object`: known members in any order, and unknown ones;
* `Listed`, `reads_record_list`: the fields by their position.
-/

namespace PascalTree
namespace Stored

open Json

variable {α ι : Type} {inner : (t : Ty) → Reader t.Val}

/-! ## Members and slots -/

/-- What a member does to the slots of a record: it fills an empty one, or it is unknown. -/
inductive Puts (inner : (t : Ty) → Reader t.Val) :
    (fs : List Field) → String × List Char → Slots fs → Slots fs → Prop where
  | stranger {m : String × List Char} (value : Reads skipValue m.2 (.ok ())) : Puts inner [] m () ()
  | here {f : Field} {fs : List Field} {w : List Char} {value : f.type.Val} {slots : Slots fs}
      (part : ReadsText inner f.type value w) :
      Puts inner (f :: fs) (f.name, w) (none, slots) (some value, slots)
  | there {f : Field} {fs : List Field} {m : String × List Char} {slot : Option f.type.Val}
      {slots slots' : Slots fs} (key : m.1 ≠ f.name) (rest : Puts inner fs m slots slots') :
      Puts inner (f :: fs) m (slot, slots) (slot, slots')

theorem Puts.reads {fs : List Field} {m : String × List Char} {slots slots' : Slots fs}
    (h : Puts inner fs m slots slots') :
    Reads (readMember inner m.1 fs slots) (':' :: m.2) (.ok slots') := by
  induction h with
  | stranger value => exact reads_colon value
  | here part => exact readMember_here part
  | @there f fs m slot slots slots' key rest ih => exact readMember_there slot key ih

/-- Two members can change places. -/
theorem Puts.swap {fs : List Field} {m m' : String × List Char} {slots slots₁ slots₂ : Slots fs}
    (h : Puts inner fs m slots slots₁) (h' : Puts inner fs m' slots₁ slots₂) :
    ∃ slots₁', Puts inner fs m' slots slots₁' ∧ Puts inner fs m slots₁' slots₂ := by
  -- The two members never meet in a slot: one that is filled takes no second member.
  induction h generalizing m' with
  | stranger value =>
    cases h' with
    | stranger value' => exact ⟨(), .stranger value', .stranger value⟩
  | here part =>
    cases h' with
    | there key rest => exact ⟨_, .there key rest, .here part⟩
  | there key rest ih =>
    cases h' with
    | here part => exact ⟨_, .here part, .there key rest⟩
    | there key' rest' =>
      rcases ih rest' with ⟨slots, hfirst, hsecond⟩
      exact ⟨_, .there key' hfirst, .there key hsecond⟩

/-- What several members do to the slots, one after the other. -/
inductive PutsAll (inner : (t : Ty) → Reader t.Val) (fs : List Field) :
    List (String × List Char) → Slots fs → Slots fs → Prop where
  | nil (slots : Slots fs) : PutsAll inner fs [] slots slots
  | cons {m : String × List Char} {members : List (String × List Char)}
      {slots slots₁ slots₂ : Slots fs} (first : Puts inner fs m slots slots₁)
      (rest : PutsAll inner fs members slots₁ slots₂) : PutsAll inner fs (m :: members) slots slots₂

namespace PutsAll

variable {fs : List Field} {members members' : List (String × List Char)} {slots slots' : Slots fs}

/-- The order of the members does not matter. -/
theorem perm (hperm : members.Perm members') (h : PutsAll inner fs members slots slots') :
    PutsAll inner fs members' slots slots' := by
  induction hperm generalizing slots with
  | nil => exact h
  | cons m _ ih =>
    cases h with
    | cons first rest => exact .cons first (ih rest)
  | swap m m' members =>
    cases h with
    | cons first rest =>
      cases rest with
      | cons second rest =>
        rcases first.swap second with ⟨slots₁, hfirst, hsecond⟩
        exact .cons hfirst (.cons hsecond rest)
  | trans _ _ ih ih' => exact ih' (ih h)

theorem append {slots₁ : Slots fs} (h : PutsAll inner fs members slots slots₁)
    (h' : PutsAll inner fs members' slots₁ slots') :
    PutsAll inner fs (members ++ members') slots slots' := by
  induction h with
  | nil slots => exact h'
  | cons first _ ih => exact .cons first (ih h')

theorem readsMembers (h : PutsAll inner fs members slots slots') :
    ReadsMembers inner fs slots members (.ok slots') := by
  induction h with
  | nil slots => exact .nil slots
  | cons first _ ih => exact .cons first.reads ih

/-- Members of other names leave a field alone. -/
theorem there {f : Field} (h : PutsAll inner fs members slots slots')
    (hkeys : ∀ m ∈ members, m.1 ≠ f.name) (slot : Option f.type.Val) :
    PutsAll inner (f :: fs) members (slot, slots) (slot, slots') := by
  induction h with
  | nil slots => exact @PutsAll.nil inner (f :: fs) (slot, slots)
  | cons first rest ih =>
    rcases List.forall_mem_cons.mp hkeys with ⟨hfirst, hrest⟩
    exact .cons (.there hfirst first) (ih hrest)

end PutsAll

/-- An unknown member leaves all slots alone. -/
theorem puts_stranger {fs : List Field} {m : String × List Char}
    (hkey : m.1 ∉ fs.map Field.name) (hvalue : Reads skipValue m.2 (.ok ())) (slots : Slots fs) :
    Puts inner fs m slots slots := by
  induction fs with
  | nil => exact .stranger hvalue
  | cons f fs ih =>
    rw [List.map_cons, List.mem_cons, not_or] at hkey
    exact .there hkey.1 (ih hkey.2 slots.2)

/-- Members in the order of the fields fill the slots from which the value is made. -/
theorem Recorded.putsAll {fs : List Field} {make : Maker α fs} {made : α}
    {members : List (String × List Char)} (h : Recorded (ReadsText inner) fs make members made)
    (hfields : ∀ f ∈ fs, f.Conforms) (hnames : (fs.map Field.name).Nodup) :
    ∃ slots, PutsAll inner fs members (Slots.empty fs) slots ∧
      Slots.complete fs make slots = .ok made := by
  induction h with
  | nil value => exact ⟨(), @PutsAll.nil inner [] (), rfl⟩
  | @present f fs make value w members made part rest ih =>
    rcases List.nodup_cons.mp hnames with ⟨hname, hnames⟩
    rcases ih (List.forall_mem_cons.mp hfields).2 hnames with ⟨slots, hslots, hcomplete⟩
    have hkeys : ∀ m ∈ members, m.1 ≠ f.name := fun m hm heq => hname (heq ▸ rest.keys m hm)
    exact ⟨(some value, slots), .cons (.here part) (hslots.there hkeys (some value)), hcomplete⟩
  | @absent f fs make value members made omitted rest ih =>
    rcases List.nodup_cons.mp hnames with ⟨hname, hnames⟩
    rcases List.forall_mem_cons.mp hfields with ⟨hf, hfields⟩
    rcases ih hfields hnames with ⟨slots, hslots, hcomplete⟩
    have hkeys : ∀ m ∈ members, m.1 ≠ f.name := fun m hm heq => hname (heq ▸ rest.keys m hm)
    refine ⟨(none, slots), hslots.there hkeys none, ?_⟩
    simpa [Slots.complete, hf.default? omitted] using hcomplete

/-- A record is read from an object with its members in any order, among unknown ones. -/
theorem reads_record_object {r : Record α} (hr : r.Conforms) {gap : List Char}
    {written : List MemberText} {given known strangers : List (String × List Char)} {made : α}
    (hgap : Blanks gap) (hwritten : WriteMembers written given)
    (hperm : given.Perm (known ++ strangers))
    (hknown : Recorded (ReadsText inner) r.fields r.make known made)
    (hstrangers : ∀ m ∈ strangers,
      m.1 ∉ r.fields.map Field.name ∧ Reads skipValue m.2 (.ok ())) :
    Reads (readRecord (some inner) r) (objectChars gap written) (.ok made) := by
  -- Known members in the order of the fields and then unknown ones, from where any order follows.
  rcases hknown.putsAll hr.fields hr.nodup with ⟨slots, hputs, hcomplete⟩
  have hrest : PutsAll inner r.fields strangers slots slots := by
    clear hperm
    induction strangers with
    | nil => exact .nil slots
    | cons m strangers ih =>
      rcases List.forall_mem_cons.mp hstrangers with ⟨⟨hkey, hvalue⟩, hstrangers⟩
      exact .cons (puts_stranger hkey hvalue slots) (ih hstrangers)
  have hread := reads_record hgap hwritten ((hputs.append hrest).perm hperm.symm).readsMembers
  rwa [show (Except.ok slots).bind (Slots.complete r.fields r.make) = .ok made from hcomplete]
    at hread

/-! ## Fields by position -/

/-- The fields of a record in their order, each with a part to which `P` relates its value. The list
may end before fields that may be left out. -/
inductive Listed (P : (t : Ty) → t.Val → ι → Prop) :
    (fs : List Field) → Maker α fs → List ι → α → Prop where
  | nil (value : α) : Listed P [] value [] value
  | next {f : Field} {fs : List Field} {make : Maker α (f :: fs)} {value : f.type.Val} {d : ι}
      {parts : List ι} {made : α} (part : P f.type value d)
      (rest : Listed P fs (make value) parts made) : Listed P (f :: fs) make (d :: parts) made
  | cut {f : Field} {fs : List Field} {make : Maker α (f :: fs)} {value : f.type.Val} {made : α}
      (omitted : f.Omits value) (rest : Listed P fs (make value) [] made) :
      Listed P (f :: fs) make [] made

section Listed

variable {fs : List Field} {make : Maker α fs} {made : α}

theorem Listed.mono {P Q : (t : Ty) → t.Val → ι → Prop} {parts : List ι}
    (h : Listed P fs make parts made) (hparts : ∀ d ∈ parts, ∀ t value, P t value d → Q t value d) :
    Listed Q fs make parts made := by
  induction h with
  | nil value => exact .nil value
  | next part rest ih =>
    rcases List.forall_mem_cons.mp hparts with ⟨hpart, hrest⟩
    exact .next (hpart _ _ part) (ih hrest)
  | cut omitted rest ih => exact .cut omitted (ih hparts)

theorem Listed.exists_part {P : (t : Ty) → t.Val → ι → Prop} {parts : List ι}
    (h : Listed P fs make parts made) {d : ι} (hd : d ∈ parts) : ∃ t value, P t value d := by
  induction h with
  | nil value => cases hd
  | next part rest ih =>
    rcases List.mem_cons.mp hd with rfl | hd
    · exact ⟨_, _, part⟩
    · exact ih hd
  | cut omitted rest ih => cases hd

/-- Fields that are left out at the end have their defaults. -/
theorem Listed.completeDefaults {P : (t : Ty) → t.Val → ι → Prop} {parts : List ι}
    (h : Listed P fs make parts made) (hparts : parts = []) (hfields : ∀ f ∈ fs, f.Conforms)
    (name : String) (size index : Nat) :
    Stored.completeDefaults name size index fs make = .ok made := by
  induction h generalizing index with
  | nil value => rfl
  | next part rest ih => cases hparts
  | cut omitted rest ih =>
    rcases List.forall_mem_cons.mp hfields with ⟨hf, hfields⟩
    rw [Stored.completeDefaults, hf.default? omitted]
    exact ih rfl hfields (index + 1)

theorem Listed.ends {ws : List (List Char)} (h : Listed (ReadsText inner) fs make ws made)
    (hfields : ∀ f ∈ fs, f.Conforms) (hws : ∀ w ∈ ws, Begins w) {name : String} {size index : Nat}
    {s rest : List Char} (hs : skipBlanks s = skipBlanks (joined (index == 0) ws ++ ']' :: rest)) :
    (readPositional name size inner index fs make s).Ends (']' :: rest) (.ok made) := by
  -- `index` counts the fields that were read, so only the first one has no comma before it.
  induction h generalizing index s with
  | nil value => exact ⟨s, rfl, hs⟩
  | @next f fs make value w ws made part listed ih =>
    rcases List.forall_mem_cons.mp hws with ⟨hw, hws⟩
    rw [joined, List.append_assoc] at hs
    have hnext := nextElement_more hw hs
    have hread := part (skipBlanks (w ++ (joined false ws ++ ']' :: rest))) _
      (stops_joined (Or.inl rfl) ws rest) (skipBlanks_skipBlanks _)
    have hrest : ((inner f.type (skipBlanks (w ++ (joined false ws ++ ']' :: rest)))).bind
        fun value => readPositional name size inner (index + 1) fs (make value)).Ends (']' :: rest)
          ((Except.ok value).bind fun _ => .ok made) := by
      refine hread.bind fun value' s' hvalue' hs' => ?_
      cases hvalue'
      exact ih (List.forall_mem_cons.mp hfields).2 hws hs'
    rw [readPositional, Reader.bind_apply, hnext]
    exact hrest
  | @cut f fs make value made omitted listed ih =>
    have hdefaults := (Listed.cut omitted listed).completeDefaults rfl hfields name size index
    rw [readPositional, Reader.bind_apply, nextElement_end hs]
    simp only [Outcome.bind_done, Bool.false_eq_true, if_false, hdefaults]
    exact Outcome.ends_done

end Listed

/-- A record is read from the list of its fields. -/
theorem reads_record_list {r : Record α} (hr : r.Conforms) {gap : List Char}
    {ws : List (List Char)} {made : α} (hgap : Blanks gap) (hws : ∀ w ∈ ws, Begins w)
    (h : Listed (ReadsText inner) r.fields r.make ws made) :
    Reads (readRecord (some inner) r) (arrayChars gap ws) (.ok made) := by
  apply reads_startValue rfl
  intro rest _
  apply Outcome.Ends.settle
  rw [List.append_assoc, List.append_assoc, List.singleton_append, ← joined_true]
  have hread : (readPositional r.name r.fields.length inner 0 r.fields r.make
      (gap ++ (joined true ws ++ ']' :: rest))).Ends (']' :: rest) (.ok made) :=
    h.ends hr.fields hws (skipBlanks_blanks_append hgap _)
  exact hread.closedBy fun s' hs' => endList_eq hs'

end Stored
end PascalTree
