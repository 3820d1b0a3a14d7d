import PascalTree.Proofs.Stored.Conventions
import PascalTree.Proofs.Stored.Reads
import PascalTree.Stored.Write

/-!
# Stores — documents that stand for values

`Written t value d` says that the document `d` is put together as values of type `t` are stored.
`Stores t value d` says how the document `d`, written compactly, is read as a value of type `t` with
any number of levels: as `value` if the levels suffice for its depth, and otherwise with the fault
for deep nesting.

* `within`: what the levels let reading end with;
* `stores_list`, `stores_variant`, …: documents composed of documents;
* `Recorded`, `stores_record`: the members of a record, those equal to a default left out;
* `Written.stores`: what is put together as values are stored is read back.
-/

namespace PascalTree
namespace Stored

open Json

variable {α ι : Type}

/-! ## Levels -/

/-- What reading ends with where at most `levels` brackets may be open at a time and `depth` are. -/
def within (levels depth : Nat) (value : α) : Except Fault α :=
  if depth ≤ levels then .ok value else .error .nestedTooDeep

theorem within_zero_succ (depth : Nat) (value : α) :
    within 0 (depth + 1) value = .error .nestedTooDeep := by
  simp [within]

theorem within_succ_succ (levels depth : Nat) (value : α) :
    within (levels + 1) (depth + 1) value = within levels depth value := by
  simp [within]

theorem map_within {β : Type} (levels depth : Nat) (value : α) (f : α → β) :
    (within levels depth value).map f = within levels depth (f value) := by
  unfold within
  split <;> rfl

theorem within_max_of_le {levels a : Nat} (h : a ≤ levels) (b : Nat) (value : α) :
    within levels (max a b) value = within levels b value := by
  simp only [within, Nat.max_le, h, true_and]

theorem within_max_of_not_le {levels a : Nat} (h : ¬ a ≤ levels) (b : Nat) (value : α) :
    within levels (max a b) value = .error .nestedTooDeep := by
  simp only [within, Nat.max_le, h, false_and, if_false]

/-- Of several parts, the first one that is too deep gives the fault. -/
theorem mapM_within (levels : Nat) (depth : ι → Nat) (items : List ι) :
    items.mapM (fun i => within levels (depth i) i) =
      within levels ((items.map depth).foldr max 0) items := by
  induction items with
  | nil => simp [within, pure, Except.pure]
  | cons i items ih =>
    rw [List.mapM_cons, ih, List.map_cons, List.foldr_cons]
    by_cases hi : depth i ≤ levels
    · rw [within_max_of_le hi, within, if_pos hi]
      exact map_within levels _ items (i :: ·)
    · rw [within_max_of_not_le hi, within, if_neg hi]
      rfl

/-- The readers for what is nested where `levels` brackets may be opened. -/
def nestedAt : Nat → Nested
  | 0 => none
  | levels + 1 => some (readValue levels)

theorem readValue_eq (levels : Nat) : readValue levels = readWith (nestedAt levels) := by
  cases levels <;> rfl

/-! ## Documents and their values -/

/-- The document stands for the value: it is read back, if the levels suffice. -/
def Stores (t : Ty) (value : t.Val) (d : Document) : Prop :=
  ∀ levels, Reads (readValue levels t) d.chars (within levels d.depth value)

/-- No document begins with a closing bracket or the letter of `null`. -/
theorem skipBlanks_chars (d : Document) :
    ∃ c w, skipBlanks d.chars = c :: w ∧ c ≠ ']' ∧ c ≠ 'n' := by
  cases d with
  | flag b =>
    cases b with
    | true => exact ⟨'t', _, rfl, by decide, by decide⟩
    | false => exact ⟨'f', _, rfl, by decide, by decide⟩
  | number n =>
    rcases toDigits_eq_digit_cons n with ⟨c, ds, hds, hdigit⟩
    refine ⟨c, ds, ?_, ?_, ?_⟩
    · rw [Document.chars_number, hds, skipBlanks_cons (isBlank_of_isDigit hdigit)]
    · rintro rfl
      exact absurd hdigit (by decide)
    · rintro rfl
      exact absurd hdigit (by decide)
  | text s => exact ⟨'"', _, by rw [Document.chars_text]; rfl, by decide, by decide⟩
  | array items => exact ⟨'[', _, by rw [Document.chars_array]; rfl, by decide, by decide⟩
  | object members => exact ⟨'{', _, by rw [Document.chars_object]; rfl, by decide, by decide⟩

theorem begins_chars (d : Document) : Begins d.chars := by
  rcases skipBlanks_chars d with ⟨c, w, hchars, hclose, _⟩
  exact ⟨c, w, hchars, hclose⟩

theorem stores_text (s : String) : Stores .text s (.text s) := by
  intro levels
  rw [readValue_eq, Document.chars_text]
  exact reads_text s

theorem stores_flag (b : Bool) : Stores .flag b (.flag b) := by
  intro levels
  rw [readValue_eq]
  exact reads_flag b

theorem stores_word32 (n : UInt32) : Stores .word32 n (.number n.toNat) := by
  intro levels
  rw [readValue_eq]
  exact reads_word32 n

theorem stores_optional {t : Ty} {value : t.Val} {d : Document} (h : Stores t value d) :
    Stores (.optional t) (some value) d := by
  intro levels
  have hread := h levels
  rw [readValue_eq] at hread ⊢
  rcases skipBlanks_chars d with ⟨c, w, hchars, _, hnull⟩
  rw [← map_within]
  exact reads_optional hchars hnull hread

theorem stores_list (t : Ty) (document : t.Val → Document) {values : List t.Val}
    (h : ∀ value ∈ values, Stores t value (document value)) :
    Stores (.list t) values (.array (values.map document)) := by
  intro levels
  rw [Document.chars_array, Document.depth_array, List.map_map, List.map_map]
  cases levels with
  | zero =>
    -- Not even the bracket of the list may be opened.
    rw [within_zero_succ]
    exact reads_list_tooDeep _
  | succ levels =>
    rw [within_succ_succ, ← mapM_within]
    exact reads_list blanks_nil (fun value _ => begins_chars (document value))
      fun value hvalue => h value hvalue levels

/-! ## Records -/

/-- Members that give the fields of a record in their order, each with a part to which `P` relates
the value of its field. The fields that are left out may be. -/
inductive Recorded (P : (t : Ty) → t.Val → ι → Prop) :
    (fs : List Field) → Maker α fs → List (String × ι) → α → Prop where
  | nil (value : α) : Recorded P [] value [] value
  | present {f : Field} {fs : List Field} {make : Maker α (f :: fs)} {value : f.type.Val} {d : ι}
      {members : List (String × ι)} {made : α} (part : P f.type value d)
      (rest : Recorded P fs (make value) members made) :
      Recorded P (f :: fs) make ((f.name, d) :: members) made
  | absent {f : Field} {fs : List Field} {make : Maker α (f :: fs)} {value : f.type.Val}
      {members : List (String × ι)} {made : α} (omitted : f.Omits value)
      (rest : Recorded P fs (make value) members made) : Recorded P (f :: fs) make members made

namespace Recorded

variable {fs : List Field} {made : α}

theorem keys {P : (t : Ty) → t.Val → ι → Prop} {make : Maker α fs} {members : List (String × ι)}
    (h : Recorded P fs make members made) : ∀ m ∈ members, m.1 ∈ fs.map Field.name := by
  induction h with
  | nil value => simp
  | present part rest ih =>
    intro m hm
    rcases List.mem_cons.mp hm with rfl | hm
    · exact List.mem_cons_self
    · exact List.mem_cons_of_mem _ (ih m hm)
  | absent omitted rest ih => exact fun m hm => List.mem_cons_of_mem _ (ih m hm)

/-- Other parts for the same values. -/
theorem map {κ : Type} {P : (t : Ty) → t.Val → ι → Prop} {Q : (t : Ty) → t.Val → κ → Prop}
    {make : Maker α fs} {members : List (String × ι)} (g : ι → κ)
    (h : Recorded P fs make members made)
    (hparts : ∀ m ∈ members, ∀ t value, P t value m.2 → Q t value (g m.2)) :
    Recorded Q fs make (members.map fun m => (m.1, g m.2)) made := by
  induction h with
  | nil value => exact .nil value
  | present part rest ih =>
    rcases List.forall_mem_cons.mp hparts with ⟨hpart, hrest⟩
    exact .present (hpart _ _ part) (ih hrest)
  | absent omitted rest ih => exact .absent omitted (ih hparts)

theorem mono {P Q : (t : Ty) → t.Val → ι → Prop} {make : Maker α fs} {members : List (String × ι)}
    (h : Recorded P fs make members made)
    (hparts : ∀ m ∈ members, ∀ t value, P t value m.2 → Q t value m.2) :
    Recorded Q fs make members made := by
  simpa using h.map id hparts

theorem exists_part {P : (t : Ty) → t.Val → ι → Prop} {make : Maker α fs}
    {members : List (String × ι)} (h : Recorded P fs make members made) {m : String × ι}
    (hm : m ∈ members) : ∃ t value, P t value m.2 := by
  induction h with
  | nil value => cases hm
  | present part rest ih =>
    rcases List.mem_cons.mp hm with rfl | hm
    · exact ⟨_, _, part⟩
    · exact ih hm
  | absent omitted rest ih => exact ih hm

/-- The members are read up to the first one that is too deep. -/
theorem parts {make : Maker α fs} {members : List (String × Document)}
    (h : Recorded Stores fs make members made) (hfields : ∀ f ∈ fs, f.Conforms) (levels : Nat) :
    Parts (readValue levels) fs make (members.map fun m => (m.1, m.2.chars))
      (within levels ((members.map fun m => m.2.depth).foldr max 0) made) := by
  induction h with
  | nil value => simpa [within] using Parts.nil value
  | @present f fs make value d members made part rest ih =>
    have hpart := part levels
    rw [List.map_cons, List.map_cons, List.foldr_cons]
    by_cases hd : d.depth ≤ levels
    · rw [within, if_pos hd] at hpart
      rw [within_max_of_le hd]
      exact .present hpart (ih (List.forall_mem_cons.mp hfields).2)
    · -- A part that is too deep ends the reading; what stands behind it is not looked at.
      rw [within, if_neg hd] at hpart
      rw [within_max_of_not_le hd]
      refine .stuck hpart fun m hm => ?_
      rcases List.mem_map.mp hm with ⟨member, hmember, rfl⟩
      exact rest.keys member hmember
  | absent omitted rest ih =>
    rcases List.forall_mem_cons.mp hfields with ⟨hf, hrest⟩
    exact .absent (hf.default? omitted) (ih hrest)

end Recorded

theorem chars_object_eq (members : List (String × Document)) :
    (Document.object members).chars = objectText (members.map fun m => (m.1, m.2.chars)) := by
  have hmember : ∀ m : String × Document,
      Document.memberChars m = (compactMember (m.1, m.2.chars)).chars := by
    intro m
    simp [Document.memberChars, textChars, compactMember, MemberText.chars]
  rw [Document.chars_object, List.map_congr_left fun m _ => hmember m, objectText, objectChars,
    List.map_map, List.map_map]
  rfl

/-- A value is read where its record is. -/
theorem Ty.Builds.reads {t : Ty} {β : Type} {r : Record β} {made : t.Val → β} (h : t.Builds r made)
    {nested : Nested} {w : List Char} {result : Except Fault t.Val}
    (hread : Reads (readRecord nested r) w (result.map made)) :
    Reads (readWith nested t) w result := by
  cases h with
  | record h =>
    rw [readWith_eq_readShape h]
    have hmade : result.map id = result := by cases result <;> rfl
    rwa [hmade] at hread
  | checked h =>
    rw [readWith_eq_readShape h]
    have hmade : (result.map (Except.ok (ε := BuildError))).bind
        (fun made => made.mapError .refused) = result := by
      cases result <;> rfl
    rw [← hmade]
    exact reads_checked hread

theorem stores_record {t : Ty} {β : Type} {r : Record β} {made : t.Val → β}
    {members : List (String × Document)} {value : t.Val} (ht : t.Builds r made)
    (h : Recorded Stores r.fields r.make members (made value)) :
    Stores t value (.object members) := by
  intro levels
  rw [readValue_eq]
  apply ht.reads
  rw [map_within, Document.depth_object]
  cases levels with
  | zero =>
    rw [within_zero_succ]
    exact reads_record_tooDeep r _
  | succ levels =>
    rw [within_succ_succ, chars_object_eq]
    exact reads_record_parts (h.parts ht.conforms.fields levels) ht.conforms.nodup

/-! ## Enumerations -/

theorem stores_variant {t : Ty} {variants : List (Variant t.Val)} {content : Ty} {name : String}
    {make : content.Val → t.Val} {value : content.Val} {d : Document}
    (ht : t.shape? = some (.choice variants)) (hv : .carrying name content make ∈ variants)
    (h : Stores content value d) : Stores t (make value) (slotDocument name d) := by
  intro levels
  rw [readValue_eq, readWith_eq_readShape ht, slotDocument, Document.depth_object]
  cases levels with
  | zero =>
    rw [List.map_cons, within_zero_succ]
    exact reads_choice_tooDeep variants _
  | succ levels =>
    rw [within_succ_succ, chars_object_eq]
    have hdepth : ([(name, d)].map fun m => m.2.depth).foldr max 0 = d.depth := by
      simp
    rw [hdepth, ← map_within]
    exact reads_variant ((Ty.conforms ht).find? hv) (writes_compactMember (name, d.chars))
      (h levels)

theorem stores_bareVariant {t : Ty} {variants : List (Variant t.Val)} {name : String}
    {value : t.Val} (ht : t.shape? = some (.choice variants)) (hv : .bare name value ∈ variants) :
    Stores t value (.text name) := by
  intro levels
  rw [readValue_eq, readWith_eq_readShape ht, Document.chars_text]
  exact reads_bareVariant ((Ty.conforms ht).find? hv) (quotes_textChars name)

/-! ## How values are stored -/

/-- The document is put together as values of the type are stored. -/
inductive Written : (t : Ty) → t.Val → Document → Prop where
  | text (s : String) : Written .text s (.text s)
  | flag (b : Bool) : Written .flag b (.flag b)
  | word32 (n : UInt32) : Written .word32 n (.number n.toNat)
  | optional {t : Ty} {value : t.Val} {d : Document} (ht : t.isOptional = false)
      (h : Written t value d) : Written (.optional t) (some value) d
  | list {t : Ty} {document : t.Val → Document} {values : List t.Val}
      (h : ∀ value ∈ values, Written t value (document value)) :
      Written (.list t) values (.array (values.map document))
  | bareVariant {t : Ty} {variants : List (Variant t.Val)} {name : String} {value : t.Val}
      (ht : t.shape? = some (.choice variants)) (hv : .bare name value ∈ variants) :
      Written t value (.text name)
  | variant {t content : Ty} {variants : List (Variant t.Val)} {name : String}
      {make : content.Val → t.Val} {value : content.Val} {d : Document}
      (ht : t.shape? = some (.choice variants)) (hv : .carrying name content make ∈ variants)
      (h : Written content value d) : Written t (make value) (slotDocument name d)
  /-- All that is known of the parts is that they are put together in this way. -/
  | record {t : Ty} {β : Type} {r : Record β} {made : t.Val → β} {value : t.Val}
      {members : List (String × Document)} {P : (t : Ty) → t.Val → Document → Prop}
      (ht : t.Builds r made) (hparts : ∀ t value d, P t value d → Written t value d)
      (h : Recorded P r.fields r.make members (made value)) : Written t value (.object members)

theorem Written.stores {t : Ty} {value : t.Val} {d : Document} (h : Written t value d) :
    Stores t value d := by
  induction h with
  | text s => exact stores_text s
  | flag b => exact stores_flag b
  | word32 n => exact stores_word32 n
  | optional _ _ ih => exact stores_optional ih
  | list _ ih => exact stores_list _ _ ih
  | bareVariant ht hv => exact stores_bareVariant ht hv
  | variant ht hv _ ih => exact stores_variant ht hv ih
  | record ht _ h ih => exact stores_record ht (h.mono fun m _ t value => ih t value m.2)

theorem written_record (t : Ty) (r : Record t.Val) {members : List (String × Document)}
    {value : t.Val} (ht : t.shape? = some (.record r))
    (h : Recorded Written r.fields r.make members value) : Written t value (.object members) :=
  .record (.record ht) (fun _ _ _ hpart => hpart) h

/-- A slot keeps the name by which the variant of its content is found. -/
theorem written_variant (t : Ty) (variants : List (Variant t.Val)) {content : Ty} {name : String}
    {make : content.Val → t.Val} {value : content.Val} {d : Document}
    (ht : t.shape? = some (.choice variants))
    (hfind : variants.find? (fun v => v.name == name) = some (.carrying name content make))
    (h : Written content value d) : Written t (make value) (slotDocument name d) :=
  .variant ht (List.mem_of_find?_eq_some hfind) h

/-- A field whose value may be absent and is then left out. -/
theorem Recorded.optional {t : Ty} {fs : List Field} {key : String}
    {default? : Option (Option t.Val)}
    {make : Maker α (⟨key, .optional t, default?⟩ :: fs)} {value : Option t.Val}
    {document : t.Val → Document} {members : List (String × Document)} {made : α}
    (ht : t.isOptional = false) (hkey : key ∈ omissible)
    (part : ∀ x, value = some x → Written t x (document x))
    (rest : Recorded Written fs (make value) members made) :
    Recorded Written (⟨key, .optional t, default?⟩ :: fs) make
      (value.toList.map (fun x => (key, document x)) ++ members) made := by
  cases value with
  | none => exact .absent ⟨hkey, rfl⟩ rest
  | some x => exact .present (.optional ht (part x rfl)) rest

end Stored
end PascalTree
