import PascalTree.Proofs.Stored.RecordForms
import PascalTree.Proofs.Stored.RoundTrip

/-!
# Presentation — the many texts of a tree

A tree can be written in many ways that differ from the stored text. `Describes` gives the texts of
a value by rules, without reference to a reader: blanks stand anywhere between tokens, strings are
spelled in any way, records are objects with their members in any order among unknown ones, or
lists of their fields, and what equals its default is written or left out.

* `Describes`: the texts of a value, with a bound on the brackets that are open at a time;
* `Describes.reads`: such a text is read as the value;
* `Written.describes`: the stored text is one of them;
* `Describes.tight`: without unknown members the nesting of the text is such a bound;
* `loadTree_of_describes`, `loadTree_of_describes_known`: whole texts.
-/

namespace PascalTree
namespace Stored

open Json

/-- The text stands for the value. At most `depth` brackets are open at a time, those in the values
of unknown members apart, which are texts that `foreign` holds of. -/
inductive Describes (foreign : List Char → Prop) :
    (t : Ty) → t.Val → (depth : Nat) → List Char → Prop where
  | padded {t : Ty} {value : t.Val} {depth : Nat} {before w after : List Char}
      (hbefore : Blanks before) (hafter : Blanks after) (h : Describes foreign t value depth w) :
      Describes foreign t value depth (before ++ w ++ after)
  | text {s : String} {depth : Nat} {w : List Char} (h : Quotes w s) :
      Describes foreign .text s depth w
  | flag (b : Bool) (depth : Nat) :
      Describes foreign .flag b depth
        (if b then ['t', 'r', 'u', 'e'] else ['f', 'a', 'l', 's', 'e'])
  | word32 (n : UInt32) (depth : Nat) :
      Describes foreign .word32 n depth (Nat.toDigits 10 n.toNat)
  | absent (t : Ty) (depth : Nat) :
      Describes foreign (.optional t) none depth ['n', 'u', 'l', 'l']
  | present {t : Ty} {value : t.Val} {depth : Nat} {w : List Char} (ht : t.isOptional = false)
      (h : Describes foreign t value depth w) : Describes foreign (.optional t) (some value) depth w
  | list {t : Ty} {depth : Nat} {gap : List Char} {items : List (t.Val × List Char)}
      (hgap : Blanks gap) (h : ∀ i ∈ items, Describes foreign t i.1 depth i.2) :
      Describes foreign (.list t) (items.map Prod.fst) (depth + 1)
        (arrayChars gap (items.map Prod.snd))
  | bareVariant {t : Ty} {variants : List (Variant t.Val)} {name : String} {value : t.Val}
      {depth : Nat} {w : List Char} (ht : t.shape? = some (.choice variants))
      (hv : .bare name value ∈ variants) (hw : Quotes w name) : Describes foreign t value depth w
  /-- A variant with content is an object with its name as the only key. -/
  | variant {t content : Ty} {variants : List (Variant t.Val)} {name : String}
      {make : content.Val → t.Val} {value : content.Val} {depth : Nat} {m : MemberText}
      {w : List Char} (ht : t.shape? = some (.choice variants))
      (hv : .carrying name content make ∈ variants) (hm : m.Writes name w)
      (h : Describes foreign content value depth w) :
      Describes foreign t (make value) (depth + 1) (objectChars [] [m])
  /-- The members of the fields, of which those with defaults may be missing, and unknown members,
  in any order. Of the parts only `hparts` is known. -/
  | object {t : Ty} {β : Type} {r : Record β} {made : t.Val → β} {value : t.Val} {depth : Nat}
      {gap : List Char} {written : List MemberText}
      {given known strangers : List (String × List Char)}
      {P : (t : Ty) → t.Val → List Char → Prop} (ht : t.Builds r made) (hgap : Blanks gap)
      (hwritten : WriteMembers written given) (hperm : given.Perm (known ++ strangers))
      (hparts : ∀ t value w, P t value w → Describes foreign t value depth w)
      (hknown : Recorded P r.fields r.make known (made value))
      (hstrangers : ∀ m ∈ strangers, m.1 ∉ r.fields.map Field.name ∧ foreign m.2) :
      Describes foreign t value (depth + 1) (objectChars gap written)
  /-- The fields stand in their order, and at the end those with defaults may be dropped. -/
  | positional {t : Ty} {β : Type} {r : Record β} {made : t.Val → β} {value : t.Val} {depth : Nat}
      {gap : List Char} {ws : List (List Char)} {P : (t : Ty) → t.Val → List Char → Prop}
      (ht : t.Builds r made) (hgap : Blanks gap)
      (hparts : ∀ t value w, P t value w → Describes foreign t value depth w)
      (h : Listed P r.fields r.make ws (made value)) :
      Describes foreign t value (depth + 1) (arrayChars gap ws)

variable {foreign : List Char → Prop} {t : Ty} {value : t.Val} {depth : Nat} {w : List Char}

/-! ## Reading -/

/-- No text begins with a closing bracket, and only what may be absent begins like `null`. -/
theorem Describes.first (h : Describes foreign t value depth w) :
    ∃ c w', skipBlanks w = c :: w' ∧ c ≠ ']' ∧ (t.isOptional = false → c ≠ 'n') := by
  induction h with
  | @padded t value depth before w after hbefore hafter h ih =>
    rcases ih with ⟨c, w', hw, hc⟩
    exact ⟨c, w' ++ after, skipBlanks_padded hbefore hw after, hc⟩
  | text h =>
    rcases h with ⟨content, _, rfl⟩
    exact ⟨'"', _, rfl, by decide, by decide⟩
  | flag b depth =>
    cases b with
    | true => exact ⟨'t', _, rfl, by decide, by decide⟩
    | false => exact ⟨'f', _, rfl, by decide, by decide⟩
  | word32 n depth =>
    rcases toDigits_eq_digit_cons n.toNat with ⟨c, ds, hds, hdigit⟩
    refine ⟨c, ds, by rw [hds, skipBlanks_cons (isBlank_of_isDigit hdigit)], ?_, fun _ => ?_⟩
    · rintro rfl
      cases hdigit
    · rintro rfl
      cases hdigit
  | absent t depth => exact ⟨'n', _, rfl, by decide, nofun⟩
  | present ht h ih =>
    rcases ih with ⟨c, w', hw, hc, _⟩
    exact ⟨c, w', hw, hc, nofun⟩
  | list hgap h ih => exact ⟨'[', _, rfl, by decide, fun _ => by decide⟩
  | bareVariant ht hv hw =>
    rcases hw with ⟨content, _, rfl⟩
    exact ⟨'"', _, rfl, by decide, fun _ => by decide⟩
  | variant ht hv hm h ih => exact ⟨'{', _, rfl, by decide, fun _ => by decide⟩
  | object => exact ⟨'{', _, rfl, by decide, fun _ => by decide⟩
  | positional => exact ⟨'[', _, rfl, by decide, fun _ => by decide⟩

theorem Describes.begins (h : Describes foreign t value depth w) : Begins w := by
  rcases h.first with ⟨c, w', hw, hc, _⟩
  exact ⟨c, w', hw, hc⟩

theorem reads_null {α : Type} (reader : Reader α) :
    Reads (readOptional reader) ['n', 'u', 'l', 'l'] (.ok none) := by
  intro s rest _ hs
  have hnull : skipBlanks s = 'n' :: 'u' :: 'l' :: 'l' :: rest := hs
  unfold readOptional
  rw [hnull]
  exact Outcome.ends_done

/-- A text of a value is read as the value, whatever is written in unknown members. -/
theorem Describes.reads (hforeign : ∀ w, foreign w → Reads skipValue w (.ok ()))
    (h : Describes foreign t value depth w) {levels : Nat} (hdepth : depth ≤ levels) :
    Reads (readValue levels t) w (.ok value) := by
  -- Each bracket takes one of the levels that are left, as it takes one from `depth`.
  induction h generalizing levels with
  | padded hbefore hafter h ih => exact (ih hdepth).padded hbefore hafter
  | text h =>
    rw [readValue_eq]
    exact reads_quotes h
  | flag b depth =>
    rw [readValue_eq, ← Document.chars_flag]
    exact reads_flag b
  | word32 n depth =>
    rw [readValue_eq, ← Document.chars_number]
    exact reads_word32 n
  | absent t depth =>
    rw [readValue_eq]
    exact reads_null _
  | present ht h ih =>
    have hread := ih hdepth
    rcases h.first with ⟨c, w', hw, _, hnull⟩
    rw [readValue_eq] at hread ⊢
    exact reads_optional hw (hnull ht) hread
  | @list t depth gap items hgap h ih =>
    cases levels with
    | zero => cases hdepth
    | succ levels =>
      have hlevels := Nat.le_of_succ_le_succ hdepth
      have hresult : items.mapM (fun i => Except.ok (ε := Fault) i.1) = .ok (items.map Prod.fst) :=
        List.mapM_pure
      rw [← hresult]
      exact reads_list hgap (fun i hi => (h i hi).begins) fun i hi => ih i hi hlevels
  | bareVariant ht hv hw =>
    rw [readValue_eq, readWith_eq_readShape ht]
    exact reads_bareVariant ((Ty.conforms ht).find? hv) hw
  | variant ht hv hm h ih =>
    cases levels with
    | zero => cases hdepth
    | succ levels =>
      rw [readValue_eq, readWith_eq_readShape ht]
      exact reads_variant ((Ty.conforms ht).find? hv) hm (ih (Nat.le_of_succ_le_succ hdepth))
  | object ht hgap hwritten hperm hparts hknown hstrangers ih =>
    cases levels with
    | zero => cases hdepth
    | succ levels =>
      have hlevels := Nat.le_of_succ_le_succ hdepth
      refine ht.reads (reads_record_object ht.conforms hgap hwritten hperm
        (hknown.mono fun m _ t value hw => ih t value m.2 hw hlevels) fun m hm => ?_)
      exact ⟨(hstrangers m hm).1, hforeign m.2 (hstrangers m hm).2⟩
  | positional ht hgap hparts h ih =>
    cases levels with
    | zero => cases hdepth
    | succ levels =>
      have hlevels := Nat.le_of_succ_le_succ hdepth
      refine ht.reads (reads_record_list ht.conforms hgap ?_
        (h.mono fun w _ t value hw => ih t value w hw hlevels))
      intro w hw
      obtain ⟨t, value, hpart⟩ := h.exists_part hw
      exact (hparts t value w hpart).begins

/-! ## The stored text -/

/-- The stored text of a value is one of its texts. -/
theorem Written.describes {d : Document} (h : Written t value d) {depth : Nat}
    (hdepth : d.depth ≤ depth) : Describes foreign t value depth d.chars := by
  induction h generalizing depth with
  | text s =>
    rw [Document.chars_text]
    exact .text (quotes_textChars s)
  | flag b =>
    rw [Document.chars_flag]
    exact .flag b depth
  | word32 n =>
    rw [Document.chars_number]
    exact .word32 n depth
  | optional ht _ ih => exact .present ht (ih hdepth)
  | @list t document values h ih =>
    cases depth with
    | zero =>
      rw [Document.depth_array] at hdepth
      cases hdepth
    | succ depth =>
      have hitems := List.forall_mem_map.mp (Document.depth_array_le_iff.mp hdepth)
      have hlist : Describes foreign (.list t)
          ((values.map fun v => (v, (document v).chars)).map Prod.fst) (depth + 1)
          (arrayChars [] ((values.map fun v => (v, (document v).chars)).map Prod.snd)) :=
        .list blanks_nil (List.forall_mem_map.mpr fun v hv => ih v hv (hitems v hv))
      simpa [Document.chars_array, arrayChars, Function.comp_def] using hlist
  | bareVariant ht hv =>
    rw [Document.chars_text]
    exact .bareVariant ht hv (quotes_textChars _)
  | @variant t content variants name make value d ht hv h ih =>
    cases depth with
    | zero =>
      rw [slotDocument, Document.depth_object] at hdepth
      cases hdepth
    | succ depth =>
      have hcontent := Document.depth_object_le_iff.mp hdepth (name, d) List.mem_cons_self
      rw [slotDocument, chars_object_eq]
      exact .variant ht hv (writes_compactMember (name, d.chars)) (ih hcontent)
  | @record t β r made value members P ht hparts h ih =>
    cases depth with
    | zero =>
      rw [Document.depth_object] at hdepth
      cases hdepth
    | succ depth =>
      have hmembers := Document.depth_object_le_iff.mp hdepth
      have hknown : Recorded (fun t value w => Describes foreign t value depth w) r.fields r.make
          (members.map fun m => (m.1, m.2.chars)) (made value) :=
        h.map Document.chars fun m hm t value hpart => ih t value m.2 hpart (hmembers m hm)
      rw [chars_object_eq]
      exact .object ht blanks_nil (writeMembers_compact _) (by rw [List.append_nil])
        (fun _ _ _ hpart => hpart) hknown (List.forall_mem_nil _)

/-! ## Nesting -/

/-- A bound on open brackets may be raised. -/
theorem Describes.mono (h : Describes foreign t value depth w) {depth' : Nat}
    (hle : depth ≤ depth') : Describes foreign t value depth' w := by
  induction h generalizing depth' with
  | padded hbefore hafter _ ih => exact .padded hbefore hafter (ih hle)
  | text h => exact .text h
  | flag b => exact .flag b depth'
  | word32 n => exact .word32 n depth'
  | absent t => exact .absent t depth'
  | present ht _ ih => exact .present ht (ih hle)
  | bareVariant ht hv hw => exact .bareVariant ht hv hw
  | list hgap _ ih =>
    obtain ⟨k, rfl⟩ := Nat.exists_eq_add_of_le' hle
    exact .list hgap fun i hi => ih i hi (Nat.le_add_left _ k)
  | variant ht hv hm _ ih =>
    obtain ⟨k, rfl⟩ := Nat.exists_eq_add_of_le' hle
    exact .variant ht hv hm (ih (Nat.le_add_left _ k))
  | object ht hgap hwritten hperm _ hknown hstrangers ih =>
    obtain ⟨k, rfl⟩ := Nat.exists_eq_add_of_le' hle
    exact .object ht hgap hwritten hperm
      (fun t value w hw => ih t value w hw (Nat.le_add_left _ k)) hknown hstrangers
  | positional ht hgap _ h ih =>
    obtain ⟨k, rfl⟩ := Nat.exists_eq_add_of_le' hle
    exact .positional ht hgap (fun t value w hw => ih t value w hw (Nat.le_add_left _ k)) h

theorem WriteMembers.exists_of_mem {written : List MemberText} {given : List (String × List Char)}
    (h : WriteMembers written given) {m : MemberText} (hm : m ∈ written) :
    ∃ p ∈ given, m.Writes p.1 p.2 := by
  induction h with
  | nil => cases hm
  | cons first _ ih =>
    rcases List.mem_cons.mp hm with rfl | hm
    · exact ⟨_, List.mem_cons_self, first⟩
    · rcases ih hm with ⟨p, hp, hwrites⟩
      exact ⟨p, List.mem_cons_of_mem _ hp, hwrites⟩

theorem WriteMembers.exists_writes {written : List MemberText} {given : List (String × List Char)}
    (h : WriteMembers written given) {p : String × List Char} (hp : p ∈ given) :
    ∃ m ∈ written, m.Writes p.1 p.2 := by
  induction h with
  | nil => cases hp
  | cons first _ ih =>
    rcases List.mem_cons.mp hp with rfl | hp
    · exact ⟨_, List.mem_cons_self, first⟩
    · rcases ih hp with ⟨m, hm, hwrites⟩
      exact ⟨m, List.mem_cons_of_mem _ hm, hwrites⟩

/-- The text stands for the value, without unknown members, and no more brackets are open than its
nesting says. -/
def Tight (t : Ty) (value : t.Val) (w : List Char) : Prop :=
  ∃ k, Nests k w ∧ Describes (fun _ => False) t value k w

theorem Tight.nests (h : Tight t value w) : Nests (nesting (String.ofList w)) w := by
  rcases h with ⟨k, hnests, _⟩
  rwa [Nests.nesting_eq (by rwa [String.toList_ofList])]

theorem Tight.describes (h : Tight t value w) {depth : Nat}
    (hle : nesting (String.ofList w) ≤ depth) :
    Describes (fun _ => False) t value depth w := by
  rcases h with ⟨k, hnests, hdescribes⟩
  rw [Nests.nesting_eq (by rwa [String.toList_ofList])] at hle
  exact hdescribes.mono hle

theorem Describes.tight (h : Describes (fun _ => False) t value depth w) : Tight t value w := by
  -- The given bound is forgotten: a composed text is nested one level more than its deepest part.
  induction h with
  | padded hbefore hafter _ ih =>
    rcases ih with ⟨k, hnests, hdescribes⟩
    have hpadded := ((nests_blanks hbefore).append hnests).append (nests_blanks hafter)
    rw [Nat.zero_max, Nat.max_zero] at hpadded
    exact ⟨k, hpadded, .padded hbefore hafter hdescribes⟩
  | text h => exact ⟨0, nests_quotes h, .text h⟩
  | flag b =>
    have hnests := (Document.flag b).nests_chars
    rw [Document.chars_flag] at hnests
    exact ⟨0, hnests, .flag b 0⟩
  | word32 n => exact ⟨0, nests_digits n.toNat, .word32 n 0⟩
  | absent t => exact ⟨0, .of_unchanged fun _ _ => rfl, .absent t 0⟩
  | present ht _ ih =>
    rcases ih with ⟨k, hnests, hdescribes⟩
    exact ⟨k, hnests, .present ht hdescribes⟩
  | bareVariant ht hv hw => exact ⟨0, nests_quotes hw, .bareVariant ht hv hw⟩
  | list hgap _ ih =>
    refine ⟨_, nests_arrayChars hgap fun i hi => (ih i hi).nests, .list hgap fun i hi => ?_⟩
    exact (ih i hi).describes (Document.le_foldr_max (List.mem_map_of_mem hi))
  | variant ht hv hm _ ih =>
    rcases ih with ⟨k, hnests, hdescribes⟩
    have hobject := nests_objectChars (k := fun _ => k) blanks_nil
      (List.forall_mem_singleton.mpr (hm.nests hnests))
    exact ⟨k + 1, by simpa using hobject, .variant ht hv hm hdescribes⟩
  | @object t β r made value depth gap written given known strangers P ht hgap hwritten hperm _
      hknown hstrangers ih =>
    have htight : ∀ p ∈ given, ∃ t value, Tight t value p.2 := by
      intro p hp
      rcases List.mem_append.mp (hperm.mem_iff.mp hp) with hp | hp
      · obtain ⟨t, value, hpart⟩ := hknown.exists_part hp
        exact ⟨t, value, ih t value p.2 hpart⟩
      · exact (hstrangers p hp).2.elim
    let valueNesting (m : MemberText) : Nat := nesting (String.ofList m.value)
    refine ⟨_, nests_objectChars (k := valueNesting) hgap fun m hm => ?_,
      .object ht hgap hwritten hperm (fun _ _ _ hpart => hpart)
        (hknown.mono fun p hp t value hpart => ?_) hstrangers⟩
    · obtain ⟨p, hp, hwrites⟩ := hwritten.exists_of_mem hm
      obtain ⟨t, value, hvalue⟩ := htight p hp
      show Nests (nesting (String.ofList m.value)) m.chars
      rw [hwrites.value]
      exact hwrites.nests hvalue.nests
    · obtain ⟨m, hm, hwrites⟩ :=
        hwritten.exists_writes (hperm.mem_iff.mpr (List.mem_append_left _ hp))
      have hle : nesting (String.ofList m.value) ≤ (written.map valueNesting).foldr max 0 :=
        Document.le_foldr_max (List.mem_map_of_mem hm)
      rw [hwrites.value] at hle
      exact (ih t value p.2 hpart).describes hle
  | @positional t β r made value depth gap ws P ht hgap _ h ih =>
    have hnests : Nests ((ws.map fun w => nesting (String.ofList w)).foldr max 0 + 1)
        (arrayChars gap (ws.map id)) := by
      refine nests_arrayChars hgap fun w hw => ?_
      obtain ⟨t, value, hpart⟩ := h.exists_part hw
      exact (ih t value w hpart).nests
    rw [List.map_id] at hnests
    refine ⟨_, hnests, .positional ht hgap (fun _ _ _ hpart => hpart)
      (h.mono fun w hw t value hpart => ?_)⟩
    exact (ih t value w hpart).describes (Document.le_foldr_max (List.mem_map_of_mem hw))

/-! ## Whole texts -/

theorem loadTree_eq_ok {t : TreeType} {x : t.Val} {source : String}
    (h : Reads (readValue maxLevels (.tree t)) source.toList (.ok x)) :
    loadTree t source = .ok x :=
  eq_ok_of_mapError (load_of_reads_toList h)

/-- A tree is loaded from every text that stands for it, if no more than 127 brackets are open at a
time outside of unknown members. The stored text of a tree is such a text. -/
theorem loadTree_of_describes (t : TreeType) (x : t.Val) :
    (Resolved (t.toNode x) → nesting (storeTree t x) ≤ 127 →
      Describes IsJson (.tree t) x 127 (storeTree t x).toList) ∧
    ∀ source : String, Describes IsJson (.tree t) x 127 source.toList →
      loadTree t source = .ok x := by
  constructor
  · intro hx hnesting
    rw [storeTree, nesting_render] at hnesting
    rw [storeTree, Document.render, String.toList_ofList]
    exact (written_tree t x hx).describes hnesting
  · intro source h
    exact loadTree_eq_ok (h.reads (fun _ => reads_skipValue) (Nat.le_refl 127))

/-- An identifier behind an unknown member, with an escape in its name and its default written. -/
def spacedIdent : String :=
  "\x7b \"old\" : [null] ,\"meta\":\x7b\x7d,\"name\":\"\\u0078\"\x7d\n"

theorem describes_spacedIdent :
    Describes IsJson (.tree (.node .ident)) ⟨"x", {}⟩ 127 spacedIdent.toList := by
  let name : List Char := ['"', '\\', 'u', '0', '0', '7', '8', '"']
  have hunit : CodeUnit ['0', '0', '7', '8'] 0x78 :=
    .mk (i := 0) (j := 0) (k := 7) (l := 8) ⟨by decide, Or.inl rfl⟩ ⟨by decide, Or.inl rfl⟩
      ⟨by decide, Or.inl rfl⟩ ⟨by decide, Or.inl rfl⟩
  have hname : Describes IsJson .text "x" 126 name :=
    .text ⟨_, .unicode hunit (by decide) .nil, rfl⟩
  have hinfo : Describes IsJson .info {} 126 ['{', '}'] :=
    .object (.record rfl) blanks_nil .nil (.refl []) (fun _ _ _ hpart => hpart)
      (.absent ⟨by decide, rfl⟩ (.absent ⟨by decide, rfl⟩ (.nil _))) (List.forall_mem_nil _)
  let old : List Char := [' ', '[', 'n', 'u', 'l', 'l', ']', ' ']
  have hold : IsJson old :=
    @IsJson.padded [' '] _ [' '] (by decide) (by decide)
      (.array blanks_nil (List.forall_mem_singleton.mpr .null))
  have hwritten : WriteMembers
      [⟨[' '], ['o', 'l', 'd'], [' '], old⟩, ⟨[], ['m', 'e', 't', 'a'], [], ['{', '}']⟩,
        ⟨[], ['n', 'a', 'm', 'e'], [], name⟩]
      [("old", old), ("meta", ['{', '}']), ("name", name)] :=
    .cons ⟨⟨by decide, by decide⟩, spells_escaped "old".toList, rfl⟩
      (.cons ⟨⟨by decide, by decide⟩, spells_escaped "meta".toList, rfl⟩
        (.cons ⟨⟨by decide, by decide⟩, spells_escaped "name".toList, rfl⟩ .nil))
  have hperm : List.Perm [("old", old), ("meta", ['{', '}']), ("name", name)]
      ([("name", name), ("meta", ['{', '}'])] ++ [("old", old)]) := by
    decide
  have hknown : Recorded (fun t value w => Describes IsJson t value 126 w) identRecord.fields
      identRecord.make [("name", name), ("meta", ['{', '}'])] ⟨"x", {}⟩ :=
    .present hname (.present hinfo (.nil _))
  have hbuilds : (Ty.tree (.node .ident)).Builds identRecord id := .record rfl
  have hobject := Describes.object hbuilds blanks_nil hwritten hperm (fun _ _ _ hpart => hpart)
    hknown (List.forall_mem_singleton.mpr ⟨by decide, hold⟩)
  have hpadded := @Describes.padded _ _ _ _ [] _ ['\n'] blanks_nil (by decide) hobject
  exact hpadded

theorem loadTree_of_describes_spacedIdent :
    Describes IsJson (.tree (.node .ident)) ⟨"x", {}⟩ 127
        (storeTree (.node .ident) ⟨"x", {}⟩).toList ∧
      loadTree (.node .ident) spacedIdent = .ok ⟨"x", {}⟩ := by
  have hresolved : Resolved (.ident ⟨"x", {}⟩) := by
    intro l hl
    simp [Node.preorder_eq, Node.children] at hl
  have h := loadTree_of_describes (.node .ident) ⟨"x", {}⟩
  exact ⟨h.1 hresolved (by decide), h.2 spacedIdent describes_spacedIdent⟩

/-- The texts in which records are objects or lists of their fields agree with the stored text of a
tree, if neither nests deeper than 127. -/
theorem loadTree_of_describes_known (t : TreeType) (x : t.Val) (hx : Resolved (t.toNode x))
    (hstored : nesting (storeTree t x) ≤ 127) (source : String) (depth : Nat)
    (h : Describes (fun _ => False) (.tree t) x depth source.toList)
    (hsource : nesting source ≤ 127) :
    loadTree t source = .ok x ∧ loadTree t source = loadTree t (storeTree t x) := by
  have hload : ∀ {source : String} {depth : Nat}, nesting source ≤ 127 →
      Describes (fun _ => False) (.tree t) x depth source.toList → loadTree t source = .ok x := by
    intro source depth hnesting h
    have hdescribes : Describes (fun _ => False) (.tree t) x 127 source.toList :=
      h.tight.describes (by rwa [String.ofList_toList])
    exact loadTree_eq_ok (hdescribes.reads (fun _ => False.elim) (Nat.le_refl 127))
  have hcanonical : Describes (fun _ => False) (.tree t) x (t.toDocument x).depth
      (storeTree t x).toList := by
    rw [storeTree, Document.render, String.toList_ofList]
    exact (written_tree t x hx).describes (Nat.le_refl _)
  exact ⟨hload hsource h, (hload hsource h).trans (hload hstored hcanonical).symm⟩

/-- A conditional without an alternative. -/
def plainIf : If := ⟨.ident ⟨"x", {}⟩, .list ⟨[], {}⟩, none, {}⟩

/-- The conditional as a list, with `null` for the alternative before what is known of it. -/
def listedIf : String :=
  "[\x7b\"Ident\":[\"x\"]\x7d,\x7b\"List\":[[]]\x7d,null,[[],[]]]"

theorem describes_listed (t : Ty) (r : Record t.Val) {value : t.Val} {depth : Nat}
    {ws : List (List Char)} (ht : t.shape? = some (.record r))
    (h : Listed (fun t value w => Describes foreign t value depth w) r.fields r.make ws value) :
    Describes foreign t value (depth + 1) (arrayChars [] ws) :=
  .positional (.record ht) blanks_nil (fun _ _ _ hpart => hpart) h

theorem describes_listedIf :
    Describes (fun _ => False) (.tree (.node .ifStmt)) plainIf 4 listedIf.toList := by
  have hident : Describes (fun _ => False) (.tree (.node .ident)) ⟨"x", {}⟩ 2
      (arrayChars [] [['"', 'x', '"']]) :=
    describes_listed (.tree (.node .ident)) identRecord rfl
      (.next (.text (quotes_textChars "x")) (.cut ⟨by decide, rfl⟩ (.nil _)))
  have hlist : Describes (fun _ => False) (.tree (.node .stmtList)) ⟨[], {}⟩ 2
      (arrayChars [] [['[', ']']]) :=
    describes_listed (.tree (.node .stmtList)) stmtListRecord rfl
      (.next (@Describes.list _ (.tree .stmt) 0 [] [] blanks_nil (List.forall_mem_nil _))
        (.cut ⟨by decide, rfl⟩ (.nil _)))
  have hcond := @Describes.variant _ (.tree .expr) _ exprVariants "Ident" Expr.ident _ _ _ _ rfl
    (by simp [exprVariants]) (writes_compactMember ("Ident", _)) hident
  have hthen := @Describes.variant _ (.tree .stmt) _ stmtVariants "List" Stmt.list _ _ _ _ rfl
    (by simp [stmtVariants]) (writes_compactMember ("List", _)) hlist
  have hpos : Describes (fun _ => False) .position {} 2 (arrayChars [] []) :=
    describes_listed .position positionRecord rfl
      (.cut ⟨by decide, rfl⟩ (.cut ⟨by decide, rfl⟩ (.nil _)))
  have hprops : Describes (fun _ => False) .props {} 2 (arrayChars [] []) :=
    describes_listed .props propsRecord rfl
      (.cut ⟨by decide, rfl⟩ (.cut ⟨by decide, rfl⟩ (.nil _)))
  have hinfo : Describes (fun _ => False) .info {} 3
      (arrayChars [] [arrayChars [] [], arrayChars [] []]) :=
    describes_listed .info infoRecord rfl (.next hpos (.next hprops (.nil _)))
  exact describes_listed (.tree (.node .ifStmt)) ifRecord rfl
    (.next hcond (.next hthen (.next (.absent _ 3) (.next hinfo (.nil _)))))

theorem loadTree_of_describes_known_listedIf :
    loadTree (.node .ifStmt) listedIf = .ok plainIf ∧
      loadTree (.node .ifStmt) listedIf =
        loadTree (.node .ifStmt) (storeTree (.node .ifStmt) plainIf) := by
  have hresolved : Resolved (.ifStmt plainIf) := by
    intro l hl
    simp [plainIf, Node.preorder_eq, Node.children, Expr.toNode, Stmt.toNode] at hl
  exact loadTree_of_describes_known (.node .ifStmt) plainIf hresolved (by decide) listedIf 4
    describes_listedIf (by decide)

end Stored
end PascalTree
