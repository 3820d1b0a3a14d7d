import PascalTree.Proofs.Json.Local
import PascalTree.Stored.Read

/-!
# Extension — texts with more behind them

A tree is written between brackets, so it ends where its last bracket closes. Loading therefore
takes the same tree from every longer text, and accepts the longer text only if nothing but blanks
was added. A text cut short inside a tree is no text of a tree.

* `delimited_readRecord`, `delimited_readChoice`, …: composed values have an end of their own;
* `local_readWith`: values of every type, given the readers of what is nested;
* `loadTree_append`: whole texts.
-/

namespace PascalTree
namespace Stored

open Json

variable {α : Type} {nested : Nested} {inner : (t : Ty) → Reader t.Val}

/-- The readers for what is nested take their values from the front of a text. -/
def LocalInside (nested : Nested) : Prop :=
  ∀ inner, nested = some inner → ∀ t, Local (inner t)

theorem localInside_none : LocalInside none := by
  intro inner hinner
  cases hinner

/-- Behind an opening bracket its content is read. -/
theorem takesFrontAt_openBracket {content : ((t : Ty) → Reader t.Val) → Reader α}
    {reader : Reader α} {c : Char}
    (hreader : ∀ s, reader (c :: s) = openBracket nested content (c :: s))
    (h : ∀ inner, nested = some inner → Delimited (content inner)) :
    TakesFrontAt (fun _ => True) reader c := by
  cases nested with
  | none => exact .fails fun s value rest hdone => by cases hreader s ▸ hdone
  | some inner => exact .behind (h inner rfl) fun s => (hreader s).trans rfl

/-! ## Lists -/

theorem local_elementStep {element : Reader α} (h : Local element) (acc : List α) :
    Local (elementStep element acc) := by
  refine (delimited_nextElement acc.isEmpty).bind fun more => ?_
  cases more with
  | true => exact h.bind fun value => TakesFront.pure _
  | false => exact TakesFront.pure _

theorem delimited_readList (h : LocalInside nested) (t : Ty) : Delimited (readList nested t) := by
  refine (TakesFront.of_first nofun fun c => ?_).settle.startValue
  by_cases hc : c = '['
  · subst hc
    refine takesFrontAt_openBracket (fun _ => rfl) fun inner hinner => ?_
    exact (Local.iterate (local_elementStep (h inner hinner t)) []).closedBy delimited_endList nofun
  · exact .before (delimited_wrongType .sequence) fun s => by simp [hc]

/-! ## Records -/

theorem local_readMember (h : ∀ t, Local (inner t)) (key : String) (fs : List Field)
    (slots : Slots fs) : Local (readMember inner key fs slots) := by
  induction fs with
  | nil => exact delimited_readColon.bind fun _ => local_skipValue
  | cons f fs ih =>
    obtain ⟨slot, slots⟩ := slots
    unfold readMember
    split
    · split
      · exact TakesFront.of_gives_nothing nofun
      · exact delimited_readColon.bind fun _ => (h f.type).bind fun _ => TakesFront.pure _
    · exact (ih slots).bind fun _ => TakesFront.pure _

theorem local_memberStep (h : ∀ t, Local (inner t)) (fs : List Field) (state : Bool × Slots fs) :
    Local (memberStep inner fs state) := by
  refine (delimited_nextKey state.1).bind fun key => ?_
  cases key with
  | none => exact TakesFront.pure _
  | some key => exact (local_readMember h key fs state.2).bind fun _ => TakesFront.pure _

theorem local_readMembers (h : ∀ t, Local (inner t)) (r : Record α) :
    Local (readMembers r inner) := by
  refine (Local.iterate (local_memberStep h r.fields) _).bind fun slots => ?_
  split
  · exact TakesFront.pure _
  · exact TakesFront.of_gives_nothing nofun

theorem local_readPositional (h : ∀ t, Local (inner t)) (name : String) (size index : Nat)
    (fs : List Field) (make : Maker α fs) :
    Local (readPositional name size inner index fs make) := by
  induction fs generalizing index with
  | nil => exact TakesFront.pure _
  | cons f fs ih =>
    refine (delimited_nextElement (index == 0)).bind fun more => ?_
    cases more with
    | true => exact (h f.type).bind fun value => ih (index + 1) (make value)
    | false =>
      simp only [Bool.false_eq_true, if_false]
      split
      · exact TakesFront.pure _
      · exact TakesFront.of_gives_nothing nofun

theorem delimited_readRecord (h : LocalInside nested) (r : Record α) :
    Delimited (readRecord nested r) := by
  refine (TakesFront.of_first nofun fun c => ?_).settle.startValue
  by_cases hobject : c = '{'
  · subst hobject
    refine takesFrontAt_openBracket (fun _ => rfl) fun inner hinner => ?_
    exact (local_readMembers (h inner hinner) r).closedBy delimited_endObject nofun
  · by_cases hlist : c = '['
    · subst hlist
      refine takesFrontAt_openBracket (fun _ => rfl) fun inner hinner => ?_
      have hfields := local_readPositional (h inner hinner) r.name r.fields.length 0 r.fields r.make
      exact hfields.closedBy delimited_endList nofun
    · exact .before (delimited_wrongType (.record r.name)) fun s => by simp [hobject, hlist]

theorem delimited_readChecked (h : LocalInside nested) (r : Record (Except BuildError α)) :
    Delimited (readChecked nested r) := by
  refine (delimited_readRecord h r).bind fun made => ?_
  cases made with
  | ok value => exact TakesFront.pure value
  | error error => exact TakesFront.of_gives_nothing nofun

/-! ## Enumerations -/

theorem delimited_readVariantName (variants : List (Variant α)) :
    Delimited (readVariantName variants) := by
  refine delimited_readTextTail.bind fun name => ?_
  split
  · exact TakesFront.pure _
  · exact TakesFront.of_gives_nothing nofun

theorem local_readContent (h : ∀ t, Local (inner t)) (variant : Variant α) :
    Local (readContent inner variant) := by
  cases variant with
  | bare name value => exact (h .unit).bind fun _ => TakesFront.pure value
  | carrying name t make => exact (h t).bind fun content => TakesFront.pure (make content)

theorem local_readVariantMember (h : ∀ t, Local (inner t)) (variants : List (Variant α)) :
    Local (readVariantMember variants inner) := by
  refine TakesFront.of_first_behind_blanks (fun s => ?_) nofun fun c hblank => ?_
  · simp only [readVariantMember, skipBlanks_skipBlanks]
  · by_cases hquote : c = '"'
    · subst hquote
      exact .behind ((delimited_readVariantName variants).bind fun variant =>
        delimited_readColon.bind fun _ => local_readContent h variant) fun _ => rfl
    · refine .fails fun s value rest hdone => ?_
      simp only [readVariantMember, skipBlanks_cons hblank] at hdone
      split at hdone <;> simp_all [Reader.failPeek]

theorem delimited_endVariant : Delimited endVariant := by
  refine delimited_mark (c := '}') (fun s => ?_) (fun _ => rfl) nofun ?_
  · simp only [endVariant, skipBlanks_skipBlanks]
  · intro d s value rest hblank hd hdone
    simp [endVariant, skipBlanks_cons hblank, hd, Reader.failHere] at hdone

theorem delimited_readChoice (h : LocalInside nested) (variants : List (Variant α)) :
    Delimited (readChoice nested variants) := by
  refine (TakesFront.of_first nofun fun c => ?_).startValue
  by_cases hobject : c = '{'
  · subst hobject
    refine takesFrontAt_openBracket (fun _ => rfl) fun inner hinner => ?_
    refine (local_readVariantMember (h inner hinner) variants).bind_delimited
      (fun value => delimited_endVariant.bind fun _ => TakesFront.pure value) nofun
  · by_cases hquote : c = '"'
    · subst hquote
      refine .behind ((delimited_readVariantName variants).bind fun variant => ?_) fun _ => rfl
      cases variant with
      | bare name value => exact TakesFront.pure value
      | carrying name t make => exact TakesFront.of_gives_nothing nofun
    · refine .fails fun s value rest hdone => ?_
      simp [hobject, hquote, Reader.failPeek] at hdone

/-! ## Values of all types -/

theorem delimited_tree (h : LocalInside nested) (t : TreeType) :
    Delimited (readWith nested (.tree t)) := by
  show Delimited (readShape nested t.shape)
  cases t.shape with
  | record r => exact delimited_readRecord h r
  | checked r => exact delimited_readChecked h r
  | choice variants => exact delimited_readChoice h variants

/-- Something must stand where a value is read. -/
theorem readWith_nil (nested : Nested) (t : Ty) :
    readWith nested t [] = .failed (.endOfInput .value) ⟨[], 0⟩ := by
  induction t with
  | optional t ih =>
    show (readWith nested t []).bind _ = _
    rw [ih]
    rfl
  | tree t =>
    show readShape nested t.shape [] = _
    cases t.shape <;> rfl
  | _ => rfl

theorem local_readWith (h : LocalInside nested) (t : Ty) : Local (readWith nested t) := by
  induction t with
  | optional t ih => exact local_readOptional ih fun _ _ => by simp [readWith_nil]
  | list t => exact (delimited_readList h t).local
  | unit => exact delimited_readUnit.local
  | flag => exact delimited_readFlag.local
  | text => exact delimited_readText.local
  | word32 | index | integer | real => exact local_readNumeral _ _
  | position | props | info => exact (delimited_readRecord h _).local
  | operator | kind | literalType | value => exact (delimited_readChoice h _).local
  | tree t => exact (delimited_tree h t).local

theorem local_readValue (levels : Nat) (t : Ty) : Local (readValue levels t) := by
  induction levels generalizing t with
  | zero => exact local_readWith localInside_none t
  | succ levels ih =>
    refine local_readWith (fun inner hinner => ?_) t
    cases hinner
    exact ih

/-- A tree has an end of its own, however deep its brackets may be nested. -/
theorem delimited_readValue_tree (levels : Nat) (t : TreeType) :
    Delimited (readValue levels (.tree t)) := by
  cases levels with
  | zero => exact delimited_tree localInside_none t
  | succ levels =>
    refine delimited_tree (fun inner hinner => ?_) t
    cases hinner
    exact local_readValue levels

/-! ## Whole texts -/

theorem readWhole_eq_done_iff {t : Ty} {s : List Char} {value : t.Val} :
    (∃ rest, readWhole t s = .done value rest) ↔
      ∃ rest, readValue maxLevels t s = .done value rest ∧ Blanks rest := by
  constructor
  · rintro ⟨rest, hdone⟩
    rcases Outcome.bind_eq_done hdone with ⟨value', mid, hread, hwhole⟩
    split at hwhole
    · rename_i hblank
      cases hwhole
      exact ⟨mid, hread, skipBlanks_eq_nil.mp hblank⟩
    · cases hwhole
  · rintro ⟨rest, hread, hblank⟩
    refine ⟨[], ?_⟩
    rw [readWhole, hread, Outcome.bind_done, skipBlanks_eq_nil.mpr hblank]

/-- A text is loaded if a value stands in front and only blanks behind it. -/
theorem load_eq_ok_iff {t : Ty} {source : String} {value : t.Val} :
    load t source = .ok value ↔
      ∃ rest, readValue maxLevels t source.toList = .done value rest ∧ Blanks rest := by
  rw [← readWhole_eq_done_iff, load]
  cases readWhole t source.toList with
  | done value' rest => simp
  | pending fault rest => simp
  | failed fault mark => simp

theorem blanks_append_iff {w w' : List Char} : Blanks (w ++ w') ↔ Blanks w ∧ Blanks w' :=
  List.forall_mem_append

/-- What is loaded from a longer text is what is loaded from its front. -/
theorem loadTree_append_eq_ok_iff {t : TreeType} {x y : t.Val} {source more : String}
    (h : loadTree t source = .ok x) :
    loadTree t (source ++ more) = .ok y ↔ x = y ∧ Blanks more.toList := by
  rcases load_eq_ok_iff.mp h with ⟨rest, hread, hblank⟩
  have hmore : readValue maxLevels (.tree t) (source.toList ++ more.toList) =
      .done x (rest ++ more.toList) :=
    (delimited_readValue_tree maxLevels t _ x rest hread).2 trivial more.toList
  rw [loadTree, load_eq_ok_iff, String.toList_append, hmore]
  constructor
  · rintro ⟨rest', hdone, hblanks⟩
    cases hdone
    exact ⟨rfl, (blanks_append_iff.mp hblanks).2⟩
  · rintro ⟨rfl, hblanks⟩
    exact ⟨_, rfl, blanks_append_iff.mpr ⟨hblank, hblanks⟩⟩

/-- More text behind a tree is accepted if it is blank, and does not change what is loaded. In a
text that ends with a tree, no shorter text of a tree stands in front. -/
theorem loadTree_append (t : TreeType) (x : t.Val) (source : String)
    (h : loadTree t source = .ok x) :
    (∀ more : String, (∃ y, loadTree t (source ++ more) = .ok y) ↔ Blanks more.toList) ∧
      (∀ more : String, Blanks more.toList → loadTree t (source ++ more) = .ok x) ∧
      ∀ (front back : String) (c : Char), source = front ++ back.push c → ¬ Blanks [c] →
        ∀ y, loadTree t front ≠ .ok y := by
  refine ⟨fun more => ⟨?_, ?_⟩, fun more hblank => ?_, ?_⟩
  · rintro ⟨y, hy⟩
    exact ((loadTree_append_eq_ok_iff h).mp hy).2
  · exact fun hblank => ⟨x, (loadTree_append_eq_ok_iff h).mpr ⟨rfl, hblank⟩⟩
  · exact (loadTree_append_eq_ok_iff h).mpr ⟨rfl, hblank⟩
  · rintro front back c rfl hc y hy
    -- The front loads, so what stands behind it in the whole text is blank up to its last
    -- character.
    have hblank : Blanks (back.push c).toList := ((loadTree_append_eq_ok_iff hy).mp h).2
    rw [String.toList_push] at hblank
    exact hc (blanks_append_iff.mp hblank).2

/-- The text of an identifier with an unknown member. -/
def agedIdent : String := "\x7b\"name\":\"größe\",\"old\":[-1.5e3,\x7b\x7d]\x7d"

theorem loadTree_append_agedIdent :
    loadTree (.node .ident) agedIdent = .ok ⟨"größe", {}⟩ ∧
      loadTree (.node .ident) (agedIdent ++ "\n ") = .ok ⟨"größe", {}⟩ ∧
      (¬ ∃ y, loadTree (.node .ident) (agedIdent ++ " \x7d") = .ok y) ∧
      ∀ y, loadTree (.node .ident) "\x7b\"name\":\"größe\",\"old\":[-1.5" ≠ .ok y := by
  have hload : loadTree (.node .ident) agedIdent = .ok ⟨"größe", {}⟩ := by decide +kernel
  obtain ⟨hmore, hsame, hfront⟩ := loadTree_append (.node .ident) _ _ hload
  refine ⟨hload, hsame "\n " (by decide), ?_, ?_⟩
  · rw [hmore " \x7d"]
    decide
  · exact hfront _ "e3,\x7b\x7d]" '}' (by decide) (by decide)

end Stored
end PascalTree
