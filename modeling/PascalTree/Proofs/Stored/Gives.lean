import PascalTree.Proofs.Json.Gives
import PascalTree.Stored.Read

/-!
# Gives — what the readers of composed values can give

A property of lists, records and enumerations follows from properties of their parts, in whichever
of its forms the value was written. A record in particular may be an object or a list, with fields
left to their defaults:

* `Makes`: a maker gives a property to all it makes of good fields;
* `gives_list`, `gives_record`, `gives_checked`, `gives_choice`: readers of composed values.

Where no bracket may be opened, nothing is asked of the parts, and nothing but a bare variant is
given.
-/

namespace PascalTree
namespace Stored

open Json

variable {α : Type} {p : α → Prop} {nested : Nested}

theorem gives_openBracket {content : ((t : Ty) → Reader t.Val) → Reader α}
    (h : ∀ inner, nested = some inner → Gives (content inner) p) :
    Gives (openBracket nested content) p := by
  intro s value rest hdone
  unfold openBracket at hdone
  split at hdone
  · cases hdone
  · exact h _ rfl _ value rest hdone

/-! ## Lists -/

theorem gives_elementStep {element : Reader α} (h : Gives element p) (acc : List α)
    (hacc : ∀ a ∈ acc, p a) :
    Gives (elementStep element acc)
      (Sum.elim (fun acc => ∀ a ∈ acc, p a) fun values => ∀ a ∈ values, p a) := by
  refine Gives.bind (Gives.any _) fun more _ => ?_
  cases more with
  | true =>
    refine Gives.bind h fun value hvalue => Gives.pure ?_
    exact List.forall_mem_cons.mpr ⟨hvalue, hacc⟩
  | false =>
    refine Gives.pure ?_
    intro a ha
    exact hacc a (List.mem_reverse.mp ha)

theorem gives_list {t : Ty} {q : List t.Val → Prop}
    (h : ∀ inner, nested = some inner → ∃ element : t.Val → Prop,
      Gives (inner t) element ∧ ∀ values, (∀ value ∈ values, element value) → q values) :
    Gives (readList nested t) q := by
  apply Gives.startValue
  apply Gives.settle
  intro s values rest hdone
  dsimp only at hdone
  split at hdone
  · refine gives_openBracket (fun inner hinner => ?_) _ values rest hdone
    rcases h inner hinner with ⟨element, hread, hvalues⟩
    have helements : Gives (Reader.iterate (elementStep (inner t)) [])
        fun values => ∀ value ∈ values, element value :=
      Gives.iterate (gives_elementStep hread) (List.forall_mem_nil element)
    exact Gives.closedBy (helements.mono hvalues)
  · exact gives_wrongType _ _ values rest hdone

/-! ## Makers -/

/-- Whatever is made of fields with the given properties, or of their defaults, has the property
`p`. -/
def Makes (given : (t : Ty) → t.Val → Prop) : (fs : List Field) → Maker α fs → (α → Prop) → Prop
  | [], value, p => p value
  | f :: fs, make, p =>
    ∀ value, given f.type value ∨ f.default? = some value → Makes given fs (make value) p

section Makes

variable {given : (t : Ty) → t.Val → Prop} {f : Field} {fs : List Field}

/-- A field without a default has been read. -/
theorem Makes.required {make : Maker α (f :: fs)} (hdefault : f.default? = none)
    (h : ∀ value, given f.type value → Makes given fs (make value) p) :
    Makes given (f :: fs) make p := by
  rintro value (hgiven | habsent)
  · exact h value hgiven
  · rw [hdefault] at habsent
    cases habsent

/-- A field whose default has the given property may be taken for read. -/
theorem Makes.defaulted {make : Maker α (f :: fs)} {default : f.type.Val}
    (hdefault : f.default? = some default) (hgiven : given f.type default)
    (h : ∀ value, given f.type value → Makes given fs (make value) p) :
    Makes given (f :: fs) make p := by
  rintro value (hvalue | habsent)
  · exact h value hvalue
  · rw [hdefault] at habsent
    cases habsent
    exact h default hgiven

end Makes

/-! ## Records as objects -/

section Records

variable {inner : (t : Ty) → Reader t.Val} {given : (t : Ty) → t.Val → Prop} {fs : List Field}

/-- The fields read so far have the given properties. -/
def Slots.Hold (given : (t : Ty) → t.Val → Prop) : (fs : List Field) → Slots fs → Prop
  | [], _ => True
  | f :: fs, (slot, slots) =>
    (∀ value, slot = some value → given f.type value) ∧ Slots.Hold given fs slots

theorem Slots.hold_empty (given : (t : Ty) → t.Val → Prop) (fs : List Field) :
    Slots.Hold given fs (Slots.empty fs) := by
  induction fs with
  | nil => trivial
  | cons f fs ih =>
    refine ⟨?_, ih⟩
    intro value hvalue
    cases hvalue

theorem Slots.Hold.complete {make : Maker α fs} {slots : Slots fs} {made : α}
    (h : Slots.Hold given fs slots) (hmakes : Makes given fs make p)
    (hmade : Slots.complete fs make slots = .ok made) : p made := by
  induction fs with
  | nil =>
    cases hmade
    exact hmakes
  | cons f fs ih =>
    obtain ⟨slot, slots⟩ := slots
    obtain ⟨hslot, hslots⟩ := h
    unfold Slots.complete at hmade
    split at hmade
    · rename_i value hvalue
      -- What was read comes first; the default only fills what was not.
      have hfield : given f.type value ∨ f.default? = some value := by
        rcases Option.or_eq_some_iff.mp hvalue with hread | ⟨_, hdefault⟩
        · exact Or.inl (hslot value hread)
        · exact Or.inr hdefault
      exact ih hslots (hmakes value hfield) hmade
    · cases hmade

theorem gives_readMember (hinner : ∀ t, Gives (inner t) (given t)) (key : String)
    {slots : Slots fs} (h : Slots.Hold given fs slots) :
    Gives (readMember inner key fs slots) (Slots.Hold given fs) := by
  induction fs with
  | nil => exact fun _ _ _ _ => trivial
  | cons f fs ih =>
    obtain ⟨slot, slots⟩ := slots
    obtain ⟨hslot, hslots⟩ := h
    unfold readMember
    split
    · split
      · exact Gives.refuse _
      · refine Gives.bind (Gives.any _) fun _ _ => ?_
        refine Gives.bind (hinner f.type) fun value hvalue => Gives.pure ?_
        refine ⟨?_, hslots⟩
        intro value' hsome
        cases hsome
        exact hvalue
    · exact Gives.bind (ih hslots) fun slots' hslots' => Gives.pure ⟨hslot, hslots'⟩

theorem gives_memberStep (hinner : ∀ t, Gives (inner t) (given t)) (state : Bool × Slots fs)
    (h : Slots.Hold given fs state.2) :
    Gives (memberStep inner fs state)
      (Sum.elim (fun state => Slots.Hold given fs state.2) (Slots.Hold given fs)) := by
  refine Gives.bind (Gives.any _) fun key _ => ?_
  cases key with
  | none => exact Gives.pure h
  | some key =>
    exact Gives.bind (gives_readMember hinner key h) fun slots hslots => Gives.pure hslots

theorem gives_readMembers {r : Record α} (hinner : ∀ t, Gives (inner t) (given t))
    (hmakes : Makes given r.fields r.make p) : Gives (readMembers r inner) p := by
  have hslots : Gives (Reader.iterate (memberStep inner r.fields) (true, Slots.empty r.fields))
      (Slots.Hold given r.fields) :=
    Gives.iterate (gives_memberStep hinner) (Slots.hold_empty given r.fields)
  refine Gives.bind hslots fun slots hhold => ?_
  split
  · rename_i value hmade
    exact Gives.pure (hhold.complete hmakes hmade)
  · exact Gives.refuse _

/-! ## Records as lists -/

theorem makes_completeDefaults {make : Maker α fs} {name : String} {size index : Nat} {made : α}
    (hmakes : Makes given fs make p)
    (hmade : completeDefaults name size index fs make = .ok made) : p made := by
  induction fs generalizing index with
  | nil =>
    cases hmade
    exact hmakes
  | cons f fs ih =>
    unfold completeDefaults at hmade
    split at hmade
    · rename_i value hdefault
      exact ih (hmakes value (Or.inr hdefault)) hmade
    · cases hmade

theorem gives_readPositional (hinner : ∀ t, Gives (inner t) (given t)) (name : String) (size : Nat)
    {index : Nat} {make : Maker α fs} (hmakes : Makes given fs make p) :
    Gives (readPositional name size inner index fs make) p := by
  induction fs generalizing index with
  | nil => exact Gives.pure hmakes
  | cons f fs ih =>
    refine Gives.bind (Gives.any _) fun more _ => ?_
    cases more with
    | true =>
      refine Gives.bind (hinner f.type) fun value hvalue => ?_
      exact ih (hmakes value (Or.inl hvalue))
    | false =>
      -- The list has ended: all that is left to come are defaults.
      simp only [Bool.false_eq_true, if_false]
      split
      · rename_i value hmade
        exact Gives.pure (makes_completeDefaults hmakes hmade)
      · exact Gives.refuse _

/-! ## Records -/

theorem gives_record {r : Record α}
    (h : ∀ inner, nested = some inner → ∃ given : (t : Ty) → t.Val → Prop,
      (∀ t, Gives (inner t) (given t)) ∧ Makes given r.fields r.make p) :
    Gives (readRecord nested r) p := by
  apply Gives.startValue
  apply Gives.settle
  intro s value rest hdone
  dsimp only at hdone
  split at hdone
  · refine gives_openBracket (fun inner hinner => ?_) _ value rest hdone
    rcases h inner hinner with ⟨given, hgiven, hmakes⟩
    exact Gives.closedBy (gives_readMembers hgiven hmakes)
  · refine gives_openBracket (fun inner hinner => ?_) _ value rest hdone
    rcases h inner hinner with ⟨given, hgiven, hmakes⟩
    exact Gives.closedBy (gives_readPositional hgiven r.name r.fields.length hmakes)
  · exact gives_wrongType _ _ value rest hdone

theorem gives_checked {r : Record (Except BuildError α)}
    (h : Gives (readRecord nested r) fun made => ∀ value, made = .ok value → p value) :
    Gives (readChecked nested r) p := by
  refine Gives.bind h fun made hmade => ?_
  cases made with
  | ok value => exact Gives.pure (hmade value rfl)
  | error error => exact Gives.refuse _

end Records

/-! ## Enumerations -/

section Choices

variable {variants : List (Variant α)}

theorem gives_readVariantName (variants : List (Variant α)) :
    Gives (readVariantName variants) fun variant => variant ∈ variants := by
  refine Gives.bind (Gives.any _) fun name _ => ?_
  split
  · rename_i variant hfind
    exact Gives.pure (List.mem_of_find?_eq_some hfind)
  · exact Gives.failHere _

theorem gives_readVariantMember {inner : (t : Ty) → Reader t.Val}
    (hbare : ∀ name value, .bare name value ∈ variants → p value)
    (hcarrying : ∀ name t make, .carrying name t make ∈ variants →
      Gives (inner t) fun value => p (make value)) :
    Gives (readVariantMember variants inner) p := by
  intro s value rest hdone
  unfold readVariantMember at hdone
  split at hdone
  · rcases Outcome.bind_eq_done hdone with ⟨variant, s₁, hname, hdone⟩
    rcases Outcome.bind_eq_done hdone with ⟨_, s₂, _, hcontent⟩
    have hmem : variant ∈ variants := gives_readVariantName variants _ _ _ hname
    cases variant with
    | bare name value' =>
      rcases Outcome.bind_eq_done hcontent with ⟨_, s₃, _, hvalue⟩
      cases hvalue
      exact hbare name _ hmem
    | carrying name t make =>
      rcases Outcome.bind_eq_done hcontent with ⟨content, s₃, hread, hvalue⟩
      cases hvalue
      exact hcarrying name t make hmem _ _ _ hread
  · cases hdone
  · cases hdone
  · cases hdone

theorem gives_choice (hbare : ∀ name value, .bare name value ∈ variants → p value)
    (hcarrying : ∀ inner, nested = some inner → ∀ name t make,
      .carrying name t make ∈ variants → Gives (inner t) fun value => p (make value)) :
    Gives (readChoice nested variants) p := by
  apply Gives.startValue
  intro s value rest hdone
  dsimp only at hdone
  split at hdone
  · refine gives_openBracket (fun inner hinner => ?_) _ value rest hdone
    have hmember := gives_readVariantMember hbare (hcarrying inner hinner)
    refine Gives.bind hmember fun value hvalue => ?_
    exact Gives.bind (Gives.any _) fun _ _ => Gives.pure hvalue
  · rcases Outcome.bind_eq_done hdone with ⟨variant, s', hname, hvalue⟩
    have hmem : variant ∈ variants := gives_readVariantName variants _ _ _ hname
    -- A variant that carries something cannot be written as a bare name.
    cases variant with
    | bare name value' =>
      cases hvalue
      exact hbare name _ hmem
    | carrying name t make => cases hvalue
  · cases hdone

end Choices

/-! ## Options -/

theorem gives_optional {reader : Reader α} (h : Gives reader p) :
    Gives (readOptional reader) fun value => ∀ x, value = some x → p x := by
  intro s value rest hdone x hx
  subst hx
  unfold readOptional at hdone
  split at hdone
  · rcases Outcome.bind_eq_done hdone with ⟨_, s', _, hnone⟩
    cases hnone
  · rcases Outcome.bind_eq_done hdone with ⟨value', s', hread, hsome⟩
    cases hsome
    exact h _ _ _ hread

end Stored
end PascalTree
