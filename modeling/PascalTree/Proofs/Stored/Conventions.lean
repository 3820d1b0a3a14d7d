import PascalTree.Stored.Read

/-!
# Conventions — what holds of the whole schema

Records and enumerations of every type follow the same conventions, whatever they hold:

* `Ty.shape?`: how a composed value is stored, for all types at once;
* `omissible`, `Field.Omits`: the fields that may be left out, and what they then stand for;
* `Ty.conforms`: fields and variants have names of their own, exactly the omissible fields have a
  default, and the variants that carry something are known by names that no field has;
* `Ty.Builds`: the record that a value is made from.
-/

namespace PascalTree
namespace Stored

open Json

variable {α : Type}

/-! ## Shapes -/

/-- How a value is stored that is composed of others. -/
def Ty.shape? : (t : Ty) → Option (Shape t.Val)
  | .position => some (.record positionRecord)
  | .props => some (.record propsRecord)
  | .info => some (.record infoRecord)
  | .operator => some (.choice operatorVariants)
  | .kind => some (.choice kindVariants)
  | .literalType => some (.choice literalTypeVariants)
  | .value => some (.choice valueVariants)
  | .tree t => some t.shape
  | _ => none

theorem readWith_eq_readShape {t : Ty} {shape : Shape t.Val} (h : t.shape? = some shape)
    (nested : Nested) : readWith nested t = readShape nested shape := by
  cases t with
  | position | props | info | operator | kind | literalType | value | tree t =>
    cases h
    rfl
  | _ => cases h

/-! ## Names and defaults -/

/-- The names of the fields that may be left out. -/
def omissible : List String :=
  ["meta", "pos", "props", "line", "row", "synthesized", "note", "else_branch"]

/-- The names of the variants that carry something: the keys of the objects that stand for them. -/
def variantNames : List String :=
  ["Literal", "Ident", "Element", "Binary", "Call", "Var", "Array", "Assign", "If", "While", "For",
   "List", "Body", "Procedure", "Function", "Integer", "Real", "Boolean", "String"]

/-- The value of a type that says nothing: no mark set, nothing present, nothing known. -/
def Ty.empty? : (t : Ty) → Option t.Val
  | .flag => some false
  | .optional _ => some none
  | .position => some {}
  | .props => some {}
  | .info => some {}
  | _ => none

/-- The absent value of the type is written as `null`. -/
def Ty.isOptional : Ty → Bool
  | .optional _ => true
  | _ => false

/-- The field may be left out if it has this value. -/
def Field.Omits (f : Field) (value : f.type.Val) : Prop :=
  f.name ∈ omissible ∧ f.type.empty? = some value

/-- The field has a default if it may be left out, and only then. -/
def Field.Conforms (f : Field) : Prop :=
  f.default? = if f.name ∈ omissible then f.type.empty? else none

theorem Field.Conforms.default? {f : Field} (h : f.Conforms) {value : f.type.Val}
    (hvalue : f.Omits value) : f.default? = some value := by
  rw [h, if_pos hvalue.1, hvalue.2]

theorem Field.Conforms.default?_eq_none {f : Field} (h : f.Conforms) (hname : f.name ∉ omissible) :
    f.default? = none := by
  rw [h, if_neg hname]

structure Record.Conforms (r : Record α) : Prop where
  nodup : (r.fields.map Field.name).Nodup
  /-- The object of a record is never taken for that of a variant. -/
  names : ∀ name ∈ r.fields.map Field.name, name ∉ variantNames
  fields : ∀ f ∈ r.fields, f.Conforms

def Variant.isCarrying : Variant α → Bool
  | .bare .. => false
  | .carrying .. => true

structure VariantsConform (variants : List (Variant α)) : Prop where
  nodup : (variants.map Variant.name).Nodup
  carrying : ∀ v ∈ variants, v.isCarrying → v.name ∈ variantNames

def Shape.Conforms : Shape α → Prop
  | .record r => r.Conforms
  | .checked r => r.Conforms
  | .choice variants => VariantsConform variants

/-- Bare variants carry nothing. -/
theorem variantsConform_bare {tag : α → String} {all : List α} (h : (all.map tag).Nodup) :
    VariantsConform (bareVariants tag all) where
  nodup := by
    have hnames : (bareVariants tag all).map Variant.name = all.map tag := by
      simp [bareVariants, Variant.name]
    rwa [hnames]
  carrying := by
    intro v hv hcarrying
    rcases List.mem_map.mp hv with ⟨x, _, rfl⟩
    cases hcarrying

theorem conforms_nil : ∀ f ∈ ([] : List Field), f.Conforms := List.forall_mem_nil _

theorem conforms_cons {f : Field} {fs : List Field} (h : f.Conforms) (hs : ∀ f ∈ fs, f.Conforms) :
    ∀ g ∈ f :: fs, g.Conforms := List.forall_mem_cons.mpr ⟨h, hs⟩

theorem TreeType.shape_conforms (t : TreeType) : t.shape.Conforms := by
  cases t with
  | node kind =>
    cases kind
    -- Defaults of different types cannot be compared by a decision procedure, so one by one.
    all_goals
      refine ⟨by decide, by decide, ?_⟩
      repeat refine conforms_cons rfl ?_
      exact conforms_nil
  | expr => exact ⟨by decide, by decide⟩
  | stmt => exact ⟨by decide, by decide⟩
  | target => exact ⟨by decide, by decide⟩
  | entry => exact ⟨by decide, by decide⟩

/-- Every type that is composed of others follows the conventions. -/
theorem Ty.conforms {t : Ty} {shape : Shape t.Val} (h : t.shape? = some shape) :
    shape.Conforms := by
  cases t with
  | position | props | info =>
    cases h
    exact ⟨by decide, by decide, conforms_cons rfl (conforms_cons rfl conforms_nil)⟩
  | operator | kind | literalType =>
    cases h
    exact variantsConform_bare (by decide)
  | value =>
    cases h
    exact ⟨by decide, by decide⟩
  | tree t =>
    cases h
    exact t.shape_conforms
  | _ => cases h

/-- A variant is found by its name. -/
theorem VariantsConform.find? {variants : List (Variant α)} (h : VariantsConform variants)
    {v : Variant α} (hv : v ∈ variants) : variants.find? (fun u => u.name == v.name) = some v := by
  have hnodup := h.nodup
  clear h
  induction variants with
  | nil => cases hv
  | cons u variants ih =>
    rw [List.map_cons, List.nodup_cons] at hnodup
    rcases List.mem_cons.mp hv with rfl | hv
    · simp
    · have hne : u.name ≠ v.name := fun heq => hnodup.1 (heq ▸ List.mem_map_of_mem hv)
      rw [List.find?_cons_of_neg (by simpa using hne)]
      exact ih hv hnodup.2

/-! ## Records behind values -/

/-- The values of the type are made from the record, and `made` says what it makes for each. -/
inductive Ty.Builds (t : Ty) : {β : Type} → Record β → (made : t.Val → β) → Prop where
  | record {r : Record t.Val} (h : t.shape? = some (.record r)) : t.Builds r id
  | checked {r : Record (Except BuildError t.Val)} (h : t.shape? = some (.checked r)) :
      t.Builds r .ok

theorem Ty.Builds.conforms {t : Ty} {β : Type} {r : Record β} {made : t.Val → β}
    (h : t.Builds r made) : r.Conforms := by
  cases h with
  | record h => exact Ty.conforms h
  | checked h => exact Ty.conforms h

end Stored
end PascalTree
