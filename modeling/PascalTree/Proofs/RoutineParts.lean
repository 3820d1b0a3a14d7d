import PascalTree.Node.Basic

/-!
# RoutineParts — routines are made of exactly the parts that fit

A cursor takes the parts of a routine one after the other and stops at the first that does not
belong into its slot. The slots are those of the shape that the number of parts selects, so the
cursor never runs out of parts.

* `FirstMisfit`: the first place where parts differ from the slots they are to fill;
* `PartCursor.takeAll_ofVals`, `PartCursor.takeAll_misfit`: the two ways to go through parts;
* `RoutineShape.Built`: the three ways in which building from parts can end;
* `BuildsExactly`, `routines_from_parts`: what follows for procedures and functions.
-/

namespace PascalTree

/-! ## Parts and their slots -/

namespace RoutinePart

/-- The parts with the given contents. -/
def ofVals : (slots : List RoutineSlot) → RoutineSlot.Vals slots → List RoutinePart
  | [], () => []
  | slot :: slots, (value, values) => ⟨slot, value⟩ :: ofVals slots values

@[simp]
theorem map_slot_ofVals (slots : List RoutineSlot) (values : RoutineSlot.Vals slots) :
    (ofVals slots values).map slot = slots := by
  induction slots with
  | nil => rfl
  | cons slot slots ih => exact congrArg (slot :: ·) (ih values.2)

@[simp]
theorem length_ofVals (slots : List RoutineSlot) (values : RoutineSlot.Vals slots) :
    (ofVals slots values).length = slots.length := by
  rw [← List.length_map slot, map_slot_ofVals]

/-- Parts that belong into some slots are contents for them. -/
theorem exists_ofVals {parts : List RoutinePart} {slots : List RoutineSlot}
    (h : parts.map slot = slots) : ∃ values, parts = ofVals slots values := by
  subst h
  induction parts with
  | nil => exact ⟨(), rfl⟩
  | cons part parts ih =>
    obtain ⟨values, hvalues⟩ := ih
    exact ⟨(part.value, values), congrArg (part :: ·) hvalues⟩

end RoutinePart

/-- Of the parts that belong into the slots `given`, the one at the 1-based `position` is the first
that does not belong into its slot. -/
def FirstMisfit (slots given : List RoutineSlot) (position : Nat) (expected found : RoutineSlot) :
    Prop :=
  ∃ fitting slots' given', slots = fitting ++ expected :: slots' ∧
    given = fitting ++ found :: given' ∧ expected ≠ found ∧ position = fitting.length + 1

/-- As many parts as slots fit, or one of them is the first that does not. -/
theorem exists_firstMisfit {slots given : List RoutineSlot} (h : given.length = slots.length) :
    (∃ position expected found, FirstMisfit slots given position expected found) ↔
      given ≠ slots := by
  constructor
  · rintro ⟨_, expected, found, fitting, slots', given', rfl, rfl, hne, _⟩ heq
    exact hne (List.cons.inj (List.append_cancel_left heq)).1.symm
  · intro hne
    induction slots generalizing given with
    | nil => exact absurd (List.length_eq_zero_iff.mp h) hne
    | cons expected slots ih =>
      cases given with
      | nil => cases h
      | cons found given =>
        by_cases hslot : expected = found
        · subst hslot
          have hrest : given ≠ slots := fun heq => hne (congrArg (expected :: ·) heq)
          obtain ⟨_, e, f, fitting, slots', given', rfl, rfl, hef, rfl⟩ :=
            ih (Nat.succ_inj.mp h) hrest
          exact ⟨_, e, f, expected :: fitting, slots', given', rfl, rfl, hef, rfl⟩
        · exact ⟨1, expected, found, [], slots, given, rfl, rfl, hslot, rfl⟩

/-! ## Taking parts -/

namespace PartCursor

/-- The cursor behind the next `n` parts. -/
def advance (cursor : PartCursor) (n : Nat) : PartCursor :=
  { cursor with position := cursor.position + n, rest := cursor.rest.drop n }

theorem advance_advance (cursor : PartCursor) (m n : Nat) :
    (cursor.advance m).advance n = cursor.advance (m + n) := by
  simp [advance, Nat.add_assoc]

variable {cursor : PartCursor} {part : RoutinePart} {rest : List RoutinePart}

theorem next_cons (h : cursor.rest = part :: rest) :
    cursor.next = .ok (part, cursor.advance 1) := by
  simp [next, advance, h]

theorem take_fits {slot : RoutineSlot} {value : slot.Val}
    (h : cursor.rest = ⟨slot, value⟩ :: rest) :
    cursor.take slot = .ok (value, cursor.advance 1) := by
  rw [take, next_cons h]
  exact dif_pos rfl

theorem take_misfit {slot : RoutineSlot} (h : cursor.rest = part :: rest)
    (hslot : slot ≠ part.slot) :
    cursor.take slot =
      .error (.unexpectedArgument cursor.kind (cursor.position + 1) slot part.slot) := by
  rw [take, next_cons h]
  exact dif_neg hslot.symm

theorem takeAll_cons {slot : RoutineSlot} {slots : List RoutineSlot} {value : slot.Val}
    {cursor' : PartCursor} (h : cursor.take slot = .ok (value, cursor')) :
    cursor.takeAll (slot :: slots) =
      (cursor'.takeAll slots).map fun taken => ((value, taken.1), taken.2) := by
  rw [takeAll, h]
  change (cursor'.takeAll slots).bind _ = _
  cases cursor'.takeAll slots <;> rfl

theorem takeAll_stopped {slot : RoutineSlot} {slots : List RoutineSlot} {error : BuildError}
    (h : cursor.take slot = .error error) : cursor.takeAll (slot :: slots) = .error error := by
  rw [takeAll, h]
  rfl

/-- Parts that belong into the slots are taken whole. -/
theorem takeAll_ofVals {slots : List RoutineSlot} {values : RoutineSlot.Vals slots}
    (h : cursor.rest = RoutinePart.ofVals slots values ++ rest) :
    cursor.takeAll slots = .ok (values, cursor.advance slots.length) := by
  induction slots generalizing cursor with
  | nil => rfl
  | cons slot slots ih =>
    have hrest : (cursor.advance 1).rest = RoutinePart.ofVals slots values.2 ++ rest := by
      rw [advance, h]
      rfl
    rw [takeAll_cons (take_fits h), ih hrest, advance_advance, Nat.add_comm 1]
    rfl

/-- The first part that does not fit ends the taking, whatever stands behind it. -/
theorem takeAll_misfit {slots : List RoutineSlot} {position : Nat} {expected found : RoutineSlot}
    (h : FirstMisfit slots (cursor.rest.map RoutinePart.slot) position expected found) :
    cursor.takeAll slots = .error
      (.unexpectedArgument cursor.kind (cursor.position + position) expected found) := by
  obtain ⟨fitting, slots', given', rfl, hgiven, hne, rfl⟩ := h
  -- Each part before it moves the cursor one further, which the count of positions follows.
  induction fitting generalizing cursor with
  | nil =>
    obtain ⟨part, rest, hrest, rfl, -⟩ := List.map_eq_cons_iff.mp hgiven
    exact takeAll_stopped (take_misfit hrest hne)
  | cons slot fitting ih =>
    obtain ⟨⟨_, value⟩, rest, hrest, rfl, hfitting⟩ := List.map_eq_cons_iff.mp hgiven
    have hadvance : (cursor.advance 1).rest = rest := by
      rw [advance, hrest]
      rfl
    have hmisfit : (cursor.advance 1).takeAll (fitting ++ expected :: slots') = _ :=
      ih (by rw [hadvance]; exact hfitting)
    rw [List.cons_append, takeAll_cons (take_fits hrest), hmisfit, advance, Nat.add_assoc,
      Nat.add_comm 1]
    rfl

end PartCursor

/-! ## Building -/

namespace RoutineShape

variable {α : Type} {kind : Kind} {fewest : Nat} {shape? : Nat → Option (RoutineShape α)}
  {parts : List RoutinePart}

theorem build_eq_arity (h : shape? parts.length = none) :
    build kind fewest shape? parts = .error (.arity kind fewest parts.length) := by
  simp only [build, PartCursor.start, h, PartCursor.arity]

theorem build_ofVals {shape : RoutineShape α} {values : RoutineSlot.Vals shape.slots}
    (h : shape? shape.slots.length = some shape) :
    build kind fewest shape? (RoutinePart.ofVals shape.slots values) = .ok (shape.make values) := by
  have htaken : (PartCursor.start kind fewest (RoutinePart.ofVals shape.slots values)).takeAll
      shape.slots = _ := PartCursor.takeAll_ofVals (List.append_nil _).symm
  have hshape : shape? (RoutinePart.ofVals shape.slots values).length = some shape := by
    rw [RoutinePart.length_ofVals, h]
  simp only [build, PartCursor.start, hshape] at htaken ⊢
  rw [htaken]
  rfl

theorem build_misfit {shape : RoutineShape α} {position : Nat} {expected found : RoutineSlot}
    (h : shape? parts.length = some shape)
    (hmisfit : FirstMisfit shape.slots (parts.map RoutinePart.slot) position expected found) :
    build kind fewest shape? parts =
      .error (.unexpectedArgument kind position expected found) := by
  have htaken : (PartCursor.start kind fewest parts).takeAll shape.slots = _ :=
    PartCursor.takeAll_misfit hmisfit
  simp only [build, PartCursor.start, h, Nat.zero_add] at htaken ⊢
  rw [htaken]
  rfl

/-- The three ways in which building from parts can end. -/
inductive Built (kind : Kind) (fewest : Nat) (shape? : Nat → Option (RoutineShape α)) :
    List RoutinePart → Except BuildError α → Prop where
  | arity {parts : List RoutinePart} (h : shape? parts.length = none) :
      Built kind fewest shape? parts (.error (.arity kind fewest parts.length))
  | misfit {parts : List RoutinePart} {shape : RoutineShape α} {position : Nat}
      {expected found : RoutineSlot} (h : shape? parts.length = some shape)
      (hmisfit : FirstMisfit shape.slots (parts.map RoutinePart.slot) position expected found) :
      Built kind fewest shape? parts (.error (.unexpectedArgument kind position expected found))
  | made {shape : RoutineShape α} {values : RoutineSlot.Vals shape.slots}
      (h : shape? shape.slots.length = some shape) :
      Built kind fewest shape? (RoutinePart.ofVals shape.slots values) (.ok (shape.make values))

/-- Building ends in one of these ways if each shape is that of as many parts as it has slots. -/
theorem built (kind : Kind) (fewest : Nat) (parts : List RoutinePart)
    (hslots : ∀ shape, shape? parts.length = some shape → shape.slots.length = parts.length) :
    Built kind fewest shape? parts (build kind fewest shape? parts) := by
  cases hshape : shape? parts.length with
  | none =>
    rw [build_eq_arity hshape]
    exact .arity hshape
  | some shape =>
    have hlength := hslots shape hshape
    by_cases hfits : parts.map RoutinePart.slot = shape.slots
    · obtain ⟨values, rfl⟩ := RoutinePart.exists_ofVals hfits
      rw [← hlength] at hshape
      rw [build_ofVals hshape]
      exact .made hshape
    · obtain ⟨position, expected, found, hmisfit⟩ :=
        (exists_firstMisfit (by rw [List.length_map, hlength])).mpr hfits
      rw [build_misfit hshape hmisfit]
      exact .misfit hshape hmisfit

end RoutineShape

/-! ## What is known of a construction -/

/-- The slots that parts are to fill are those of the shape with their number. -/
def Selects (short long : List RoutineSlot) (parts : List RoutinePart) (slots : List RoutineSlot) :
    Prop :=
  slots ∈ [short, long] ∧ slots.length = parts.length

/-- A construction of routines from parts: the number of parts selects the slots, and the first
part that does not belong into its slot is refused; otherwise the parts are the children of the
routine. -/
structure BuildsExactly {α : Type} (kind : Kind) (fewest : Nat) (short long : List RoutineSlot)
    (toNode : α → Node) (build : List RoutinePart → Except BuildError α) : Prop where
  /-- The number is refused, and no other number is told, iff there is no shape for it. -/
  arity (parts : List RoutinePart) (kind' : Kind) (fewest' found : Nat) :
    build parts = .error (.arity kind' fewest' found) ↔
      (parts.length ≠ fewest ∧ parts.length ≠ fewest + 1) ∧
        kind' = kind ∧ fewest' = fewest ∧ found = parts.length
  /-- A part is refused iff the parts are not those that the slots ask for. -/
  refused (parts : List RoutinePart) :
    (∃ kind' position expected found,
        build parts = .error (.unexpectedArgument kind' position expected found)) ↔
      ∃ slots, Selects short long parts slots ∧ parts.map RoutinePart.slot ≠ slots
  /-- The part that is refused is the first that does not fit. -/
  misfit (parts : List RoutinePart) (kind' : Kind) (position : Nat)
      (expected found : RoutineSlot) :
    build parts = .error (.unexpectedArgument kind' position expected found) ↔
      kind' = kind ∧ ∃ slots, Selects short long parts slots ∧
        FirstMisfit slots (parts.map RoutinePart.slot) position expected found
  /-- The refusal of a part tells its place, its slot and what it is. -/
  wording {parts : List RoutinePart} {kind' : Kind} {position : Nat} {expected found : RoutineSlot}
      (h : build parts = .error (.unexpectedArgument kind' position expected found)) :
    (BuildError.unexpectedArgument kind' position expected found).message =
      kind.name ++ " argument #" ++ toString position ++ ": expected " ++ expected.describe ++
        ", found " ++ found.describe
  made (parts : List RoutinePart) :
    (∃ routine, build parts = .ok routine) ↔ Selects short long parts (parts.map RoutinePart.slot)
  children {parts : List RoutinePart} {routine : α} (h : build parts = .ok routine) :
    (toNode routine).children =
      if parts.length = fewest then
        (parts.map RoutinePart.toNode).insertIdx 1 (.params .empty)
      else parts.map RoutinePart.toNode
  /-- Whenever the next part is asked for, there is one. -/
  supplied {parts : List RoutinePart} {before after : List RoutineSlot} {slot : RoutineSlot}
      (hslots : Selects short long parts (before ++ slot :: after))
      {values : RoutineSlot.Vals before} {cursor : PartCursor}
      (h : (PartCursor.start kind fewest parts).takeAll before = .ok (values, cursor)) :
    ∃ part cursor', cursor.next = .ok (part, cursor')

theorem FirstMisfit.append {slots given : List RoutineSlot} {position : Nat}
    {expected found : RoutineSlot} (h : FirstMisfit slots given position expected found)
    (more : List RoutineSlot) : FirstMisfit slots (given ++ more) position expected found := by
  obtain ⟨fitting, slots', given', hslots, rfl, hne, hposition⟩ := h
  exact ⟨fitting, slots', given' ++ more, hslots, List.append_assoc _ _ _, hne, hposition⟩

/-- A cursor that has got through fewer slots than there are parts has a next part. -/
theorem PartCursor.exists_next {kind : Kind} {fewest : Nat} {parts : List RoutinePart}
    {before : List RoutineSlot} {values : RoutineSlot.Vals before} {cursor : PartCursor}
    (hlength : before.length < parts.length)
    (h : (start kind fewest parts).takeAll before = .ok (values, cursor)) :
    ∃ part cursor', cursor.next = .ok (part, cursor') := by
  have hsplit : parts = parts.take before.length ++ parts.drop before.length :=
    (List.take_append_drop _ _).symm
  have htaken : ((parts.take before.length).map RoutinePart.slot).length = before.length := by
    rw [List.length_map, List.length_take, Nat.min_eq_left (Nat.le_of_lt hlength)]
  by_cases hfits : (parts.take before.length).map RoutinePart.slot = before
  · obtain ⟨values', hvalues⟩ := RoutinePart.exists_ofVals hfits
    have hrest : (start kind fewest parts).rest =
        RoutinePart.ofVals before values' ++ parts.drop before.length := by
      rw [← hvalues]
      exact hsplit
    rw [takeAll_ofVals hrest] at h
    cases h
    exact ⟨_, _, next_cons (List.drop_eq_getElem_cons hlength)⟩
  · -- A part that does not fit would have ended the taking.
    obtain ⟨position, expected, found, hmisfit⟩ := (exists_firstMisfit htaken).mpr hfits
    have hall := hmisfit.append ((parts.drop before.length).map RoutinePart.slot)
    rw [← List.map_append, ← hsplit] at hall
    have hstopped : (start kind fewest parts).takeAll before = _ := takeAll_misfit hall
    rw [hstopped] at h
    cases h

/-- The shapes of a routine, by their slots: one for the fewest parts, and one for one part more. -/
def HasSlots {α : Type} (shape? : Nat → Option (RoutineShape α)) (fewest : Nat)
    (short long : List RoutineSlot) : Prop :=
  ∀ n, (shape? n).map RoutineShape.slots =
    if n = fewest then some short else if n = fewest + 1 then some long else none

namespace HasSlots

variable {α : Type} {shape? : Nat → Option (RoutineShape α)} {fewest : Nat}
  {short long : List RoutineSlot}

theorem eq_none_iff (h : HasSlots shape? fewest short long) (n : Nat) :
    shape? n = none ↔ n ≠ fewest ∧ n ≠ fewest + 1 := by
  rw [← Option.map_eq_none_iff (f := RoutineShape.slots), h n]
  split <;> simp_all

theorem selects_iff (h : HasSlots shape? fewest short long) (hshort : short.length = fewest)
    (hlong : long.length = fewest + 1) (parts : List RoutinePart) (slots : List RoutineSlot) :
    Selects short long parts slots ↔
      ∃ shape, shape? parts.length = some shape ∧ shape.slots = slots := by
  rw [← Option.map_eq_some_iff, h, Selects]
  simp only [List.mem_cons, List.not_mem_nil, or_false]
  constructor
  · rintro ⟨rfl | rfl, hlength⟩
    · rw [← hlength, if_pos hshort]
    · rw [← hlength, hlong, if_neg (Nat.succ_ne_self fewest), if_pos rfl]
  · intro hslots
    split at hslots
    · rename_i hparts
      cases hslots
      exact ⟨Or.inl rfl, hshort.trans hparts.symm⟩
    · split at hslots
      · rename_i hparts
        cases hslots
        exact ⟨Or.inr rfl, hlong.trans hparts.symm⟩
      · cases hslots

end HasSlots

/-- Building is exact if the two shapes keep the order of the parts. -/
theorem RoutineShape.buildsExactly {α : Type} {kind : Kind} {fewest : Nat}
    {shape? : Nat → Option (RoutineShape α)} {short long : List RoutineSlot} {toNode : α → Node}
    (hshapes : HasSlots shape? fewest short long) (hshort : short.length = fewest)
    (hlong : long.length = fewest + 1)
    (hchildren : ∀ shape values, shape? shape.slots.length = some shape →
      (toNode (shape.make values)).children =
        if shape.slots.length = fewest then
          ((RoutinePart.ofVals shape.slots values).map RoutinePart.toNode).insertIdx 1
            (.params .empty)
        else (RoutinePart.ofVals shape.slots values).map RoutinePart.toNode) :
    BuildsExactly kind fewest short long toNode (build kind fewest shape?) := by
  have hselects := hshapes.selects_iff hshort hlong
  have hbuilt : ∀ parts, Built kind fewest shape? parts (build kind fewest shape? parts) :=
    fun parts => built kind fewest parts fun shape hshape =>
      ((hselects parts shape.slots).mpr ⟨shape, hshape, rfl⟩).2
  have hmisfit : ∀ parts kind' position expected found,
      build kind fewest shape? parts = .error (.unexpectedArgument kind' position expected found) ↔
        kind' = kind ∧ ∃ slots, Selects short long parts slots ∧
          FirstMisfit slots (parts.map RoutinePart.slot) position expected found := by
    intro parts kind' position expected found
    constructor
    · intro h
      cases h ▸ hbuilt parts with
      | misfit hshape hmisfit => exact ⟨rfl, _, (hselects _ _).mpr ⟨_, hshape, rfl⟩, hmisfit⟩
    · rintro ⟨rfl, slots, hslots, hmisfit⟩
      obtain ⟨shape, hshape, rfl⟩ := (hselects _ _).mp hslots
      exact build_misfit hshape hmisfit
  constructor
  case arity =>
    intro parts kind' fewest' found
    rw [← hshapes.eq_none_iff]
    constructor
    · intro h
      cases h ▸ hbuilt parts with
      | arity hshape => exact ⟨hshape, rfl, rfl, rfl⟩
    · rintro ⟨hshape, rfl, rfl, rfl⟩
      exact build_eq_arity hshape
  case misfit => exact hmisfit
  case refused =>
    intro parts
    constructor
    · rintro ⟨_, position, expected, found, h⟩
      obtain ⟨-, slots, hslots, hfirst⟩ := (hmisfit _ _ _ _ _).mp h
      refine ⟨slots, hslots, (exists_firstMisfit ?_).mp ⟨_, _, _, hfirst⟩⟩
      rw [List.length_map, hslots.2]
    · rintro ⟨slots, hslots, hne⟩
      have hlength : (parts.map RoutinePart.slot).length = slots.length := by
        rw [List.length_map, hslots.2]
      obtain ⟨position, expected, found, hfirst⟩ := (exists_firstMisfit hlength).mpr hne
      exact ⟨_, _, _, _, (hmisfit _ _ _ _ _).mpr ⟨rfl, slots, hslots, hfirst⟩⟩
  case wording =>
    intro parts kind' position expected found h
    obtain ⟨rfl, -⟩ := (hmisfit _ _ _ _ _).mp h
    rfl
  case made =>
    intro parts
    constructor
    · rintro ⟨routine, h⟩
      cases h ▸ hbuilt parts with
      | made hshape =>
        rw [RoutinePart.map_slot_ofVals]
        exact (hselects _ _).mpr ⟨_, RoutinePart.length_ofVals _ _ ▸ hshape, rfl⟩
    · intro hfits
      obtain ⟨shape, hshape, hslots⟩ := (hselects _ _).mp hfits
      obtain ⟨values, rfl⟩ := RoutinePart.exists_ofVals hslots.symm
      rw [RoutinePart.length_ofVals] at hshape
      exact ⟨_, build_ofVals hshape⟩
  case children =>
    intro parts routine h
    cases h ▸ hbuilt parts with
    | made hshape =>
      rw [hchildren _ _ hshape, RoutinePart.length_ofVals]
  case supplied =>
    intro parts before after slot hslots values cursor h
    refine PartCursor.exists_next ?_ h
    rw [← hslots.2, List.length_append, List.length_cons]
    omega

/-! ## Procedures and functions -/

theorem ProcedureDecl.hasSlots :
    HasSlots shape? 3 [.name, .vars, .body] [.name, .params, .vars, .body] := by
  intro n
  unfold shape?
  split <;> simp_all

theorem ProcedureDecl.buildsExactly :
    BuildsExactly .procedureDecl 3 [.name, .vars, .body] [.name, .params, .vars, .body]
      Node.procedureDecl ofParts := by
  refine RoutineShape.buildsExactly hasSlots rfl rfl ?_
  intro shape values hshape
  unfold shape? at hshape
  split at hshape
  · cases hshape
    rfl
  · cases hshape
    rfl
  · cases hshape

theorem FunctionDecl.hasSlots :
    HasSlots shape? 4 [.name, .returnType, .vars, .body]
      [.name, .params, .returnType, .vars, .body] := by
  intro n
  unfold shape?
  split <;> simp_all

theorem FunctionDecl.buildsExactly :
    BuildsExactly .functionDecl 4 [.name, .returnType, .vars, .body]
      [.name, .params, .returnType, .vars, .body] Node.functionDecl ofParts := by
  refine RoutineShape.buildsExactly hasSlots rfl rfl ?_
  intro shape values hshape
  unfold shape? at hshape
  split at hshape
  · cases hshape
    rfl
  · cases hshape
    rfl
  · cases hshape

/-- Routines are built from parts exactly: a wrong number of parts and the first part out of place
are refused, and what is built is what its constructor makes of the contents. -/
theorem routines_from_parts :
    (BuildsExactly .procedureDecl 3 [.name, .vars, .body] [.name, .params, .vars, .body]
        Node.procedureDecl ProcedureDecl.ofParts ∧
      (∀ name vars body,
        ProcedureDecl.ofParts [⟨.name, name⟩, ⟨.vars, vars⟩, ⟨.body, body⟩] =
          .ok (.withoutParams name vars body)) ∧
      ∀ name params vars body,
        ProcedureDecl.ofParts [⟨.name, name⟩, ⟨.params, params⟩, ⟨.vars, vars⟩, ⟨.body, body⟩] =
          .ok { name, params, vars, body }) ∧
    (BuildsExactly .functionDecl 4 [.name, .returnType, .vars, .body]
        [.name, .params, .returnType, .vars, .body] Node.functionDecl FunctionDecl.ofParts ∧
      (∀ name returnType vars body,
        FunctionDecl.ofParts
            [⟨.name, name⟩, ⟨.returnType, returnType⟩, ⟨.vars, vars⟩, ⟨.body, body⟩] =
          .ok (.withoutParams name returnType vars body)) ∧
      ∀ name params returnType vars body,
        FunctionDecl.ofParts
            [⟨.name, name⟩, ⟨.params, params⟩, ⟨.returnType, returnType⟩, ⟨.vars, vars⟩,
              ⟨.body, body⟩] =
          .ok { name, params, returnType, vars, body }) :=
  ⟨⟨ProcedureDecl.buildsExactly, fun _ _ _ => rfl, fun _ _ _ _ => rfl⟩,
    FunctionDecl.buildsExactly, fun _ _ _ _ => rfl, fun _ _ _ _ _ => rfl⟩

end PascalTree
