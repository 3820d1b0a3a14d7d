import PascalTree.Tree.Stmt

/-!
# Routine — routines from their parts

A front-end hands the parts of a routine over as a list. Their number selects the shape, with or
without parameters, and each part must belong into the slot at its place.

* `PartCursor`: hands the parts out one after the other and counts them;
* `RoutineShape.build`: the routine of the shape that the number of parts selects.
-/

namespace PascalTree

namespace RoutineSlot

/-- What stands in a slot of a routine. -/
abbrev Val : RoutineSlot → Type
  | name => Ident
  | params => Params
  | returnType => TypeSpec
  | vars => VarSection
  | body => StmtList

/-- What stands in several slots. -/
abbrev Vals : List RoutineSlot → Type
  | [] => Unit
  | slot :: slots => slot.Val × Vals slots

end RoutineSlot

/-- One part of a routine, with the slot it belongs into. -/
structure RoutinePart where
  slot : RoutineSlot
  value : slot.Val

/-! ## Taking parts -/

/-- Where one stands in the parts of a routine. -/
structure PartCursor where
  kind : Kind
  /-- The routine takes so many parts or one more. -/
  fewest : Nat
  /-- The number of parts that were given. -/
  count : Nat
  /-- The number of parts that were taken. -/
  position : Nat
  /-- The parts still to be taken. -/
  rest : List RoutinePart

namespace PartCursor

/-- Before the first part. -/
def start (kind : Kind) (fewest : Nat) (parts : List RoutinePart) : PartCursor :=
  { kind, fewest, count := parts.length, position := 0, rest := parts }

/-- The refusal of the number of parts. -/
def arity (cursor : PartCursor) : BuildError := .arity cursor.kind cursor.fewest cursor.count

/-- The next part and the cursor behind it. -/
def next (cursor : PartCursor) : Except BuildError (RoutinePart × PartCursor) :=
  match cursor.rest with
  | [] => .error cursor.arity
  | part :: rest => .ok (part, { cursor with position := cursor.position + 1, rest })

/-- The content of the next part, which must belong into `slot`. -/
def take (cursor : PartCursor) (slot : RoutineSlot) :
    Except BuildError (slot.Val × PartCursor) := do
  let (part, cursor) ← cursor.next
  if h : part.slot = slot then return (h ▸ part.value, cursor)
  else .error (.unexpectedArgument cursor.kind cursor.position slot part.slot)

/-- The contents of the next parts, which must belong into the slots one after the other. -/
def takeAll (cursor : PartCursor) :
    (slots : List RoutineSlot) → Except BuildError (RoutineSlot.Vals slots × PartCursor)
  | [] => return ((), cursor)
  | slot :: slots => do
    let (value, cursor) ← cursor.take slot
    let (values, cursor) ← cursor.takeAll slots
    return ((value, values), cursor)

end PartCursor

/-! ## Shapes -/

/-- A shape of a routine: the slots its parts fill, in their order, and what is made of them. -/
structure RoutineShape (α : Type) where
  slots : List RoutineSlot
  make : RoutineSlot.Vals slots → α

/-- A routine of the shape that the number of parts selects. -/
def RoutineShape.build {α : Type} (kind : Kind) (fewest : Nat)
    (shape? : Nat → Option (RoutineShape α)) (parts : List RoutinePart) : Except BuildError α :=
  let cursor := PartCursor.start kind fewest parts
  match shape? cursor.count with
  | some shape => do
    let (values, _) ← cursor.takeAll shape.slots
    return shape.make values
  | none => .error cursor.arity

namespace ProcedureDecl

/-- A procedure declared without parentheses. -/
def withoutParams (name : Ident) (vars : VarSection) (body : StmtList) : ProcedureDecl :=
  { name, params := .empty, vars, body }

/-- The shape of a procedure with a number of parts. -/
def shape? : Nat → Option (RoutineShape ProcedureDecl)
  | 3 => some
    { slots := [.name, .vars, .body]
      make := fun (name, vars, body, ()) => withoutParams name vars body }
  | 4 => some
    { slots := [.name, .params, .vars, .body]
      make := fun (name, params, vars, body, ()) => { name, params, vars, body } }
  | _ => none

/-- A procedure from the parts `name, [params,] vars, body`. -/
def ofParts : List RoutinePart → Except BuildError ProcedureDecl :=
  RoutineShape.build .procedureDecl 3 shape?

end ProcedureDecl

namespace FunctionDecl

/-- A function declared without parentheses. -/
def withoutParams (name : Ident) (returnType : TypeSpec) (vars : VarSection) (body : StmtList) :
    FunctionDecl :=
  { name, params := .empty, returnType, vars, body }

/-- The shape of a function with a number of parts. -/
def shape? : Nat → Option (RoutineShape FunctionDecl)
  | 4 => some
    { slots := [.name, .returnType, .vars, .body]
      make := fun (name, returnType, vars, body, ()) => withoutParams name returnType vars body }
  | 5 => some
    { slots := [.name, .params, .returnType, .vars, .body]
      make := fun (name, params, returnType, vars, body, ()) =>
        { name, params, returnType, vars, body } }
  | _ => none

/-- A function from the parts `name, [params,] returnType, vars, body`. -/
def ofParts : List RoutinePart → Except BuildError FunctionDecl :=
  RoutineShape.build .functionDecl 4 shape?

end FunctionDecl

end PascalTree
