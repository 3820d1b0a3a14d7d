import PascalTree.Json.Skip
import PascalTree.Stored.Schema

/-!
# Read — loading stored values

Reading is directed by the type of the value. A record may be written as an object, with its
members in any order, unknown ones skipped and defaulted ones left out, or as the list of its
fields. An enumeration is written as the name of a bare variant or as an object of one member.

Objects and lists may be nested 127 deep, the values of unknown members apart: `readValue levels
t` reads a value of type `t` in which at most `levels` brackets are open at a time.

* `readWith`: one level of reading, given the reader of what is nested;
* `load`: reading of a whole text.
-/

namespace PascalTree
namespace Stored

open Json

variable {α : Type}

/-- Readers for what stands inside a bracket; `none` if no bracket may be opened. -/
abbrev Nested := Option ((t : Ty) → Reader t.Val)

/-- Opens a bracket, whose character is still to be read, if that is possible. -/
def openBracket (nested : Nested) (content : ((t : Ty) → Reader t.Val) → Reader α) : Reader α :=
  fun s =>
    match nested with
    | none => Reader.failPeek .nestedTooDeep s
    | some inner => content inner s.tail

/-! ## Lists -/

/-- Reads one more element of a list; `acc` holds those read so far, the last one first. -/
def elementStep (element : Reader α) (acc : List α) : Reader (List α ⊕ List α) := do
  if ← nextElement acc.isEmpty then
    return .inl ((← element) :: acc)
  else
    return .inr acc.reverse

/-- Reads a list. -/
def readList (nested : Nested) (t : Ty) : Reader (List t.Val) :=
  startValue <| Reader.settle fun s =>
    match s with
    | '[' :: _ =>
      openBracket nested (fun inner =>
        Reader.closedBy endList (Reader.iterate (elementStep (inner t)) [])) s
    | s => wrongType .sequence s

/-! ## Records as objects -/

/-- The fields of a record read so far. -/
abbrev Slots : List Field → Type
  | [] => Unit
  | f :: fs => Option f.type.Val × Slots fs

namespace Slots

/-- No field read. -/
def empty : (fs : List Field) → Slots fs
  | [] => ()
  | _ :: fs => (none, empty fs)

/-- Makes the value of a record from the fields read and the defaults of the others. -/
def complete : (fs : List Field) → Maker α fs → Slots fs → Except Fault α
  | [], value, _ => .ok value
  | f :: fs, make, (slot, slots) =>
    match slot.or f.default? with
    | some value => complete fs (make value) slots
    | none => .error (.missingField f.name)

end Slots

/-- Reads the member of an object with the given key, whose colon and value are still to come. -/
def readMember (inner : (t : Ty) → Reader t.Val) (key : String) :
    (fs : List Field) → Slots fs → Reader (Slots fs)
  | [], _ => do
    readColon
    skipValue
  | f :: fs, (slot, slots) =>
    if key = f.name then
      if slot.isSome then Reader.refuse (.duplicateField f.name)
      else do
        readColon
        return (some (← inner f.type), slots)
    else do
      return (slot, ← readMember inner key fs slots)

/-- Reads one more member of an object; `first` says that none has been read. -/
def memberStep (inner : (t : Ty) → Reader t.Val) (fs : List Field) (state : Bool × Slots fs) :
    Reader (Bool × Slots fs ⊕ Slots fs) := do
  match ← nextKey state.1 with
  | none => return .inr state.2
  | some key => return .inl (false, ← readMember inner key fs state.2)

/-- Reads the members of an object into a record. -/
def readMembers (r : Record α) (inner : (t : Ty) → Reader t.Val) : Reader α := do
  let slots ← Reader.iterate (memberStep inner r.fields) (true, Slots.empty r.fields)
  match Slots.complete r.fields r.make slots with
  | .ok value => return value
  | .error fault => Reader.refuse fault

/-! ## Records as lists -/

/-- Makes the value of a record whose list of fields ended before the `index`-th of `size`
fields. -/
def completeDefaults (name : String) (size : Nat) :
    (index : Nat) → (fs : List Field) → Maker α fs → Except Fault α
  | _, [], value => .ok value
  | index, f :: fs, make =>
    match f.default? with
    | some value => completeDefaults name size (index + 1) fs (make value)
    | none => .error (.wrongLength index name size)

/-- Reads the fields of a record in order as the elements of a list, from the `index`-th on. -/
def readPositional (name : String) (size : Nat) (inner : (t : Ty) → Reader t.Val) :
    (index : Nat) → (fs : List Field) → Maker α fs → Reader α
  | _, [], value => pure value
  | index, f :: fs, make => do
    if ← nextElement (index == 0) then
      readPositional name size inner (index + 1) fs (make (← inner f.type))
    else
      match completeDefaults name size index (f :: fs) make with
      | .ok value => return value
      | .error fault => Reader.refuse fault

/-- Reads a record. -/
def readRecord (nested : Nested) (r : Record α) : Reader α :=
  startValue <| Reader.settle fun s =>
    match s with
    | '{' :: _ =>
      openBracket nested (fun inner => Reader.closedBy endObject (readMembers r inner)) s
    | '[' :: _ =>
      openBracket nested (fun inner => Reader.closedBy endList
        (readPositional r.name r.fields.length inner 0 r.fields r.make)) s
    | s => wrongType (.record r.name) s

/-- Reads a record and makes its value, which may be refused behind the record. -/
def readChecked (nested : Nested) (r : Record (Except BuildError α)) : Reader α := do
  match ← readRecord nested r with
  | .ok value => return value
  | .error error => Reader.refuse (.refused error)

/-! ## Enumerations -/

/-- Reads the name of a variant behind its opening quote. -/
def readVariantName (variants : List (Variant α)) : Reader (Variant α) := do
  let name ← readTextTail
  match variants.find? fun v => v.name == name with
  | some v => return v
  | none => Reader.failHere (.unknownVariant name (variants.map Variant.name))

/-- Reads the content of a variant. -/
def readContent (inner : (t : Ty) → Reader t.Val) : Variant α → Reader α
  | .bare _ value => do
    inner .unit
    return value
  | .carrying _ t make => return make (← inner t)

/-- Reads the only member of the object that stands for a variant. -/
def readVariantMember (variants : List (Variant α)) (inner : (t : Ty) → Reader t.Val) :
    Reader α := fun s =>
  match skipBlanks s with
  | '"' :: rest =>
    (readVariantName variants rest).bind fun variant rest =>
      (readColon rest).bind fun _ => readContent inner variant
  | '}' :: rest => Reader.failPeek .expectedValue ('}' :: rest)
  | [] => .failed (.endOfInput .object) ⟨[], 0⟩
  | rest => Reader.failPeek .keyNotString rest

/-- Reads the closing bracket of the object that stands for a variant. -/
def endVariant : Reader Unit := fun s =>
  match skipBlanks s with
  | '}' :: rest => .done () rest
  | [] => .failed (.endOfInput .object) ⟨[], 0⟩
  | rest => Reader.failHere .expectedValue rest

/-- Reads a value of an enumeration. -/
def readChoice (nested : Nested) (variants : List (Variant α)) : Reader α :=
  startValue fun s =>
    match s with
    | '{' :: _ =>
      openBracket nested (fun inner => do
        let value ← readVariantMember variants inner
        endVariant
        return value) s
    | '"' :: rest =>
      (readVariantName variants rest).bind fun variant =>
        match variant with
        | .bare _ value => .done value
        | .carrying .. => Reader.refuse (.wrongType .bareVariant .variantContent)
    | s => Reader.failPeek .expectedValue s

/-! ## Values of all types -/

def readShape (nested : Nested) : Shape α → Reader α
  | .record r => readRecord nested r
  | .checked r => readChecked nested r
  | .choice variants => readChoice nested variants

/-- Reads a value, given the readers for what is nested in it. -/
def readWith (nested : Nested) : (t : Ty) → Reader t.Val
  | .unit => readUnit
  | .flag => readFlag
  | .text => readText
  | .word32 => readWord32
  | .index => readIndex
  | .integer => readInteger
  | .real => readReal
  | .optional t => readOptional (readWith nested t)
  | .list t => readList nested t
  | .position => readRecord nested positionRecord
  | .props => readRecord nested propsRecord
  | .info => readRecord nested infoRecord
  | .operator => readChoice nested operatorVariants
  | .kind => readChoice nested kindVariants
  | .literalType => readChoice nested literalTypeVariants
  | .value => readChoice nested valueVariants
  | .tree t => readShape nested t.shape

/-- Reads a value in which at most `levels` brackets are open at a time. -/
def readValue : (levels : Nat) → (t : Ty) → Reader t.Val
  | 0 => readWith none
  | levels + 1 => readWith (some (readValue levels))

/-- How many brackets may be open at a time. -/
def maxLevels : Nat := 127

/-! ## Whole texts -/

/-- A line and a column, counted in bytes. -/
structure Place where
  line : Nat
  column : Nat
  deriving DecidableEq

/-- Why and where a text was refused. -/
structure LoadError where
  fault : Fault
  place? : Option Place

namespace LoadError

/-- The fault followed by its place, if it has one. -/
def message (e : LoadError) : String :=
  match e.place? with
  | none => e.fault.message
  | some place => s!"{e.fault.message} at line {place.line} column {place.column}"

end LoadError

/-- Which value was loaded can be decided without comparing faults. -/
instance [DecidableEq α] (result : Except LoadError α) (value : α) :
    Decidable (result = .ok value) :=
  match result with
  | .ok loaded => decidable_of_iff (loaded = value) (Iff.of_eq (Except.ok.injEq ..)).symm
  | .error _ => isFalse nofun

/-- The place of a mark in the text. -/
def placeOf (source : List Char) (mark : Mark) : Place :=
  let offset := byteSize source - byteSize mark.rest + mark.ahead
  let before := (source.flatMap String.utf8EncodeChar).take offset
  { line := before.count 10 + 1
    column := (before.reverse.takeWhile (· != 10)).length }

/-- Reads a value that is followed by blanks only. -/
def readWhole (t : Ty) : Reader t.Val := fun s =>
  (readValue maxLevels t s).bind fun value rest =>
    match skipBlanks rest with
    | [] => .done value []
    | rest => Reader.failPeek .trailingCharacters rest

/-- Loads a value of type `t` from a text. -/
def load (t : Ty) (source : String) : Except LoadError t.Val :=
  match readWhole t source.toList with
  | .done value _ => .ok value
  | .pending fault _ => .error ⟨fault, none⟩
  | .failed fault mark => .error ⟨fault, some (placeOf source.toList mark)⟩

/-- Loads a tree from a text. -/
def loadTree (t : TreeType) (source : String) : Except LoadError t.Val := load (.tree t) source

end Stored
end PascalTree
