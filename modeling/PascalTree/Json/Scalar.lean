import PascalTree.Json.Number
import PascalTree.Json.Text

/-!
# Scalar — words, numbers and strings as values

Each reader skips the blanks before its value. Where another kind of value stands, that value is
looked at to say what was found: all but lists and objects are taken whole.
-/

namespace PascalTree
namespace Json

variable {α : Type}

/-- Reads the rest of a fixed word. -/
def readWord : List Char → Reader Unit
  | [], s => .done () s
  | _ :: _, [] => .failed (.endOfInput .value) ⟨[], 0⟩
  | w :: ws, c :: s => if c = w then readWord ws s else .failed .expectedWord ⟨c :: s, 1⟩

/-- Takes the value at hand and refuses it, as another kind of value was expected. -/
def wrongType (expected : Expected) : Reader α := fun s =>
  match s with
  | 'n' :: rest =>
    (readWord ['u', 'l', 'l'] rest).bind fun _ => Reader.refuse (.wrongType .null expected)
  | 't' :: rest =>
    (readWord ['r', 'u', 'e'] rest).bind fun _ =>
      Reader.refuse (.wrongType (.boolean true) expected)
  | 'f' :: rest =>
    (readWord ['a', 'l', 's', 'e'] rest).bind fun _ =>
      Reader.refuse (.wrongType (.boolean false) expected)
  | '"' :: rest =>
    (readTextTail rest).bind fun text => Reader.refuse (.wrongType (.string text) expected)
  | '[' :: _ => .pending (.wrongType .sequence expected) s
  | '{' :: _ => .pending (.wrongType .map expected) s
  | '-' :: rest =>
    (readNumber false rest).bind fun n => Reader.refuse (.wrongType n.found expected)
  | _ =>
    if startsWithDigit s then
      (readNumber true s).bind fun n => Reader.refuse (.wrongType n.found expected)
    else Reader.failPeek .expectedValue s

/-- Skips blanks and reads a value of which something must stand there. -/
def startValue (reader : Reader α) : Reader α := fun s =>
  match skipBlanks s with
  | [] => .failed (.endOfInput .value) ⟨[], 0⟩
  | s => reader s

/-! ## Values -/

/-- Reads `null`. -/
def readUnit : Reader Unit :=
  startValue <| Reader.settle fun s =>
    match s with
    | 'n' :: rest => readWord ['u', 'l', 'l'] rest
    | s => wrongType .unit s

/-- Reads a truth value. -/
def readFlag : Reader Bool :=
  startValue <| Reader.settle fun s =>
    match s with
    | 't' :: rest => (readWord ['r', 'u', 'e'] rest).bind fun _ => .done true
    | 'f' :: rest => (readWord ['a', 'l', 's', 'e'] rest).bind fun _ => .done false
    | s => wrongType .boolean s

/-- Reads a string. -/
def readText : Reader String :=
  startValue <| Reader.settle fun s =>
    match s with
    | '"' :: rest => readTextTail rest
    | s => wrongType .string s

/-- Reads a number and converts it. -/
def readNumeral (expected : Expected) (convert : Number → Except Fault α) : Reader α :=
  startValue <| Reader.settle fun s =>
    let read (positive : Bool) : Reader α := fun s =>
      (readNumber positive s).bind fun n rest =>
        match convert n with
        | .ok value => .done value rest
        | .error fault => .pending fault rest
    match s with
    | '-' :: rest => read false rest
    | _ => if startsWithDigit s then read true s else wrongType expected s

/-- The integer a number is, if it lies within bounds; a real is of the wrong type. -/
def integerWithin (expected : Expected) (low high : Int) (n : Number) : Except Fault Int :=
  match n.integer? with
  | none => .error (.wrongType n.found expected)
  | some i => if low ≤ i ∧ i ≤ high then .ok i else .error (.wrongValue n.found expected)

/-- Reads an unsigned number of 32 bits. -/
def readWord32 : Reader UInt32 :=
  readNumeral .word32 fun n =>
    (integerWithin .word32 0 (UInt32.size - 1) n).map fun n => UInt32.ofNat n.toNat

/-- Reads an unsigned number of 64 bits. -/
def readIndex : Reader Nat :=
  readNumeral .index fun n => (integerWithin .index 0 (UInt64.size - 1) n).map Int.toNat

/-- Reads a signed number of 64 bits. -/
def readInteger : Reader Int64 :=
  readNumeral .integer fun n =>
    (integerWithin .integer Int64.minValue.toInt Int64.maxValue.toInt n).map Int64.ofInt

/-- Reads a real; integers are taken for the nearest real. -/
def readReal : Reader Numeric.Binary64 :=
  readNumeral .real fun
    | .natural n => .ok (.ofNat n)
    | .negative n => .ok (Numeric.Binary64.ofNat n.natAbs).neg
    | .real x => .ok x

/-- Reads `null` for an absent value, or a value. -/
def readOptional (reader : Reader α) : Reader (Option α) := fun s =>
  match skipBlanks s with
  | 'n' :: rest => (readWord ['u', 'l', 'l'] rest).bind fun _ => .done none
  | s => (reader s).bind fun value => .done (some value)

end Json
end PascalTree
