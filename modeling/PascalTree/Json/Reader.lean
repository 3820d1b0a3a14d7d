import PascalTree.Json.Fault

/-!
# Reader — reading a document from the front of a text

A reader takes the characters still to be read. It gives a value and the characters behind it, or
a fault. Faults of the text are marked with their place at once. A fault of the content is pending
until an enclosing reader has done its closing step, and takes its place from where that reader
then stands.

* `Mark`: a place, given by what is still to be read from there;
* `Outcome`: the three ways a reader can end;
* `Reader.iterate`: repetition of a step, bounded by the text itself.
-/

namespace PascalTree
namespace Json

/-- A place in the text: `ahead` bytes behind the place from which `rest` is still to be read. -/
structure Mark where
  rest : List Char
  ahead : Nat

/-- How a reader ends. -/
inductive Outcome (α : Type) where
  /-- A value was read and `rest` follows it. -/
  | done (value : α) (rest : List Char)
  /-- The content was refused; the fault has no place yet, and reading stands before `rest`. -/
  | pending (fault : Fault) (rest : List Char)
  /-- Reading failed at a place. -/
  | failed (fault : Fault) (mark : Mark)

namespace Outcome

variable {α β : Type}

/-- What is still to be read where the reader stands. -/
def rest : Outcome α → List Char
  | done _ rest => rest
  | pending _ rest => rest
  | failed _ mark => mark.rest

/-- Gives a pending fault its place: where the reader stands. -/
def settle : Outcome α → Outcome α
  | pending fault rest => failed fault ⟨rest, 0⟩
  | outcome => outcome

def bind (outcome : Outcome α) (next : α → List Char → Outcome β) : Outcome β :=
  match outcome with
  | done value rest => next value rest
  | pending fault rest => pending fault rest
  | failed fault mark => failed fault mark

@[simp]
theorem bind_done (value : α) (rest : List Char) (next : α → List Char → Outcome β) :
    (done value rest).bind next = next value rest := rfl

/-- What ends well has a first part that ends well. -/
theorem bind_eq_done {outcome : Outcome α} {next : α → List Char → Outcome β} {value : β}
    {rest : List Char} (h : outcome.bind next = done value rest) :
    ∃ a s, outcome = done a s ∧ next a s = done value rest := by
  cases outcome with
  | done a s => exact ⟨a, s, rfl, h⟩
  | pending fault s => cases h
  | failed fault mark => cases h

end Outcome

/-- A reader of values of type `α`. -/
abbrev Reader (α : Type) : Type := List Char → Outcome α

namespace Reader

variable {α β σ : Type}

instance : Monad Reader where
  pure value := fun s => .done value s
  bind reader next := fun s => (reader s).bind next

@[simp]
theorem pure_apply (value : α) (s : List Char) : (pure value : Reader α) s = .done value s := rfl

@[simp]
theorem bind_apply (reader : Reader α) (next : α → Reader β) (s : List Char) :
    (reader >>= next) s = (reader s).bind next := rfl

/-- Fails at the next character, or at the end of the text. -/
def failPeek (fault : Fault) : Reader α := fun s =>
  .failed fault ⟨s, if s.isEmpty then 0 else 1⟩

/-- Fails where the reader stands. -/
def failHere (fault : Fault) : Reader α := fun s => .failed fault ⟨s, 0⟩

/-- Refuses the content read so far. -/
def refuse (fault : Fault) : Reader α := fun s => .pending fault s

/-- Gives the pending faults of a reader their place. -/
def settle (reader : Reader α) : Reader α := fun s => (reader s).settle

/-- Reads some content and then its closing bracket. The closing step is also done when the content
was refused: the fault then takes its place from where that step ends. -/
def closedBy (close : Reader Unit) (content : Reader α) : Reader α := fun s =>
  match content s with
  | .done value rest => (close rest).bind fun _ rest => .done value rest
  | .pending fault rest => .failed fault ⟨(close rest).rest, 0⟩
  | .failed fault mark => .failed fault mark

/-- Repeats a step until it gives a result. It is repeated at most once for each character of
`budget`. -/
def iterateWithin (step : σ → Reader (σ ⊕ β)) (budget : List Char) (state : σ) (s : List Char) :
    Outcome β :=
  match step state s with
  | .done (.inr result) rest => .done result rest
  | .done (.inl state') rest =>
    match budget with
    | [] => failPeek .expectedValue rest
    | _ :: budget' => iterateWithin step budget' state' rest
  | .pending fault rest => .pending fault rest
  | .failed fault mark => .failed fault mark
termination_by structural budget

/-- Repeats a step until it gives a result. Each repeated step must consume something, so the text
itself bounds their number. -/
def iterate (step : σ → Reader (σ ⊕ β)) (state : σ) : Reader β := fun s =>
  iterateWithin step s state s

end Reader

/-! ## Blanks -/

/-- The blanks between tokens. -/
def isBlank (c : Char) : Bool := c == ' ' || c == '\n' || c == '\t' || c == '\r'

/-- A text without its leading blanks. -/
def skipBlanks (s : List Char) : List Char := s.dropWhile isBlank

end Json
end PascalTree
