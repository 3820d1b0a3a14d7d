import PascalTree.Json.Container

/-!
# Skip — values of unknown members

The value of an unknown member is checked for its form and dropped. It may be nested to any depth:
the open brackets are kept in a list.
-/

namespace PascalTree
namespace Json

/-- An open bracket of a skipped value. -/
inductive Bracket where
  | list
  | object
  deriving DecidableEq

namespace Bracket

def closing : Bracket → Char
  | list => ']'
  | object => '}'

def part : Bracket → Part
  | list => .list
  | object => .object

def missingComma : Bracket → Fault
  | list => .expectedListCommaOrEnd
  | object => .expectedObjectCommaOrEnd

/-- Skips what stands before a value inside a bracket: in an object, its key. -/
def enter : Bracket → Reader Unit
  | list => pure ()
  | object => fun s =>
    match skipBlanks s with
    | '"' :: rest => (skipTextTail rest).bind fun _ => readColon
    | [] => .failed (.endOfInput .object) ⟨[], 0⟩
    | rest => Reader.failPeek .keyNotString rest

end Bracket

/-- Goes on behind a value, through closing brackets, up to the next value or to the end of the
outermost one. Gives the brackets that are open before the next value. -/
def afterValue : List Bracket → Reader (List Bracket ⊕ Unit)
  | [] => fun s => .done (.inr ()) s
  | bracket :: outer => fun s =>
    match skipBlanks s with
    | [] => .failed (.endOfInput bracket.part) ⟨[], 0⟩
    | c :: rest =>
      if c = ',' then (bracket.enter rest).bind fun _ => .done (.inl (bracket :: outer))
      else if c = bracket.closing then afterValue outer rest
      else Reader.failPeek bracket.missingComma (c :: rest)

/-- Goes on behind an opening bracket: either it is closed at once or a value follows. -/
def afterOpening (bracket : Bracket) (outer : List Bracket) : Reader (List Bracket ⊕ Unit) :=
  fun s =>
    match skipBlanks s with
    | [] => .failed (.endOfInput bracket.part) ⟨[], 0⟩
    | c :: rest =>
      if c = bracket.closing then afterValue outer rest
      else (bracket.enter (c :: rest)).bind fun _ => .done (.inl (bracket :: outer))

/-- Skips one word, number or string, or an opening bracket, and goes on to the next value. -/
def skipStep (outer : List Bracket) : Reader (List Bracket ⊕ Unit) :=
  startValue fun s =>
    match s with
    | 'n' :: rest => (readWord ['u', 'l', 'l'] rest).bind fun _ => afterValue outer
    | 't' :: rest => (readWord ['r', 'u', 'e'] rest).bind fun _ => afterValue outer
    | 'f' :: rest => (readWord ['a', 'l', 's', 'e'] rest).bind fun _ => afterValue outer
    | '"' :: rest => (skipTextTail rest).bind fun _ => afterValue outer
    | '[' :: rest => afterOpening .list outer rest
    | '{' :: rest => afterOpening .object outer rest
    | '-' :: rest => (skipNumber rest).bind fun _ => afterValue outer
    | _ =>
      if startsWithDigit s then (skipNumber s).bind fun _ => afterValue outer
      else Reader.failPeek .expectedValue s

/-- Skips a value of any kind. -/
def skipValue : Reader Unit := Reader.iterate skipStep []

end Json
end PascalTree
