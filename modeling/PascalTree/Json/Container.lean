import PascalTree.Json.Scalar

/-!
# Container — what stands between the members of objects and lists

* `nextKey`, `nextElement`: the comma rules before a further member or element;
* `endObject`, `endList`: the closing brackets;
* `readColon`: what divides a key from its value.
-/

namespace PascalTree
namespace Json

/-! ## Objects -/

/-- Looks for a further member of an object and reads its key; `first` says that none has been
read. Leaves the closing bracket alone. -/
def nextKey (first : Bool) : Reader (Option String) := fun s =>
  let key (s : List Char) : Outcome (Option String) :=
    (readTextTail s).bind fun text => .done (some text)
  match skipBlanks s with
  | [] => .failed (.endOfInput .object) ⟨[], 0⟩
  | '}' :: rest => .done none ('}' :: rest)
  | c :: rest =>
    if first then
      if c = '"' then key rest else Reader.failPeek .keyNotString (c :: rest)
    else if c = ',' then
      match skipBlanks rest with
      | [] => .failed (.endOfInput .value) ⟨[], 0⟩
      | '"' :: rest => key rest
      | '}' :: rest => Reader.failPeek .trailingComma ('}' :: rest)
      | rest => Reader.failPeek .keyNotString rest
    else Reader.failPeek .expectedObjectCommaOrEnd (c :: rest)

/-- Reads the colon between a key and its value. -/
def readColon : Reader Unit := fun s =>
  match skipBlanks s with
  | ':' :: rest => .done () rest
  | [] => .failed (.endOfInput .object) ⟨[], 0⟩
  | rest => Reader.failPeek .expectedColon rest

/-- Reads the closing bracket of an object. -/
def endObject : Reader Unit := fun s =>
  match skipBlanks s with
  | '}' :: rest => .done () rest
  | ',' :: rest => Reader.failPeek .trailingComma (',' :: rest)
  | [] => .failed (.endOfInput .object) ⟨[], 0⟩
  | rest => Reader.failPeek .trailingCharacters rest

/-! ## Lists -/

/-- Looks for a further element of a list; `first` says that none has been read. Leaves the
closing bracket alone. -/
def nextElement (first : Bool) : Reader Bool := fun s =>
  match skipBlanks s with
  | [] => .failed (.endOfInput .list) ⟨[], 0⟩
  | ']' :: rest => .done false (']' :: rest)
  | c :: rest =>
    if first then .done true (c :: rest)
    else if c = ',' then
      match skipBlanks rest with
      | [] => .failed (.endOfInput .value) ⟨[], 0⟩
      | ']' :: rest => Reader.failPeek .trailingComma (']' :: rest)
      | rest => .done true rest
    else Reader.failPeek .expectedListCommaOrEnd (c :: rest)

/-- Reads the closing bracket of a list. -/
def endList : Reader Unit := fun s =>
  match skipBlanks s with
  | ']' :: rest => .done () rest
  | ',' :: rest =>
    match skipBlanks rest with
    | ']' :: rest => Reader.failPeek .trailingComma (']' :: rest)
    | rest => Reader.failPeek .trailingCharacters rest
  | [] => .failed (.endOfInput .list) ⟨[], 0⟩
  | rest => Reader.failPeek .trailingCharacters rest

end Json
end PascalTree
