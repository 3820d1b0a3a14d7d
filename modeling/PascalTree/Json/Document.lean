/-!
# Document — JSON documents and their compact text

`Document.write` puts the compact text of a document before a given rest: no blanks, members in
their order, and in strings only the quote, the backslash and the characters below U+0020
escaped.
-/

namespace PascalTree
namespace Json

/-- A JSON document of the shape that stored trees have. -/
inductive Document where
  | flag (b : Bool)
  | number (n : Nat)
  | text (s : String)
  | array (items : List Document)
  | object (members : List (String × Document))

/-- One lower-case hexadecimal digit. -/
def hexDigit (n : Nat) : Char := Nat.digitChar (n % 16)

/-- How one character is written inside a string. -/
def escapeChar (c : Char) : List Char :=
  if c = '"' then ['\\', '"']
  else if c = '\\' then ['\\', '\\']
  else if c = '\x08' then ['\\', 'b']
  else if c = '\x0c' then ['\\', 'f']
  else if c = '\n' then ['\\', 'n']
  else if c = '\r' then ['\\', 'r']
  else if c = '\t' then ['\\', 't']
  else if c.toNat < 0x20 then
    ['\\', 'u', '0', '0', hexDigit (c.toNat / 16), hexDigit c.toNat]
  else [c]

/-- Puts a string in quotes before `rest`. -/
def writeText (s : String) (rest : List Char) : List Char :=
  '"' :: (s.toList.flatMap escapeChar ++ '"' :: rest)

/-- Puts a word before `rest`. -/
def writeWord (word : String) (rest : List Char) : List Char := word.toList ++ rest

namespace Document

mutual

/-- Puts the compact text of a document before `rest`. -/
def write : Document → List Char → List Char
  | .flag b, rest => writeWord (if b then "true" else "false") rest
  | .number n, rest => Nat.toDigits 10 n ++ rest
  | .text s, rest => writeText s rest
  | .array items, rest => '[' :: writeItems items (']' :: rest)
  | .object members, rest => '{' :: writeMembers members ('}' :: rest)
termination_by structural d => d

/-- Puts items, divided by commas, before `rest`. -/
def writeItems : List Document → List Char → List Char
  | [], rest => rest
  | item :: items, rest => item.write (writeMoreItems items rest)
termination_by structural items => items

/-- Puts the items behind a first one before `rest`. -/
def writeMoreItems : List Document → List Char → List Char
  | [], rest => rest
  | item :: items, rest => ',' :: item.write (writeMoreItems items rest)
termination_by structural items => items

/-- Puts members, divided by commas, before `rest`. -/
def writeMembers : List (String × Document) → List Char → List Char
  | [], rest => rest
  | member :: members, rest => writeMember member (writeMoreMembers members rest)
termination_by structural members => members

/-- Puts the members behind a first one before `rest`. -/
def writeMoreMembers : List (String × Document) → List Char → List Char
  | [], rest => rest
  | member :: members, rest => ',' :: writeMember member (writeMoreMembers members rest)
termination_by structural members => members

/-- Puts one member before `rest`. -/
def writeMember : String × Document → List Char → List Char
  | (key, value), rest => writeText key (':' :: value.write rest)
termination_by structural member => member

end

/-- The compact text of a document. -/
def render (d : Document) : String := String.ofList (d.write [])

end Document

end Json
end PascalTree
