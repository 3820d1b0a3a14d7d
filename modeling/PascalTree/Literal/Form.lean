import PascalTree.Literal.Value
import PascalTree.Numeric.Decimal
import PascalTree.Text.Ascii

/-!
# Form — the written forms of literals

The whole text of a literal is one of

* an integer `[+-]?[0-9]+`,
* a real `[+-]?[0-9]+\.[0-9]+([eE][+-]?[0-9]+)?` or `[+-]?[0-9]+[eE][+-]?[0-9]+`,
* `true` or `false`, in any ASCII case,
* a text between single or double quotes, on one line, in which the delimiter is doubled.

`Form.parse?` splits a text into the parts of its form and `Form.value?` evaluates them; an
integer past 64 bits and a real past the largest finite double have no value.
-/

namespace PascalTree

/-- A literal split into the parts of its written form. -/
inductive Form where
  /-- A sign and decimal digits. -/
  | integer (negative : Bool) (digits : List Char)
  /-- A sign, the digits before and behind the point, and a power of ten. -/
  | real (negative : Bool) (whole fraction : List Char) (exponent : Int)
  | boolean (b : Bool)
  /-- The text between the quotes, each doubled delimiter made single. -/
  | string (content : List Char)

namespace Form

/-! ## Splitting a text -/

/-- Whether a text starts with a minus sign. -/
def startsNegative : List Char → Bool
  | '-' :: _ => true
  | _ => false

/-- A text without its leading sign, if it has one. -/
def dropSign : List Char → List Char
  | '+' :: cs => cs
  | '-' :: cs => cs
  | cs => cs

/-- The number denoted by `[+-]?[0-9]+`, if the whole text has that form. -/
def signedDigits? (cs : List Char) : Option Int :=
  let digits := dropSign cs
  if digits.isEmpty || !digits.all Char.isDigit then none
  else
    let n : Int := Numeric.digitsValue digits
    some (if startsNegative cs then -n else n)

/-- The power of ten denoted by `[eE][+-]?[0-9]+`, if the whole text has that form. -/
def exponent? : List Char → Option Int
  | c :: cs => if c = 'e' ∨ c = 'E' then signedDigits? cs else none
  | [] => none

/-- The part of a real behind the point: digits, then possibly an exponent. -/
def fraction? (cs : List Char) : Option (List Char × Int) :=
  let digits := cs.takeWhile Char.isDigit
  let rest := cs.dropWhile Char.isDigit
  if digits.isEmpty then none
  else if rest.isEmpty then some (digits, 0)
  else (exponent? rest).map (digits, ·)

/-- An integer or a real. -/
def number? (cs : List Char) : Option Form :=
  let negative := startsNegative cs
  let whole := (dropSign cs).takeWhile Char.isDigit
  if whole.isEmpty then none
  else
    match (dropSign cs).dropWhile Char.isDigit with
    | [] => some (.integer negative whole)
    | '.' :: rest => (fraction? rest).map fun part => .real negative whole part.1 part.2
    | rest => (exponent? rest).map (.real negative whole [])

/-- The content of a quoted text behind its opening delimiter `q`: a delimiter inside is doubled,
a single one ends the text, and no line end occurs. -/
def content? (q : Char) : List Char → Option (List Char)
  | [] => none
  | c :: cs =>
    if c = q then
      match cs with
      | [] => some []
      | d :: rest => if d = q then (content? q rest).map (q :: ·) else none
    else if c = '\n' then none
    else (content? q cs).map (c :: ·)

/-- The parts of a literal's text, if the whole text has one of the written forms. -/
def parse? (text : String) : Option Form :=
  if Text.sameIgnoringCase text "true" then some (.boolean true)
  else if Text.sameIgnoringCase text "false" then some (.boolean false)
  else
    match text.toList with
    | '\'' :: cs => (content? '\'' cs).map .string
    | '"' :: cs => (content? '"' cs).map .string
    | cs => number? cs

/-! ## Evaluation -/

/-- The type of the literals of a form. -/
def type : Form → LiteralType
  | integer .. => .integer
  | real .. => .real
  | boolean _ => .boolean
  | string _ => .string

/-- The 64-bit integer equal to `n`, if there is one. -/
def int64? (n : Int) : Option Int64 :=
  if Int64.minValue.toInt ≤ n ∧ n ≤ Int64.maxValue.toInt then some (Int64.ofInt n) else none

/-- The value of a form, if its number is in range. -/
def value? : Form → Option Value
  | integer negative digits =>
    let n : Int := Numeric.digitsValue digits
    (int64? (if negative then -n else n)).map .integer
  | real negative whole fraction exponent =>
    let x := Numeric.Binary64.ofDecimal negative (Numeric.digitsValue (whole ++ fraction))
      (exponent - fraction.length)
    if x.isFinite then some (.real x) else none
  | boolean b => some (.boolean b)
  | string content => some (.string (String.ofList content))

end Form

end PascalTree
