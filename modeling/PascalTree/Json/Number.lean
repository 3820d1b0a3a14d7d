import PascalTree.Json.Reader
import PascalTree.Numeric.Decimal

/-!
# Number — numbers inside a document

A number without point and exponent that fits into 64 bits is an integer; all others, and a
negative zero, are reals. A real is computed from at most nineteen or twenty leading digits, as many
as fit into 64 bits, and a power of ten, with one rounding per operation.
-/

namespace PascalTree
namespace Json

open Numeric (Binary64 digitValue)

/-- A number as it was written. -/
inductive Number where
  /-- An unsigned number below `2 ^ 64`. -/
  | natural (n : Nat)
  /-- A negative number, at least `-2 ^ 63`. -/
  | negative (n : Int)
  | real (x : Binary64)

namespace Number

def found : Number → Found
  | natural n => .integer n
  | negative n => .integer n
  | real x => .real x

/-- The integer a number is, if it was not read as a real. -/
def integer? : Number → Option Int
  | natural n => some n
  | negative n => some n
  | real _ => none

end Number

/-! ## Digits with a limit -/

/-- Whether the next character is a digit. -/
def startsWithDigit : List Char → Bool
  | [] => false
  | c :: _ => c.isDigit

/-- Appends digits to a number as long as it stays at most `limit`; gives the number and the
digits left over. -/
def absorb (limit : Nat) : Nat → List Char → Nat × List Char
  | n, [] => (n, [])
  | n, c :: cs =>
    let n' := n * 10 + digitValue c
    if n' ≤ limit then absorb limit n' cs else (n, c :: cs)

/-- The digits of a number are kept in 64 bits. -/
def significandLimit : Nat := UInt64.size - 1

/-- The digits of an exponent are kept in 31 bits. -/
def exponentLimit : Nat := 0x7fffffff

/-! ## Reals -/

/-- The real `x * 10 ^ exponent`, if it is finite. One factor of at most `10 ^ 308` is applied at
a time. -/
def scale? (x : Binary64) (exponent : Int) : Option Binary64 :=
  if exponent.natAbs ≤ 308 then
    if 0 ≤ exponent then
      let y := x.mul (Binary64.powerOfTen exponent.natAbs)
      if y.isInfinite then none else some y
    else some (x.div (Binary64.powerOfTen exponent.natAbs))
  else if x.isZero then some x
  else if 0 ≤ exponent then none
  else scale? (x.div (Binary64.powerOfTen 308)) (exponent + 308)
termination_by exponent.natAbs
decreasing_by omega

/-- Ends a real with the given digits and power of ten. -/
def endReal (positive : Bool) (significand : Nat) (exponent : Int) : Reader Number :=
  match scale? (Binary64.ofNat significand) exponent with
  | some x => pure (.real (if positive then x else x.neg))
  | none => Reader.failHere .numberOutOfRange

/-- Reads the exponent of a real behind its letter. -/
def readExponent (positive : Bool) (significand : Nat) (exponent : Int) : Reader Number := fun s =>
  let raises := s.head? != some '-'
  let digits := if s.head? == some '-' || s.head? == some '+' then s.tail else s
  match digits with
  | [] => .failed (.endOfInput .value) ⟨[], 0⟩
  | c :: cs =>
    if !c.isDigit then .failed .invalidNumber ⟨c :: cs, 1⟩
    else
      let rest := (c :: cs).dropWhile Char.isDigit
      match absorb exponentLimit 0 ((c :: cs).takeWhile Char.isDigit) with
      | (e, []) =>
        endReal positive significand (if raises then exponent + e else exponent - e) rest
      | (_, _ :: left) =>
        if significand ≠ 0 && raises then .failed .numberOutOfRange ⟨left ++ rest, 0⟩
        else .done (.real (Binary64.zero (!positive))) rest

/-- Reads what may follow the digits of a real: an exponent. -/
def readRealEnd (positive : Bool) (significand : Nat) (exponent : Int) : Reader Number
  | 'e' :: rest => readExponent positive significand exponent rest
  | 'E' :: rest => readExponent positive significand exponent rest
  | rest => endReal positive significand exponent rest

/-- Reads the digits of a real behind its point. -/
def readFraction (positive : Bool) (significand : Nat) (exponent : Int) : Reader Number := fun s =>
  let digits := s.takeWhile Char.isDigit
  let rest := s.dropWhile Char.isDigit
  if digits.isEmpty then
    Reader.failPeek (if rest.isEmpty then .endOfInput .value else .invalidNumber) rest
  else
    let (significand', left) := absorb significandLimit significand digits
    readRealEnd positive significand' (exponent - (digits.length - left.length : Nat)) rest

/-! ## Numbers -/

/-- An integer that fits into 64 bits is one; a negative zero and what is below the least 64-bit
integer are reals. -/
def ofInteger (positive : Bool) (n : Nat) : Number :=
  if positive then .natural n
  else if n = 0 ∨ 0x8000000000000000 < n then .real (Binary64.ofNat n).neg
  else .negative (-n)

/-- Reads what follows the digits before the point. -/
def readNumberEnd (positive : Bool) (digits : List Char) : Reader Number := fun rest =>
  let (significand, left) := absorb significandLimit 0 digits
  match rest with
  | '.' :: rest => readFraction positive significand left.length rest
  | 'e' :: rest => readExponent positive significand left.length rest
  | 'E' :: rest => readExponent positive significand left.length rest
  | rest =>
    if left.isEmpty then .done (ofInteger positive significand) rest
    else endReal positive significand left.length rest

/-- Reads a number behind its sign. A leading zero stands alone. -/
def readNumber (positive : Bool) : Reader Number
  | [] => .failed (.endOfInput .value) ⟨[], 0⟩
  | c :: rest =>
    if c = '0' then
      if startsWithDigit rest then Reader.failPeek .invalidNumber rest
      else readNumberEnd positive ['0'] rest
    else if c.isDigit then
      readNumberEnd positive ((c :: rest).takeWhile Char.isDigit)
        ((c :: rest).dropWhile Char.isDigit)
    else .failed .invalidNumber ⟨c :: rest, 1⟩

/-! ## Skipping -/

/-- Takes one character that must be a digit, and the digits behind it. -/
def skipDigits : Reader Unit
  | [] => .failed .invalidNumber ⟨[], 0⟩
  | c :: rest =>
    if c.isDigit then .done () (rest.dropWhile Char.isDigit)
    else .failed .invalidNumber ⟨c :: rest, 1⟩

/-- Skips an exponent behind its letter. -/
def skipExponent : Reader Unit
  | '+' :: rest => skipDigits rest
  | '-' :: rest => skipDigits rest
  | rest => skipDigits rest

/-- Skips what may follow the digits of a number: an exponent. -/
def skipRealEnd : Reader Unit
  | 'e' :: rest => skipExponent rest
  | 'E' :: rest => skipExponent rest
  | rest => .done () rest

/-- Skips what follows the digits before the point: a fraction and an exponent. -/
def skipNumberEnd : Reader Unit
  | '.' :: rest =>
    if startsWithDigit rest then skipRealEnd (rest.dropWhile Char.isDigit)
    else Reader.failPeek .invalidNumber rest
  | rest => skipRealEnd rest

/-- Skips a number behind its sign. A leading zero stands alone. -/
def skipNumber : Reader Unit
  | '0' :: rest =>
    if startsWithDigit rest then Reader.failPeek .invalidNumber rest
    else skipNumberEnd rest
  | s => (skipDigits s).bind fun _ rest => skipNumberEnd rest

end Json
end PascalTree
