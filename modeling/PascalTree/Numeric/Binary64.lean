/-!
# Binary64 — double-precision numbers as bit patterns

A real value is kept as its 64-bit pattern and computed with exactly: a finite magnitude is a
natural number of units of `2 ^ -1074`, and every operation rounds an exact quotient of natural
numbers once, to the nearest representable number and, on a tie, to the one whose last bit is
zero.

* `Binary64.magnitude`: the exact value of a finite pattern, in units of `2 ^ -1074`;
* `Binary64.roundQuotient`: the pattern nearest to a quotient of such units;
* `Binary64.ofNat`, `Binary64.mul`, `Binary64.div`: exact results, rounded once.
-/

namespace PascalTree
namespace Numeric

/-- The quotient of `a` by `d`, rounded to the nearest natural number and, on a tie, to the even
one. -/
def roundHalfEven (a d : Nat) : Nat :=
  let q := a / d
  let r := a % d
  if 2 * r < d then q
  else if d < 2 * r then q + 1
  else if q % 2 = 0 then q
  else q + 1

/-- A double-precision number: one sign bit, eleven exponent bits, fifty-two fraction bits. -/
structure Binary64 where
  bits : UInt64
  deriving DecidableEq, Inhabited

namespace Binary64

/-! ## Fields of the pattern -/

def word (x : Binary64) : Nat := x.bits.toNat

/-- The sign bit. -/
def isNegative (x : Binary64) : Bool := decide (Nat.pow 2 63 ≤ x.word)

def biasedExponent (x : Binary64) : Nat := x.word / Nat.pow 2 52 % Nat.pow 2 11

def fraction (x : Binary64) : Nat := x.word % Nat.pow 2 52

/-- The largest biased exponent is reserved for infinities and for what is no number. -/
def isFinite (x : Binary64) : Bool := x.biasedExponent != 2047

def isNaN (x : Binary64) : Bool := x.biasedExponent == 2047 && x.fraction != 0

def isInfinite (x : Binary64) : Bool := x.biasedExponent == 2047 && x.fraction == 0

def isZero (x : Binary64) : Bool := x.biasedExponent == 0 && x.fraction == 0

/-- The integer significand: the leading bit is implied unless the exponent field is zero. -/
def significand (x : Binary64) : Nat :=
  if x.biasedExponent = 0 then x.fraction else Nat.pow 2 52 + x.fraction

/-- The exponent of the significand's unit, counted from `2 ^ -1074`. -/
def unitExponent (x : Binary64) : Nat := x.biasedExponent - 1

/-- The exact magnitude of a finite number, in units of `2 ^ -1074`. -/
def magnitude (x : Binary64) : Nat := x.significand * Nat.pow 2 x.unitExponent

/-! ## Building a pattern -/

/-- The magnitude bits of infinity: one above the largest finite magnitude. -/
def infinityWord : Nat := 2047 * Nat.pow 2 52

/-- The pattern with the given sign and magnitude bits; magnitudes past the largest finite one
are infinite. -/
def ofWord (negative : Bool) (w : Nat) : Binary64 :=
  ⟨UInt64.ofNat ((if negative then Nat.pow 2 63 else 0) + min w infinityWord)⟩

def zero (negative : Bool) : Binary64 := ofWord negative 0

def infinity (negative : Bool) : Binary64 := ofWord negative infinityWord

/-- The exponent of the unit in which a magnitude with integer part `q` is rounded: significands
have at most fifty-three bits. -/
def roundingUnit (q : Nat) : Nat := if q < Nat.pow 2 53 then 0 else q.log2 - 52

/-- The number nearest to `a / d` units of `2 ^ -1074`, ties to an even significand.

The unit `p` and the rounded significand `m` are added into one word: a significand of
fifty-three bits carries its leading bit into the exponent field, and so does one that rounding
took to `2 ^ 53`. -/
def roundQuotient (negative : Bool) (a d : Nat) : Binary64 :=
  let p := roundingUnit (a / d)
  ofWord negative (p * Nat.pow 2 52 + roundHalfEven a (d * Nat.pow 2 p))

/-! ## Arithmetic -/

def ofNat (n : Nat) : Binary64 := roundQuotient false (n * Nat.pow 2 1074) 1

/-- The same magnitude with the other sign. -/
def neg (x : Binary64) : Binary64 := ⟨x.bits ^^^ 0x8000000000000000⟩

/-- The rounded product of two finite numbers. -/
def mul (x y : Binary64) : Binary64 :=
  roundQuotient (x.isNegative != y.isNegative) (x.magnitude * y.magnitude) (Nat.pow 2 1074)

/-- The rounded quotient of a finite number by a finite number other than zero. -/
def div (x y : Binary64) : Binary64 :=
  roundQuotient (x.isNegative != y.isNegative) (x.magnitude * Nat.pow 2 1074) y.magnitude

/-- Numerical equality: the two zeros are equal, and what is no number equals nothing. -/
def equal (x y : Binary64) : Bool :=
  !x.isNaN && !y.isNaN && (x.bits == y.bits || (x.isZero && y.isZero))

instance : BEq Binary64 := ⟨equal⟩

end Binary64

end Numeric
end PascalTree
