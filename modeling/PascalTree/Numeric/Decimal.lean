import PascalTree.Numeric.Binary64

/-!
# Decimal — decimal numerals and their nearest double

* `digitsValue`: the number a run of decimal digits denotes;
* `Binary64.ofDecimal`: the double nearest to `digits * 10 ^ exponent`, for exponents of any size.
-/

namespace PascalTree
namespace Numeric

/-- The value of a decimal digit. -/
def digitValue (c : Char) : Nat := c.toNat - '0'.toNat

/-- The number denoted by a run of decimal digits, most significant first. -/
def digitsValue (digits : List Char) : Nat :=
  digits.foldl (fun n c => n * 10 + digitValue c) 0

namespace Binary64

/-- The double nearest to `digits * 10 ^ exponent`.

Two cut-offs keep the powers of ten small. From `10 ^ 310` on every magnitude is past the largest
finite double. And since `10 ^ k > 2 ^ (3 * k)`, a magnitude `digits / 10 ^ k` with
`log2 digits + 1081 < 3 * k` is below half of the least positive double. -/
def ofDecimal (negative : Bool) (digits : Nat) : (exponent : Int) → Binary64
  | .ofNat e =>
    if digits = 0 then zero negative
    else if 310 ≤ e then infinity negative
    else roundQuotient negative (digits * Nat.pow 10 e * Nat.pow 2 1074) 1
  | .negSucc e =>
    if digits = 0 then zero negative
    else if digits.log2 + 1081 < 3 * (e + 1) then zero negative
    else roundQuotient negative (digits * Nat.pow 2 1074) (Nat.pow 10 (e + 1))

/-- The double nearest to `10 ^ k`. -/
def powerOfTen (k : Nat) : Binary64 := ofDecimal false 1 k

end Binary64

end Numeric
end PascalTree
