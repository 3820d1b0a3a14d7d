import PascalTree.Numeric.Binary64

/-!
# Shortest — the fewest decimal digits that read back

* `Shortest.decimal`: of all decimals that round to a given double, one with the fewest digits,
  and of those the nearest;
* `Layout`: where positional notation ends;
* `Layout.render`: the text of a double.
-/

namespace PascalTree
namespace Numeric

/-- The number `digits * 10 ^ exponent`. -/
structure Decimal where
  digits : Nat
  exponent : Int
  deriving DecidableEq

namespace Decimal

/-- The same number without trailing zeros; `fuel` bounds their count. -/
def trim : (fuel : Nat) → Decimal → Decimal
  | 0, d => d
  | fuel + 1, d =>
    if d.digits ≠ 0 ∧ d.digits % 10 = 0 then trim fuel ⟨d.digits / 10, d.exponent + 1⟩ else d

end Decimal

namespace Shortest

/-- The reals that round to a double, in units of `2 ^ -1076`. The ends belong to the interval
iff the significand is even. -/
structure Interval where
  low : Nat
  value : Nat
  high : Nat
  closed : Bool

/-- The rounding interval of a positive finite double. The gap below a power of two is half the
gap above it. -/
def interval (x : Binary64) : Interval :=
  let unit := Nat.pow 2 x.unitExponent
  let value := 4 * x.magnitude
  let below := if x.significand = Nat.pow 2 52 ∧ 0 < x.unitExponent then unit else 2 * unit
  { low := value - below, value, high := value + 2 * unit, closed := x.significand % 2 == 0 }

/-- The factor that takes interval bounds to the grid of multiples of `10 ^ k`. -/
def gridFactor (k : Int) : Nat := Nat.pow 10 (-k).toNat

/-- One step of that grid, in the units of the scaled bounds. -/
def gridStep (k : Int) : Nat := Nat.pow 10 k.toNat * Nat.pow 2 1076

/-- Whether `c * 10 ^ k` lies in the interval. -/
def Interval.holds (i : Interval) (k : Int) (c : Nat) : Bool :=
  let x := c * gridStep k
  let low := i.low * gridFactor k
  let high := i.high * gridFactor k
  if i.closed then decide (low ≤ x ∧ x ≤ high) else decide (low < x ∧ x < high)

/-- The nearest multiple of `10 ^ k` to the interval's value, if one of the two neighbours lies in
the interval. A tie goes to the even one. -/
def Interval.onGrid? (i : Interval) (k : Int) : Option Decimal :=
  let scaled := i.value * gridFactor k
  let down := scaled / gridStep k
  let nearer := roundHalfEven scaled (gridStep k)
  let farther := if nearer = down then down + 1 else down
  if i.holds k nearer then some ⟨nearer, k⟩
  else if i.holds k farther then some ⟨farther, k⟩
  else none

/-- The exponent of the leading decimal digit of `value` units of `2 ^ -1076`, found downwards
from `10 ^ k`. -/
def leadingExponent (value : Nat) : (fuel : Nat) → (k : Int) → Int
  | 0, k => k
  | fuel + 1, k =>
    if gridStep k ≤ value * gridFactor k then k else leadingExponent value fuel (k - 1)

/-- A decimal with the fewest digits that rounds to the positive finite double `x`. -/
def decimal (x : Binary64) : Decimal :=
  let i := interval x
  let lead := leadingExponent i.value 640 308
  let found := (List.range 17).findSome? fun (n : Nat) => i.onGrid? (lead - n)
  (found.getD ⟨0, 0⟩).trim 20

end Shortest

/-- How a double is laid out: positionally when the exponent of its leading digit lies between
two bounds, and with a signed exponent otherwise. -/
structure Layout where
  leastPositional : Int
  greatestPositional : Int

namespace Layout

def zeros (n : Nat) : List Char := List.replicate n '0'

/-- An exponent with its mark and sign, without leading zeros. -/
def exponentText (e : Int) : List Char :=
  'e' :: (if e < 0 then '-' else '+') :: Nat.toDigits 10 e.natAbs

/-- The text of a positive decimal. Positional notation always shows a digit behind the point. -/
def renderDecimal (layout : Layout) (d : Decimal) : List Char :=
  let digits := Nat.toDigits 10 d.digits
  let lead : Int := d.exponent + digits.length - 1
  if layout.leastPositional ≤ lead ∧ lead ≤ layout.greatestPositional then
    if lead < 0 then
      '0' :: '.' :: (zeros ((-lead).toNat - 1) ++ digits)
    else
      let whole := lead.toNat + 1
      if digits.length ≤ whole then
        digits ++ zeros (whole - digits.length) ++ ['.', '0']
      else
        digits.take whole ++ '.' :: digits.drop whole
  else
    match digits with
    | [digit] => digit :: exponentText lead
    | digits => digits.take 1 ++ '.' :: digits.drop 1 ++ exponentText lead

/-- The text of a double. -/
def render (layout : Layout) (x : Binary64) : String :=
  let sign := if x.isNegative then ['-'] else []
  if x.isNaN then "NaN"
  else if x.isInfinite then String.ofList (sign ++ ['i', 'n', 'f'])
  else if x.isZero then String.ofList (sign ++ ['0', '.', '0'])
  else String.ofList (sign ++ layout.renderDecimal (Shortest.decimal x))

end Layout

end Numeric
end PascalTree
