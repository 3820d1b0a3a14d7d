/-!
# CodePoints — sets of code points given by ranges

A Unicode property is kept as the list of its maximal ranges, in ascending order.
-/

namespace PascalTree
namespace Text

/-- First and last code point of each maximal range of a set. -/
abbrev Ranges := List (Nat × Nat)

/-- Whether a code point lies in one of the ranges. -/
def Ranges.holds (ranges : Ranges) (c : Char) : Bool :=
  ranges.any fun range => decide (range.1 ≤ c.toNat) && decide (c.toNat ≤ range.2)

end Text
end PascalTree
