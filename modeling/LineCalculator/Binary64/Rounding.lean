import LineCalculator.Binary64.Basic

/-!
# Rounding a quotient once

Every operation that cannot answer exactly rounds exactly once: it forms its
exact result as a quotient of integers and takes the nearest number of the
format, the even one of two equally near.  This module is that one step.

## Why one division is enough

Let the quotient `p / q` be counted in units and let `n` be its whole part.  If
`n` has at most 53 binary digits, the neighbours of the quotient are one unit
apart and rounding to a whole number of units is all there is to do.  If it has
`53 + k`, the neighbours are `2 ^ k` units apart, so the quotient is divided by
`2 ^ k` first.  In both cases the rounded significand `m` lies between the two
ends of its block of ranks, and `k * blockSize + m` is the rank itself: when
rounding carries to the next power of two, the sum carries into the next block
by the same addition.  No case is made for subnormal numbers, for a carry, or
for overflow, which is a rank that is no longer finite.
-/

namespace LineCalculator

/-- The integer nearest to `p / q`, the even one when two are equally near. -/
def nearestEven (p q : Nat) : Nat :=
  let whole := p / q
  let rest := p % q
  if 2 * rest < q then whole
  else if q < 2 * rest then whole + 1
  else whole + whole % 2

namespace Binary64

/-- How many binary digits of a whole number of units lie beyond the 53 that a
significand keeps. -/
def excessDigits (whole : Nat) : Nat := whole.log2 - 52

/-- The rank nearest to `p / q` units, counted as if ranks never ended. -/
def roundedCode (p q : Nat) : Nat :=
  let excess := excessDigits (p / q)
  excess * blockSize + nearestEven p (q * Nat.pow 2 excess)

/-- The number of the given sign nearest to `p / q` units, to the even rank on a
tie, and the infinity of that sign past the last finite rank.  The divisor is
positive. -/
def ofUnitQuotient (negative : Bool) (p q : Nat) : Binary64 :=
  if h : roundedCode p q < infinityCode then finite negative ⟨roundedCode p q, h⟩
  else infinite negative

/-- The number nearest to an integer count of units.  The sign of an exact zero
is the caller's to choose. -/
def ofUnits (zeroIsNegative : Bool) (n : Int) : Binary64 :=
  if n = 0 then zero zeroIsNegative
  else ofUnitQuotient (n < 0) n.natAbs 1

/-- The number nearest to an integer, and positive zero for zero. -/
def ofInt (n : Int) : Binary64 := ofUnits false (n * unitsPerOne)

/-- The number nearest to a natural number. -/
def ofNat (n : Nat) : Binary64 := ofInt n

end Binary64

end LineCalculator
